import ExperienceCollection.Proofs.Store.ReadBack
import ExperienceCollection.Proofs.Store.Verdict

/-!
# The verdict on an update, and what it writes

An update pairs its places with the values of each column that its batch names, in order, as long
as there are both. Only the places that get a value have to lie in the columns. If an update is
accepted, a slot holds the last value paired with its place, and all other slots are as before.
-/

namespace ExperienceCollection

variable {ν ρ : Type}

namespace Batch

/-- All columns of the batch have `count` values; a batch without columns has none. -/
structure Uniform (b : Batch ν) (count : Nat) : Prop where
  rows : ∀ key values, b.get? key = some values → values.length = count
  empty : b.keys = [] → count = 0

lemma commonLength_eq_ok_iff {b : Batch ν} {count : Nat} :
    b.commonLength = .ok count ↔ b.Uniform count := by
  constructor
  · intro h
    obtain ⟨rfl, hrows⟩ := length_of_commonLength h
    refine ⟨hrows, fun hempty => ?_⟩
    have hentries : b.entries = [] := List.map_eq_nil_iff.mp hempty
    rw [rowCount, KeyMap.values, hentries]
    rfl
  · intro h
    by_cases hempty : b.keys = []
    · have hentries : b.entries = [] := List.map_eq_nil_iff.mp hempty
      rw [commonLength, hentries, h.empty hempty]
    · have hconforms : b.Conforms b.keys count := ⟨fun _ => .rfl, h.rows⟩
      exact hconforms.commonLength hempty

lemma Uniform.unique {b : Batch ν} {count count' : Nat} (h : b.Uniform count)
    (h' : b.Uniform count') : count = count' := by
  rw [← commonLength_eq_ok_iff] at h h'
  exact Except.ok.inj (h.symm.trans h')

lemma Uniform.not_ragged {b : Batch ν} {count expected actual : Nat} {reference odd : String}
    (h : b.Uniform count) : ¬b.Ragged reference expected odd actual := by
  intro hragged
  have hok := commonLength_eq_ok_iff.mpr h
  rw [hragged.commonLength] at hok
  cases hok

end Batch

namespace Column

/-- Places without a value and values without a place play no part in a write. -/
lemma write_take (column : Column ν) (indexes : List Nat) (values : List ν) :
    column.write (indexes.take values.length) (values.take indexes.length) =
      column.write indexes values := by
  have hzip : (indexes.take values.length).zip (values.take indexes.length) =
      indexes.zip values := by
    have hindexes : indexes.take values.length =
        indexes.take (min indexes.length values.length) := by
      rw [List.take_eq_take_min, Nat.min_comm]
    have hvalues : values.take indexes.length =
        values.take (min indexes.length values.length) := List.take_eq_take_min
    rw [hindexes, hvalues, ← List.zip_eq_zip_take_min]
  rw [write_eq_foldl, write_eq_foldl, hzip]

lemma stored_write_take {column : Column ν} {indexes : List Nat} {values : List ν}
    (hlt : ∀ i ∈ indexes.take values.length, i < column.length) :
    column.Stored (values.take indexes.length) (indexes.take values.length)
      (column.write indexes values) := by
  rw [← write_take]
  apply stored_write _ hlt
  rw [List.length_take, List.length_take, Nat.min_comm]

end Column

namespace Store

/-- An update of `count` rows that is accepted in a store with columns of a given length. -/
structure Permits (config : StoreConfig) (length : Nat) (indexes : List Nat) (b : Batch ν)
    (count : Nat) : Prop where
  uniform : b.Uniform count
  declared : ∀ key, key ∈ b.keys → key ∈ config.keys
  below : ∀ i ∈ indexes.take count, i < length

/-- The error of an update that is rejected. Each of them comes only where those before it do
not. -/
inductive Rejects (config : StoreConfig) (length : Nat) (indexes : List Nat) (b : Batch ν) :
    StoreError → Prop where
  | ragged (reference : String) (expected : Nat) (odd : String) (actual : Nat)
      (ragged : b.Ragged reference expected odd actual) :
      Rejects config length indexes b (.columnLengthMismatch reference expected odd actual)
  | undeclared (count : Nat) (key : String) (expected actual : List String)
      (uniform : b.Uniform count) (columns : Sorts expected config.keys)
      (names : Sorts actual b.keys) (named : key ∈ b.keys) (unknown : key ∉ config.keys) :
      Rejects config length indexes b (.schemaMismatch expected actual)
  | outside (count : Nat) (front back : List Nat) (index : Nat) (uniform : b.Uniform count)
      (declared : ∀ key, key ∈ b.keys → key ∈ config.keys)
      (split : indexes.take count = front ++ index :: back) (below : ∀ i ∈ front, i < length)
      (beyond : length ≤ index) :
      Rejects config length indexes b (.indexOutOfBounds index length)

/-- `s'` is `s` after the values of a batch of `count` rows went to the first `count` of some
places, in the columns that the batch names. -/
structure Amends (s : Store ν ρ) (indexes : List Nat) (b : Batch ν) (count : Nat)
    (s' : Store ν ρ) : Prop where
  config : s'.config = s.config
  layout : s'.layout = s.layout
  size : s'.size = s.size
  random : s'.random = s.random
  keys : s'.columns.keys = s.columns.keys
  unnamed : ∀ key, key ∉ b.keys → s'.columns.get? key = s.columns.get? key
  kept : ∀ key column column', s.columns.get? key = some column →
    s'.columns.get? key = some column' → ∀ i, i ∉ indexes.take count → column'[i]? = column[i]?
  written : ∀ key values column', b.get? key = some values →
    s'.columns.get? key = some column' → ∀ i r, LastAt (indexes.take count) i r →
      ∃ v, values[r]? = some v ∧ column'[i]? = some (some v)

/-- What an update makes of its store, with the reply it gives. -/
inductive Updates (s : Store ν ρ) (indexes : List Nat) (b : Batch ν) :
    Reply ν ρ (List Nat) → Prop where
  | ragged (e : StoreError) (count : b.commonLength = .error e) :
      Updates s indexes b { answer := .error e, store := s }
  | undeclared (added : Nat) (key : String) (count : b.commonLength = .ok added)
      (named : key ∈ b.keys) (unknown : key ∉ s.columns.keys) :
      Updates s indexes b
        { answer := .error (s.schemaMismatch b), store := s, log := [.unknownColumn key] }
  | outside (added index : Nat) (count : b.commonLength = .ok added)
      (declared : ∀ key, key ∈ b.keys → key ∈ s.columns.keys)
      (first : ((indexes.take added).find? fun i => s.physicalLength ≤ i) = some index) :
      Updates s indexes b
        { answer := .error (.indexOutOfBounds index s.physicalLength), store := s }
  | writes (added : Nat) (count : b.commonLength = .ok added)
      (declared : ∀ key, key ∈ b.keys → key ∈ s.columns.keys)
      (below : ∀ i ∈ indexes.take added, i < s.physicalLength) :
      Updates s indexes b
        { answer := .ok indexes, store := { s with columns := s.columns.write indexes b } }

lemma update_updates (s : Store ν ρ) (indexes : List Nat) (b : Batch ν) :
    Updates s indexes b (s.update indexes b) := by
  unfold update
  split
  · rename_i e hcount
    exact .ragged e hcount
  · rename_i added hcount
    split
    · rename_i key hfind
      have hunknown : key ∉ s.columns.keys := by
        simpa [KeyMap.contains] using List.find?_some hfind
      exact .undeclared added key hcount (List.mem_of_find?_eq_some hfind) hunknown
    · rename_i hnone
      have hdeclared : ∀ key, key ∈ b.keys → key ∈ s.columns.keys := by
        simpa [KeyMap.contains] using hnone
      split
      · rename_i index hfirst
        exact .outside added index hcount hdeclared hfirst
      · rename_i hbelow
        apply Updates.writes added hcount hdeclared
        simpa using hbelow

/-- What an update answers is what its fault, or the want of one, calls for. -/
lemma Updates.verdict {s : Store ν ρ} {indexes : List Nat} {b : Batch ν}
    {reply : Reply ν ρ (List Nat)} (h : Updates s indexes b reply) (hs : s.Valid) :
    (∀ places, reply.answer = .ok places →
        ∃ count, Permits s.config s.physicalLength indexes b count) ∧
      ∀ e, reply.answer = .error e → Rejects s.config s.physicalLength indexes b e := by
  cases h with
  | ragged e count =>
    refine ⟨nofun, fun e' he => ?_⟩
    obtain rfl := Except.error.inj he
    obtain ⟨_, _, _, _, rfl, hragged⟩ := Batch.ragged_of_commonLength count
    exact .ragged _ _ _ _ hragged
  | undeclared added key count named unknown =>
    refine ⟨nofun, fun e' he => ?_⟩
    obtain rfl := Except.error.inj he
    rw [hs.keys] at unknown
    exact .undeclared added key _ _ (Batch.commonLength_eq_ok_iff.mp count) hs.sorts_keys
      b.sorts_keys named unknown
  | outside added index count declared first =>
    refine ⟨nofun, fun e' he => ?_⟩
    obtain rfl := Except.error.inj he
    obtain ⟨hbeyond, front, back, hsplit, hfront⟩ := List.find?_eq_some_iff_append.mp first
    refine .outside added front back index (Batch.commonLength_eq_ok_iff.mp count)
      (fun key hkey => (hs.keys key).mp (declared key hkey)) hsplit ?_ (of_decide_eq_true hbeyond)
    simpa using hfront
  | writes added count declared below =>
    refine ⟨fun _ _ => ⟨added, Batch.commonLength_eq_ok_iff.mp count, ?_, below⟩, nofun⟩
    exact fun key hkey => (hs.keys key).mp (declared key hkey)

/-- An update that is accepted is not rejected. -/
lemma Permits.not_rejects {config : StoreConfig} {length count : Nat} {indexes : List Nat}
    {b : Batch ν} {e : StoreError} (h : Permits config length indexes b count) :
    ¬Rejects config length indexes b e := by
  intro hr
  cases hr with
  | ragged reference expected odd actual ragged => exact h.uniform.not_ragged ragged
  | undeclared n key expected actual uniform columns names named unknown =>
    exact unknown (h.declared key named)
  | outside n front back index uniform declared split below beyond =>
    obtain rfl := h.uniform.unique uniform
    have hlt : index < length := h.below index (by rw [split]; simp)
    omega

/-- An update is rejected for one reason only. -/
lemma Rejects.unique {config : StoreConfig} {length : Nat} {indexes : List Nat} {b : Batch ν}
    {e e' : StoreError} (h : Rejects config length indexes b e)
    (h' : Rejects config length indexes b e') : e = e' := by
  cases h with
  | ragged reference expected odd actual ragged =>
    cases h' with
    | ragged reference' expected' odd' actual' ragged' => exact ragged.unique ragged'
    | undeclared n key expected' actual' uniform => exact (uniform.not_ragged ragged).elim
    | outside n front back index uniform => exact (uniform.not_ragged ragged).elim
  | undeclared n key expected actual uniform columns names named unknown =>
    cases h' with
    | ragged reference' expected' odd' actual' ragged' => exact (uniform.not_ragged ragged').elim
    | undeclared n' key' expected' actual' uniform' columns' names' =>
      rw [columns.unique columns', names.unique names']
    | outside n' front back index uniform' declared => exact (unknown (declared key named)).elim
  | outside n front back index uniform declared split below beyond =>
    cases h' with
    | ragged reference' expected' odd' actual' ragged' => exact (uniform.not_ragged ragged').elim
    | undeclared n' key expected' actual' uniform' columns' names' named unknown =>
      exact (unknown (declared key named)).elim
    | outside n' front' back' index' uniform' declared' split' below' beyond' =>
      obtain rfl := uniform.unique uniform'
      have first {front back : List Nat} {index : Nat}
          (hsplit : indexes.take n = front ++ index :: back) (hbelow : ∀ i ∈ front, i < length)
          (hbeyond : length ≤ index) :
          ((indexes.take n).find? fun i => length ≤ i) = some index := by
        apply List.find?_eq_some_iff_append.mpr
        refine ⟨decide_eq_true hbeyond, front, back, hsplit, ?_⟩
        simpa using hbelow
      have hindex := (first split below beyond).symm.trans (first split' below' beyond')
      rw [Option.some.inj hindex]

/-- Every update that writes amends its store, slot by slot. -/
lemma amends_of_write {s : Store ν ρ} (hs : s.Valid) {indexes : List Nat} {b : Batch ν}
    {count : Nat} (hb : b.Uniform count) (hlt : ∀ i ∈ indexes.take count, i < s.physicalLength) :
    s.Amends indexes b count { s with columns := s.columns.write indexes b } where
  config := rfl
  layout := rfl
  size := rfl
  random := rfl
  keys := Columns.keys_write _ _ _
  unnamed := by
    intro key hkey
    have hnone : b.get? key = none := by simpa [KeyMap.mem_keys_iff] using hkey
    rw [Columns.write, Columns.get?_update, hnone]
    exact Option.map_id'
  kept := by
    intro key column column' hcolumn hcolumn' i hi
    rw [Columns.write, Columns.get?_update, hcolumn, Option.map_some] at hcolumn'
    obtain rfl := Option.some.inj hcolumn'
    cases hvalues : b.get? key with
    | none => rfl
    | some values =>
      obtain rfl := hb.rows key values hvalues
      rw [← hs.length key column hcolumn] at hlt
      apply Column.getElem?_eq_of_slot
      · rw [Column.length_write]
      · exact (Column.stored_write_take hlt).kept i hi
  written := by
    intro key values column' hvalues hcolumn' i r hr
    rw [Columns.write, Columns.get?_update, hvalues] at hcolumn'
    obtain ⟨column, hcolumn, rfl⟩ := Option.map_eq_some_iff.mp hcolumn'
    obtain rfl := hb.rows key values hvalues
    rw [← hs.length key column hcolumn] at hlt
    obtain ⟨hrow, -⟩ := List.getElem?_eq_some_iff.mp hr.1
    rw [List.length_take] at hrow
    have hvalue : (values.take indexes.length)[r]? = some values[r] := by
      rw [List.getElem?_take_of_lt (by omega), List.getElem?_eq_getElem]
    refine ⟨values[r], List.getElem?_eq_getElem _, Column.slot_eq_some.mp ?_⟩
    rw [(Column.stored_write_take hlt).written i r hr, hvalue]

lemma Updates.amends {s : Store ν ρ} {indexes places : List Nat} {b : Batch ν}
    {reply : Reply ν ρ (List Nat)} (h : Updates s indexes b reply) (hs : s.Valid)
    (hok : reply.answer = .ok places) :
    places = indexes ∧ ∃ count, b.Uniform count ∧ s.Amends indexes b count reply.store := by
  cases h with
  | writes added count declared below =>
    have huniform := Batch.commonLength_eq_ok_iff.mp count
    exact ⟨(Except.ok.inj hok).symm, added, huniform, amends_of_write hs huniform below⟩
  | _ => cases hok

section

variable [Random.Source ρ]

/-- Whatever happened before, an update succeeds if and only if the columns of its batch have one
length, all of them are declared, and each place that gets a value lies in the columns. Otherwise it
answers with the first of its faults, and for a place outside with the first such place. An update
that succeeds answers with all the places it was given. In the columns that the batch names each
slot holds the last value that was paired with its place. Everything else is as before. -/
theorem update_of_run {config : StoreConfig} {random : ρ} {s : Store ν ρ}
    (h : create config random = .ok s) (calls : List (Call ν)) (indexes : List Nat)
    (batch : Batch ν) :
    let t := s.run calls
    let length := config.capacity.columnLength t.size
    ((∃ places, (t.update indexes batch).answer = .ok places) ↔
        ∃ count, Permits config length indexes batch count) ∧
      (∀ e, (t.update indexes batch).answer = .error e ↔
        Rejects config length indexes batch e) ∧
      ∀ places, (t.update indexes batch).answer = .ok places →
        places = indexes ∧ ∃ count, batch.Uniform count ∧
          t.Amends indexes batch count (t.update indexes batch).store := by
  intro t length
  have hvalid : t.Valid := run_valid (create_valid h) calls
  have hconfig : t.config = config := (run_config s calls).trans (create_config h)
  have hlength : t.physicalLength = length := by rw [hvalid.physicalLength_eq, hconfig]
  have hupdates := update_updates t indexes batch
  have hverdict := hupdates.verdict hvalid
  rw [hconfig, hlength] at hverdict
  obtain ⟨hpermits, hrejects⟩ := hverdict
  refine ⟨⟨fun ⟨places, hok⟩ => hpermits places hok, fun ⟨count, hcount⟩ => ?_⟩,
    fun e => ⟨hrejects e, fun he => ?_⟩, fun places hok => hupdates.amends hvalid hok⟩
  · cases hanswer : (t.update indexes batch).answer with
    | ok places => exact ⟨places, rfl⟩
    | error e => exact (hcount.not_rejects (hrejects e hanswer)).elim
  · cases hanswer : (t.update indexes batch).answer with
    | ok places =>
      obtain ⟨count, hcount⟩ := hpermits places hanswer
      exact (hcount.not_rejects he).elim
    | error e' => rw [(hrejects e' hanswer).unique he]

/-- One column of a full store is updated at a place that comes twice, and with more places than
values: the last value stays, and the place beyond the columns does no harm. It does if it gets a
value. -/
theorem update_of_repeatedPlaces :
    (create pairConfig {} : Except StoreError (Store Nat Random.WordStream)) = .ok pairStore ∧
      ((pairStore.run pairCalls).update [2, 0, 2, 9] (.ofList [("s", [7, 8, 9])])).answer =
        .ok [2, 0, 2, 9] ∧
      (∀ column, ((pairStore.run pairCalls).update [2, 0, 2, 9]
          (.ofList [("s", [7, 8, 9])])).store.columns.get? "s" = some column →
        column[2]? = some (some 9)) ∧
      Rejects pairConfig 3 [2, 9] (.ofList [("s", [7, 8, 9])]) (.indexOutOfBounds 9 3) := by
  have h : (create pairConfig {} : Except StoreError (Store Nat Random.WordStream)) =
      .ok pairStore := rfl
  have hok : ((pairStore.run pairCalls).update [2, 0, 2, 9] (.ofList [("s", [7, 8, 9])])).answer =
      .ok [2, 0, 2, 9] := rfl
  obtain ⟨-, -, heffect⟩ := update_of_run h pairCalls [2, 0, 2, 9] (.ofList [("s", [7, 8, 9])])
  obtain ⟨-, hrejects, -⟩ := update_of_run h pairCalls [2, 9] (.ofList [("s", [7, 8, 9])])
  refine ⟨h, hok, fun column hcolumn => ?_, (hrejects _).mp rfl⟩
  obtain ⟨-, count, huniform, hamends⟩ := heffect _ hok
  obtain rfl : 3 = count := huniform.rows "s" [7, 8, 9] rfl
  have hlast : LastAt (List.take 3 [2, 0, 2, 9]) 2 2 := by
    refine ⟨rfl, fun k hk => ?_⟩
    rw [List.getElem?_eq_none hk]
    simp
  obtain ⟨v, hv, hslot⟩ := hamends.written "s" [7, 8, 9] column rfl hcolumn 2 2 hlast
  rw [hslot, ← hv]
  rfl

end

end Store

end ExperienceCollection
