import ExperienceCollection.Proofs.Store.History
import Mathlib.Data.List.Induction

/-!
# Where rows come from

In a history without updates every slot in use can be traced back to one row of one put: the last
row that a put since the last `clear` sent to this place. All columns hold the values of this row,
so rows are never mixed, and no row stands in two places.

A row is named by the position of its put in the history and by its number in the batch.
-/

namespace ExperienceCollection.Store

variable {ν ρ : Type} [Random.Source ρ]

/-- The put at position `p` of a history succeeded and sent its row `r` to place `i`, and no `clear`
came after it. -/
def Assigns (s : Store ν ρ) (calls : List (Call ν)) (p r i : Nat) : Prop :=
  ∃ batch victims places, calls[p]? = some (.put batch victims) ∧
    ((s.run (calls.take p)).put batch victims).answer = .ok places ∧
    places[r]? = some i ∧ Call.clear ∉ calls.drop p

/-- Of all rows sent to place `i`, row `r` of the put at position `p` came last. -/
def LastAssigns (s : Store ν ρ) (calls : List (Call ν)) (p r i : Nat) : Prop :=
  Assigns s calls p r i ∧ ∀ q k, Assigns s calls q k i → q < p ∨ q = p ∧ k ≤ r

/-- At place `i` all columns of a store hold the values of row `r` of the put at position `p`. -/
def HoldsRow (s : Store ν ρ) (calls : List (Call ν)) (p r i : Nat) : Prop :=
  ∃ batch victims, calls[p]? = some (.put batch victims) ∧
    ∀ key column, s.columns.get? key = some column →
      ∃ values v, batch.get? key = some values ∧ values[r]? = some v ∧ column[i]? = some (some v)

/-- Each slot in use holds the row that was sent to it last, and all other slots are empty. -/
structure Traced (s : Store ν ρ) (calls : List (Call ν)) : Prop where
  row : ∀ i, i < (s.run calls).size →
    ∃ p r, LastAssigns s calls p r i ∧ HoldsRow (s.run calls) calls p r i
  free : ∀ key column, (s.run calls).columns.get? key = some column →
    ∀ i, (s.run calls).size ≤ i → column.slot i = none

lemma Assigns.lt_length {s : Store ν ρ} {calls : List (Call ν)} {p r i : Nat}
    (h : Assigns s calls p r i) : p < calls.length := by
  obtain ⟨_, _, _, hp, _⟩ := h
  exact (List.getElem?_eq_some_iff.mp hp).1

/-- A row is sent to one place only. -/
lemma Assigns.place_unique {s : Store ν ρ} {calls : List (Call ν)} {p r i j : Nat}
    (hi : Assigns s calls p r i) (hj : Assigns s calls p r j) : i = j := by
  obtain ⟨batch, victims, places, hp, ha, hr, -⟩ := hi
  obtain ⟨batch', victims', places', hp', ha', hr', -⟩ := hj
  have hcall : Call.put batch victims = Call.put batch' victims' :=
    Option.some.inj (hp.symm.trans hp')
  simp only [Call.put.injEq] at hcall
  obtain ⟨rfl, rfl⟩ := hcall
  have hplaces : places = places' := Except.ok.inj (ha.symm.trans ha')
  subst hplaces
  exact Option.some.inj (hr.symm.trans hr')

/-- Rows sent before the last call are forgotten if it is a `clear`; a put that succeeds as the
last call sends its own rows. -/
lemma assigns_concat {s : Store ν ρ} {calls : List (Call ν)} {call : Call ν} {p r i : Nat} :
    Assigns s (calls ++ [call]) p r i ↔
      (call ≠ .clear ∧ Assigns s calls p r i) ∨
        (p = calls.length ∧ ∃ batch victims places, call = .put batch victims ∧
          ((s.run calls).put batch victims).answer = .ok places ∧ places[r]? = some i) := by
  constructor
  · intro h
    have hlt := h.lt_length
    obtain ⟨batch, victims, places, hp, ha, hr, hc⟩ := h
    rw [List.length_append, List.length_singleton] at hlt
    by_cases hpl : p = calls.length
    · subst hpl
      rw [List.getElem?_concat_length] at hp
      rw [List.take_left] at ha
      exact .inr ⟨rfl, batch, victims, places, Option.some.inj hp, ha, hr⟩
    · have hle : p < calls.length := by omega
      rw [List.getElem?_append_left hle] at hp
      rw [List.take_append_of_le_length hle.le] at ha
      rw [List.drop_append_of_le_length hle.le] at hc
      refine .inl ⟨?_, batch, victims, places, hp, ha, hr, ?_⟩
      · rintro rfl
        simp at hc
      · intro hm
        exact hc (List.mem_append_left _ hm)
  · rintro (⟨hcall, h⟩ | ⟨rfl, batch, victims, places, rfl, ha, hr⟩)
    · have hlt := h.lt_length
      obtain ⟨batch, victims, places, hp, ha, hr, hc⟩ := h
      refine ⟨batch, victims, places, ?_, ?_, hr, ?_⟩
      · rwa [List.getElem?_append_left hlt]
      · rwa [List.take_append_of_le_length hlt.le]
      · rw [List.drop_append_of_le_length hlt.le]
        intro hm
        rcases List.mem_append.mp hm with hm | hm
        · exact hc hm
        · exact hcall (List.mem_singleton.mp hm).symm
    · refine ⟨batch, victims, places, List.getElem?_concat_length, ?_, hr, ?_⟩
      · rwa [List.take_left]
      · rw [List.drop_left]
        simp

/-- Calls that neither change the store nor send rows. -/
lemma Traced.concat_of_unchanged {s : Store ν ρ} {calls : List (Call ν)} {call : Call ν}
    (h : Traced s calls) (hcall : call ≠ .clear) (hstore : (s.run calls).after call = s.run calls)
    (hput : ∀ batch victims places, call = .put batch victims →
      ((s.run calls).put batch victims).answer ≠ .ok places) :
    Traced s (calls ++ [call]) := by
  have hrun : s.run (calls ++ [call]) = s.run calls := by rw [run_concat, hstore]
  have hassigns {p r i : Nat} : Assigns s (calls ++ [call]) p r i ↔ Assigns s calls p r i := by
    rw [assigns_concat]
    constructor
    · rintro (⟨-, ha⟩ | ⟨-, batch, victims, places, he, ha, -⟩)
      · exact ha
      · exact (hput batch victims places he ha).elim
    · exact fun ha => .inl ⟨hcall, ha⟩
  refine ⟨?_, ?_⟩
  · intro i hi
    rw [hrun] at hi
    obtain ⟨p, r, ⟨ha, hlast⟩, batch, victims, hp, hrow⟩ := h.row i hi
    refine ⟨p, r, ⟨hassigns.mpr ha, fun q k hq => hlast q k (hassigns.mp hq)⟩,
      batch, victims, ?_, hrun ▸ hrow⟩
    rwa [List.getElem?_append_left ha.lt_length]
  · rw [hrun]
    exact h.free

lemma traced_concat_clear (s : Store ν ρ) (calls : List (Call ν)) :
    Traced s (calls ++ [.clear]) := by
  have hrun : s.run (calls ++ [.clear]) = (s.run calls).clear := run_concat s calls .clear
  refine ⟨?_, ?_⟩
  · intro i hi
    rw [hrun] at hi
    exact (Nat.not_lt_zero i hi).elim
  · intro key column hcolumn i _
    rw [hrun] at hcolumn
    exact StoreConfig.slot_emptyColumns (c := (s.run calls).config) hcolumn i

/-- The last row that a put sends to a place is the last one sent there at all. -/
lemma lastAssigns_put {s : Store ν ρ} {calls : List (Call ν)} {batch : Batch ν}
    {victims : Option (List Nat)} {places : List Nat} {r i : Nat}
    (hok : ((s.run calls).put batch victims).answer = .ok places) (hr : LastAt places i r) :
    LastAssigns s (calls ++ [.put batch victims]) calls.length r i := by
  refine ⟨assigns_concat.mpr (.inr ⟨rfl, batch, victims, places, rfl, hok, hr.1⟩), ?_⟩
  intro q k hq
  rcases assigns_concat.mp hq with ⟨-, ha⟩ | ⟨rfl, batch', victims', places', he, ha, hk⟩
  · exact .inl ha.lt_length
  · simp only [Call.put.injEq] at he
    obtain ⟨rfl, rfl⟩ := he
    obtain rfl : places = places' := Except.ok.inj (hok.symm.trans ha)
    refine .inr ⟨rfl, ?_⟩
    by_contra hlt
    exact hr.2 k (Nat.not_le.mp hlt) hk

lemma LastAssigns.concat_put {s : Store ν ρ} {calls : List (Call ν)} {batch : Batch ν}
    {victims : Option (List Nat)} {places : List Nat} {p r i : Nat} (h : LastAssigns s calls p r i)
    (hok : ((s.run calls).put batch victims).answer = .ok places) (hi : i ∉ places) :
    LastAssigns s (calls ++ [.put batch victims]) p r i := by
  refine ⟨assigns_concat.mpr (.inl ⟨by simp, h.1⟩), ?_⟩
  intro q k hq
  rcases assigns_concat.mp hq with ⟨-, hq⟩ | ⟨rfl, batch', victims', places', he, ha, hk⟩
  · exact h.2 q k hq
  · simp only [Call.put.injEq] at he
    obtain ⟨rfl, rfl⟩ := he
    obtain rfl : places = places' := Except.ok.inj (hok.symm.trans ha)
    exact (hi (List.mem_of_getElem? hk)).elim

omit [Random.Source ρ] in
/-- A place that is written holds the last row sent there. -/
lemma Stored.holdsRow {s s' : Store ν ρ} {batch : Batch ν} {places : List Nat}
    (h : s.Stored batch places s') (calls : List (Call ν)) (victims : Option (List Nat)) {r i : Nat}
    (hr : LastAt places i r) :
    HoldsRow s' (calls ++ [.put batch victims]) calls.length r i := by
  refine ⟨batch, victims, List.getElem?_concat_length, ?_⟩
  intro key column' hcolumn'
  obtain ⟨column, values, -, hvalues, -, hslots⟩ := h.column key column' hcolumn'
  have hrl : r < values.length := by
    rw [h.rows key values hvalues, ← h.placement.length]
    exact (List.getElem?_eq_some_iff.mp hr.1).1
  have hv : values[r]? = some values[r] := List.getElem?_eq_getElem hrl
  refine ⟨values, values[r], hvalues, hv, Column.slot_eq_some.mp ?_⟩
  rw [hslots.written i r hr, hv]

omit [Random.Source ρ] in
/-- A place that is not written keeps its row. -/
lemma HoldsRow.concat_put {s s' : Store ν ρ} {calls : List (Call ν)} {batch : Batch ν}
    {places : List Nat} {p r i : Nat} (h : HoldsRow s calls p r i)
    (hst : s.Stored batch places s') (call : Call ν) (hi : i ∉ places) :
    HoldsRow s' (calls ++ [call]) p r i := by
  obtain ⟨batch', victims', hcall, hrow⟩ := h
  have hp : p < calls.length := (List.getElem?_eq_some_iff.mp hcall).1
  refine ⟨batch', victims', by rwa [List.getElem?_append_left hp], ?_⟩
  intro key column' hcolumn'
  obtain ⟨column, _, hcolumn, -, -, hslots⟩ := hst.column key column' hcolumn'
  obtain ⟨values, v, hvalues, hv, hslot⟩ := hrow key column hcolumn
  refine ⟨values, v, hvalues, hv, Column.slot_eq_some.mp ?_⟩
  rw [hslots.kept i hi]
  exact Column.slot_eq_some.mpr hslot

/-- A put that succeeds takes over the places of its rows and leaves the other slots alone. -/
lemma Traced.concat_put {s : Store ν ρ} (hs : s.Valid) {calls : List (Call ν)} {batch : Batch ν}
    {victims : Option (List Nat)} {places : List Nat} (h : Traced s calls)
    (hok : ((s.run calls).put batch victims).answer = .ok places) :
    Traced s (calls ++ [.put batch victims]) := by
  have hst := put_stored (run_valid hs calls) hok
  have hrun : s.run (calls ++ [.put batch victims]) = ((s.run calls).put batch victims).store :=
    run_concat s calls _
  rw [← hrun] at hst
  refine ⟨?_, ?_⟩
  · intro i hi
    by_cases hp : i ∈ places
    · obtain ⟨r, hr⟩ := exists_lastAt hp
      exact ⟨calls.length, r, lastAssigns_put hok hr, hst.holdsRow calls victims hr⟩
    · -- A slot that comes into use is written, so this one was in use before.
      have hlt : i < (s.run calls).size := by
        by_contra hge
        exact hp (hst.placement.covers i (Nat.not_lt.mp hge) hi)
      obtain ⟨p, r, hlast, hrow⟩ := h.row i hlt
      exact ⟨p, r, hlast.concat_put hok hp, hrow.concat_put hst _ hp⟩
  · intro key column' hcolumn' i hi
    obtain ⟨column, _, hcolumn, -, -, hslots⟩ := hst.column key column' hcolumn'
    have hp : i ∉ places := fun hm => Nat.not_lt.mpr hi (hst.placement.below i hm)
    have hle : (s.run calls).size ≤ i := (hst.size_le (run_valid hs calls)).trans hi
    rw [hslots.kept i hp]
    exact h.free key column hcolumn i hle

theorem traced_of_run {s : Store ν ρ} (hs : s.Valid) (hzero : s.size = 0)
    (hfree : ∀ key column, s.columns.get? key = some column → ∀ i, column.slot i = none)
    (calls : List (Call ν)) (hu : ∀ indexes batch, Call.update indexes batch ∉ calls) :
    Traced s calls := by
  induction calls using List.reverseRecOn with
  | nil =>
    refine ⟨?_, ?_⟩
    · intro i hi
      rw [run_nil, hzero] at hi
      exact (Nat.not_lt_zero i hi).elim
    · exact fun key column hcolumn i _ => hfree key column hcolumn i
  | append_singleton calls call ih =>
    have hcalls := ih fun indexes batch hm => hu indexes batch (List.mem_append_left _ hm)
    cases call with
    | put batch victims =>
      cases h : ((s.run calls).put batch victims).answer with
      | ok places => exact hcalls.concat_put hs h
      | error e =>
        refine hcalls.concat_of_unchanged (by simp) (put_error h) ?_
        intro batch' victims' places he
        simp only [Call.put.injEq] at he
        obtain ⟨rfl, rfl⟩ := he
        simp [h]
    | update indexes batch => exact (hu indexes batch (by simp)).elim
    | clear => exact traced_concat_clear s calls
    | _ => exact hcalls.concat_of_unchanged (by simp) rfl (by simp)

/-- In every history without updates each live place holds, in all columns at once, one supplied
row: the last one that a put since the last `clear` sent there. Different live places hold
different rows, and the slots from the size on are empty. -/
theorem rows_of_run {config : StoreConfig} {random : ρ} {s : Store ν ρ}
    (h : create config random = .ok s) (calls : List (Call ν))
    (hu : ∀ indexes batch, Call.update indexes batch ∉ calls) :
    ∃ origin : Nat → Nat × Nat,
      (∀ i, i < (s.run calls).size →
        LastAssigns s calls (origin i).1 (origin i).2 i ∧
          HoldsRow (s.run calls) calls (origin i).1 (origin i).2 i) ∧
      (∀ i j, i < (s.run calls).size → j < (s.run calls).size → origin i = origin j → i = j) ∧
      ∀ key column, (s.run calls).columns.get? key = some column →
        ∀ i, (s.run calls).size ≤ i → column.slot i = none := by
  have ht : Traced s calls :=
    traced_of_run (create_valid h) (create_size h) (create_free h) calls hu
  choose p r hrow using ht.row
  refine ⟨fun i => if hi : i < (s.run calls).size then (p i hi, r i hi) else (0, 0), ?_, ?_,
    ht.free⟩
  · intro i hi
    simpa [hi] using hrow i hi
  · intro i j hi hj he
    simp only [hi, hj, dite_true, Prod.mk.injEq] at he
    have hai := (hrow i hi).1.1
    have haj := (hrow j hj).1.1
    rw [← he.1, ← he.2] at haj
    exact hai.place_unique haj

/-- A put whose victims repeat a place in the free slots. -/
def repeatedVictims : List (Call Nat) :=
  [.put (pairBatch [1, 2] [3, 4]) none, .put (pairBatch [5] [6, 7]) none,
    .put (pairBatch [7, 8, 9] [10, 11, 12]) (some [2, 2])]

theorem rows_of_repeatedVictims :
    (create pairConfig {} : Except StoreError (Store Nat Random.WordStream)) = .ok pairStore ∧
      (∀ indexes batch, Call.update indexes batch ∉ repeatedVictims) ∧
      ∃ origin : Nat → Nat × Nat,
        (∀ i, i < 3 →
          LastAssigns pairStore repeatedVictims (origin i).1 (origin i).2 i ∧
            HoldsRow (pairStore.run repeatedVictims) repeatedVictims (origin i).1 (origin i).2 i) ∧
        ∀ i j, i < 3 → j < 3 → origin i = origin j → i = j := by
  have h : (create pairConfig {} : Except StoreError (Store Nat Random.WordStream)) =
      .ok pairStore := rfl
  have hu : ∀ indexes batch, Call.update indexes batch ∉ repeatedVictims := by
    simp [repeatedVictims]
  have hsize : (pairStore.run repeatedVictims).size = 3 := rfl
  obtain ⟨origin, hrow, hdistinct, -⟩ := rows_of_run h repeatedVictims hu
  rw [hsize] at hrow hdistinct
  exact ⟨h, hu, origin, hrow, hdistinct⟩

end ExperienceCollection.Store
