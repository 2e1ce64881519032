import ExperienceCollection.Proofs.Store.Machine
import ExperienceCollection.Proofs.Store.ReadBack

/-!
# Calls without faults

As long as the capacity is a signed word, or the size of an unbounded store is a word, no check on
words ever fails, and each call does what it does with exact numbers.

Much hangs together here. A batch may add up to the capacity to a size up to the capacity, and twice
the largest signed word is still a word. The modulus of a rolling write is the capacity, which is
positive as soon as a batch overflows it. The columns are all as long as the one that places are
compared with.
-/

namespace ExperienceCollection

variable {ν ρ : Type}

/-- The sizes with which a store of this capacity can do arithmetic on words. A capacity has to be a
signed word, since a rolling write counts back from it. -/
def Capacity.InWords : Capacity → Nat → Prop
  | unbounded, size => size < 2 ^ 64
  | bounded limit, _ => limit < 2 ^ 63

/-- All columns of the batch have a length that is a word. -/
def Batch.InWords (b : Batch ν) : Prop := ∀ e ∈ b.entries, e.2.length < 2 ^ 64

/-- All places that the call names are words, and so are the lengths in its batch. -/
def Call.InWords : Call ν → Prop
  | .put batch victims => batch.InWords ∧ ∀ i ∈ victims.getD [], i < 2 ^ 64
  | .update indexes batch => batch.InWords ∧ ∀ i ∈ indexes, i < 2 ^ 64
  | .get indexes => ∀ i ∈ indexes.getD [], i < 2 ^ 64
  | .record index => index < 2 ^ 64
  | .getByKey _ | .dumps | .clear => True

instance (b : Batch ν) : Decidable b.InWords :=
  inferInstanceAs (Decidable (∀ e ∈ b.entries, e.2.length < 2 ^ 64))

instance (call : Call ν) : Decidable call.InWords :=
  match call with
  | .put _ _ => inferInstanceAs (Decidable (_ ∧ _))
  | .update _ _ => inferInstanceAs (Decidable (_ ∧ _))
  | .get indexes => inferInstanceAs (Decidable (∀ i ∈ indexes.getD [], i < 2 ^ 64))
  | .record index => inferInstanceAs (Decidable (index < 2 ^ 64))
  | .getByKey _ | .dumps | .clear => inferInstanceAs (Decidable True)

lemma Batch.InWords.count {b : Batch ν} (h : b.InWords) {added : Nat}
    (hcount : b.commonLength = .ok added) : added < 2 ^ 64 := by
  obtain ⟨rfl, -⟩ := length_of_commonLength hcount
  rw [rowCount, KeyMap.values]
  cases hentries : b.entries with
  | nil => exact Nat.two_pow_pos 64
  | cons e rest => exact h e (by simp [hentries])

namespace Store

/-- The answers to the calls of a history. -/
def answers [Random.Source ρ] (s : Store ν ρ) : List (Call ν) → List (Answer ν)
  | [] => []
  | call :: calls => (s.perform call).1 :: answers (s.after call) calls

section Reading

variable {s : Store ν ρ}

lemma Valid.bounded_inWords (hs : s.Valid) {capacity size : Nat} {policy : Policy}
    (hlayout : s.layout = .bounded capacity policy) (hsize : s.config.capacity.InWords size) :
    capacity < 2 ^ 63 ∧ s.size ≤ capacity := by
  have hl := hs.layout
  have hle := hs.size_le
  rw [hlayout] at hl
  rw [layout_bounded hl] at hsize
  rw [physicalLength, hlayout] at hle
  exact ⟨hsize, hle⟩

lemma Valid.physicalLength_lt (hs : s.Valid) (hsize : s.config.capacity.InWords s.size) :
    s.physicalLength < 2 ^ 64 := by
  rw [hs.physicalLength_eq]
  cases hcapacity : s.config.capacity with
  | unbounded =>
    rw [hcapacity] at hsize
    exact hsize
  | bounded limit =>
    rw [hcapacity] at hsize
    have hlimit : limit < 2 ^ 63 := hsize
    change limit < 2 ^ 64
    omega

lemma Valid.length_eq_columnLength (hs : s.Valid) {key : String} {column : Column ν}
    (h : s.columns.get? key = some column) : column.length = s.columnLength := by
  rw [hs.columnLength_eq (List.ne_nil_of_mem (KeyMap.mem_keys_of_get? h))]
  exact hs.length key column h

lemma Valid.columnLength_lt (hs : s.Valid) (hsize : s.physicalLength < 2 ^ 64) :
    s.columnLength < 2 ^ 64 := by
  by_cases hne : s.columns.keys = []
  · have hentries : s.columns.entries = [] := List.map_eq_nil_iff.mp hne
    rw [columnLength, KeyMap.values, hentries]
    exact Nat.two_pow_pos 64
  · rwa [hs.columnLength_eq hne]

lemma getWords_eq (hs : s.Valid) (hsize : s.physicalLength < 2 ^ 64)
    {indexes : Option (List Nat)} (hwords : ∀ i ∈ indexes.getD [], i < 2 ^ 64) :
    s.getWords (indexes.map Word.ofNats) = .ok (s.get indexes) := by
  have hlength := hs.columnLength_lt hsize
  cases indexes with
  | none => rfl
  | some indexes =>
    rw [Option.getD_some] at hwords
    rw [Option.map_some, getWords, Store.get, Word.find?_ofNats hwords hlength,
      Word.toNat_ofNat hlength]
    cases hfind : indexes.find? fun i => s.columnLength ≤ i with
    | some index =>
      have hindex := hwords index (List.mem_of_find?_eq_some hfind)
      rw [Option.map_some]
      dsimp only
      rw [Word.toNat_ofNat hindex]
    | none =>
      have hbelow : ∀ i ∈ indexes, i < s.columnLength := by simpa using hfind
      have hread (key : String) (column : Column ν) (h : s.columns.get? key = some column) :
          column.projectWords (Word.ofNats indexes) = .ok (column.project indexes) := by
        apply Column.projectWords_ofNats hwords
        intro i hi
        rw [hs.length_eq_columnLength h]
        exact hbelow i hi
      rw [Option.map_none]
      dsimp only
      rw [Columns.readWords_eq_ok hread]
      rfl

lemma recordWords_eq (hs : s.Valid) (hsize : s.physicalLength < 2 ^ 64) {index : Nat}
    (hindex : index < 2 ^ 64) : s.recordWords (.ofNat index) = .ok (s.record index) := by
  have hlength := hs.columnLength_lt hsize
  have hle := Word.ofNat_le_iff hlength hindex
  rw [recordWords, record, Word.toNat_ofNat hlength, Word.toNat_ofNat hindex]
  by_cases hbeyond : s.columnLength ≤ index
  · rw [if_pos (hle.mpr hbeyond), if_pos hbeyond]
  · have hread (key : String) (column : Column ν) (h : s.columns.get? key = some column) :
        column.readWord (.ofNat index) = .ok (column[index]?).join := by
      apply Column.readWord_ofNat hindex
      rw [hs.length_eq_columnLength h]
      omega
    rw [if_neg (mt hle.mp hbeyond), if_neg hbeyond, Columns.readWords_eq_ok hread]
    rfl

lemma updateWords_eq (hs : s.Valid) (hsize : s.physicalLength < 2 ^ 64) {indexes : List Nat}
    {b : Batch ν} (hb : b.InWords) (hwords : ∀ i ∈ indexes, i < 2 ^ 64) :
    s.updateWords (Word.ofNats indexes) b = .ok (s.update indexes b) := by
  rw [updateWords, update]
  cases hcount : b.commonLength with
  | error e => rfl
  | ok added =>
    dsimp only
    cases b.keys.find? fun key => !s.columns.contains key with
    | some key => rfl
    | none =>
      have htake : (Word.ofNats indexes).take added = Word.ofNats (indexes.take added) :=
        List.map_take.symm
      have hwords' : ∀ i ∈ indexes.take added, i < 2 ^ 64 :=
        fun i hi => hwords i (List.mem_of_mem_take hi)
      dsimp only
      rw [Word.toNat_ofNat (hb.count hcount), htake, Word.find?_ofNats hwords' hsize,
        Word.toNat_ofNat hsize]
      cases hfind : (indexes.take added).find? fun i => s.physicalLength ≤ i with
      | some index =>
        have hindex := hwords' index (List.mem_of_find?_eq_some hfind)
        rw [Option.map_some]
        dsimp only
        rw [Word.toNat_ofNat hindex]
      | none =>
        have hbelow : ∀ i ∈ indexes.take added, i < s.physicalLength := by simpa using hfind
        obtain ⟨rfl, hrows⟩ := Batch.length_of_commonLength hcount
        have hwrite : s.columns.writeWords (Word.ofNats indexes) b =
            .ok (s.columns.write indexes b) := by
          apply Columns.writeWords_ofNats hs.length hwords
          intro e he
          rwa [hrows e.1 e.2 (KeyMap.get?_eq_some_iff.mpr he)]
        rw [Option.map_none]
        dsimp only
        rw [hwrite, Word.map_toNat_ofNats hwords]
        rfl

end Reading

section Placing

variable {capacity size added : Nat}

/-- In a signed word there is room for a capacity, a size and a batch of at most this capacity, and
for the differences between them. -/
lemma rollingWords_eq (hcapacity : capacity < 2 ^ 63) (hsize : size ≤ capacity)
    (hadded : added ≤ capacity) (hover : capacity < size + added) :
    rollingWords (.ofNat capacity) (.ofNat size) (.ofNat added) =
      .ok (Word.ofNats (rollingIndexes capacity size added)) := by
  have hring : Word.Signed capacity := ⟨by omega, by omega⟩
  have hfilled : Word.Signed size := ⟨by omega, by omega⟩
  have hcount : Word.Signed added := ⟨by omega, by omega⟩
  have hfirst : Word.Signed (size - capacity) := ⟨by omega, by omega⟩
  have hlast : Word.Signed (size - capacity + added) := ⟨by omega, by omega⟩
  rw [rollingWords, Word.toSigned_ofNat hcapacity, Word.toSigned_ofNat (by omega),
    Word.toSigned_ofNat (by omega)]
  dsimp only [bind, Except.bind]
  rw [Word.subSigned_ofInt hfilled hring hfirst]
  dsimp only
  rw [Word.addSigned_ofInt hfirst hcount hlast]
  dsimp only
  rw [Word.signedRange_ofInt hfirst hlast, List.mapM_map, rollingIndexes, Word.ofNats, List.map_map]
  apply mapM_eq_ok
  intro j hj
  rw [List.mem_range] at hj
  have hstep : Word.Signed (size - capacity + j) := ⟨by omega, by omega⟩
  -- The capacity is positive, for an empty store has no batch that overflows it.
  have hpos : (0 : Int) < capacity := by omega
  have hlow := Int.emod_nonneg ((size : Int) - capacity + j) hpos.ne'
  have hhigh := Int.emod_lt_of_pos ((size : Int) - capacity + j) hpos
  obtain ⟨place, hplace⟩ := Int.eq_ofNat_of_zero_le hlow
  rw [Function.comp_apply, Function.comp_apply, Word.remainder_ofInt hstep hring hpos, hplace,
    Int.toNat_natCast]
  exact Word.place_ofInt (by omega) hcapacity

variable [Random.Source ρ] {policy : Policy} {victims : Option (List Nat)} {random : ρ}

lemma overwriteWords_eq {plan : Except StoreError (List Nat) × ρ}
    (h : Plans capacity size added policy victims random plan) (hcapacity : capacity < 2 ^ 63)
    (hsize : size ≤ capacity) (hadded : added ≤ capacity) (hover : capacity < size + added)
    (hwords : ∀ i ∈ victims.getD [], i < 2 ^ 64) :
    overwriteWords (.ofNat capacity) policy (.ofNat size) (.ofNat added)
        (.ofNat (size + added - capacity)) (victims.map Word.ofNats) random =
      .ok (plan.1.map Word.ofNats, plan.2) := by
  have hlimit : capacity < 2 ^ 64 := by omega
  have hoverflow : size + added - capacity < 2 ^ 64 := by omega
  have hfree : Word.range (.ofNat size) (.ofNat capacity) =
      Word.ofNats (List.range' size (capacity - size)) := Word.range_ofNat hsize (by omega)
  rw [overwriteWords.eq_def, hfree]
  cases h with
  | exceeds excess => omega
  | fits fit => omega
  | miscounts named bound excess given count =>
    subst given
    dsimp only [Option.map_some]
    rw [Word.length_ofNats, Word.toNat_ofNat hoverflow, if_pos count]
    rfl
  | misplaces named index bound excess given count first =>
    subst given
    rw [Option.getD_some] at hwords
    have hindex := hwords index (List.mem_of_find?_eq_some first)
    dsimp only [Option.map_some]
    rw [Word.length_ofNats, Word.toNat_ofNat hoverflow, if_neg (not_not_intro count),
      Word.find?_ofNats hwords hlimit, first, Option.map_some]
    dsimp only
    rw [Word.toNat_ofNat hindex, Word.toNat_ofNat hlimit]
    rfl
  | obeys named bound excess given count below =>
    subst given
    rw [Option.getD_some] at hwords
    have hnone : (named.find? fun i => capacity ≤ i) = none := by simpa using below
    dsimp only [Option.map_some]
    rw [Word.length_ofNats, Word.toNat_ofNat hoverflow, if_neg (not_not_intro count),
      Word.find?_ofNats hwords hlimit, hnone, Option.map_none, ← Word.ofNats_append]
    rfl
  | rolls bound excess absent hpolicy =>
    subst absent hpolicy
    dsimp only [Option.map_none]
    rw [rollingWords_eq hcapacity hsize hadded hover]
    rfl
  | draws bound excess absent hpolicy =>
    subst absent hpolicy
    have hamount : ¬UInt64.ofNat size < .ofNat (size + added - capacity) := by
      rw [Word.ofNat_lt_iff (by omega) hoverflow]
      omega
    dsimp only [Option.map_none]
    rw [sampleWords, if_neg hamount, Word.toNat_ofNat (by omega), Word.toNat_ofNat hoverflow]
    dsimp only [bind, Except.bind]
    rw [← Word.ofNats_append]
    rfl

lemma planWords_eq (hcapacity : capacity < 2 ^ 63) (hsize : size ≤ capacity)
    (hadded : added < 2 ^ 64) (hwords : ∀ i ∈ victims.getD [], i < 2 ^ 64) :
    planWords (.ofNat capacity) policy (.ofNat size) (.ofNat added) (victims.map Word.ofNats)
        random =
      .ok ((planIndexes capacity policy size added victims random).1.map Word.ofNats,
        (planIndexes capacity policy size added victims random).2) := by
  have hlimit : capacity < 2 ^ 64 := by omega
  have hplan := planIndexes_plans capacity size added policy victims random
  have hexceeds := Word.ofNat_lt_iff hlimit hadded
  rw [planWords]
  by_cases hbound : capacity < added
  · rw [if_pos (hexceeds.mpr hbound), Word.toNat_ofNat hadded, Word.toNat_ofNat hlimit,
      (Plans.exceeds hbound).eq]
    rfl
  -- Twice the largest capacity is still a word.
  · have htotal : size + added < 2 ^ 64 := by omega
    have hle := Word.ofNat_le_iff htotal hlimit
    rw [if_neg (mt hexceeds.mp hbound), Word.add_ofNat htotal]
    dsimp only [bind, Except.bind]
    by_cases hfit : size + added ≤ capacity
    · rw [if_pos (hle.mpr hfit), Word.range_ofNat (Nat.le_add_right size added) htotal,
        Nat.add_sub_cancel_left, (Plans.fits hfit).eq]
      rfl
    · rw [if_neg (mt hle.mp hfit), Word.excess_ofNat htotal (Nat.lt_of_not_le hfit)]
      exact overwriteWords_eq hplan hcapacity hsize (Nat.le_of_not_lt hbound)
        (Nat.lt_of_not_le hfit) hwords

end Placing

section Calling

variable [Random.Source ρ] {s : Store ν ρ}

lemma putWords_eq (hs : s.Valid) {b : Batch ν} {victims : Option (List Nat)} (hb : b.InWords)
    (hwords : ∀ i ∈ victims.getD [], i < 2 ^ 64)
    (hsize : s.config.capacity.InWords (s.put b victims).store.size) :
    s.putWords b (victims.map Word.ofNats) = .ok (s.put b victims) := by
  have hputs := put_puts s b victims
  generalize s.put b victims = reply at hputs hsize ⊢
  rw [putWords]
  cases hputs with
  | schema e schema => rw [schema]
  | ragged e schema count => rw [schema, count]
  | appends added schema count layout =>
    rw [layout_unbounded (layout ▸ hs.layout)] at hsize
    have htotal : s.size + added < 2 ^ 64 := hsize
    rw [schema, count]
    dsimp only
    rw [layout]
    dsimp only
    rw [Word.add_ofNat htotal]
    dsimp only [bind, Except.bind]
    rw [Word.range_ofNat (Nat.le_add_right s.size added) htotal, Nat.add_sub_cancel_left,
      Word.toNat_ofNat htotal, Word.map_toNat_ofNats]
    · rfl
    · intro i hi
      have hlt := (List.mem_range'_1.mp hi).2
      omega
  | refuses added capacity policy e schema count layout plan =>
    obtain ⟨hcapacity, hle⟩ := hs.bounded_inWords layout hsize
    rw [schema, count]
    dsimp only
    rw [layout]
    dsimp only
    rw [planWords_eq hcapacity hle (hb.count count) hwords, plan, ← layout]
    rfl
  | writes added capacity policy places random schema count layout plan =>
    obtain ⟨hcapacity, hle⟩ := hs.bounded_inWords layout hsize
    have hplaces := planIndexes_lt hle plan
    have hwide : ∀ i ∈ places, i < 2 ^ 64 := by
      intro i hi
      have hlt := hplaces i hi
      omega
    have hwrite : s.columns.writeWords (Word.ofNats places) b = .ok (s.columns.write places b) := by
      apply Columns.writeWords_ofNats hs.length hwide
      intro e he i hi
      rw [physicalLength, layout]
      exact hplaces i (List.mem_of_mem_take hi)
    have hplan := planIndexes_plans capacity s.size added policy victims s.random
    rw [plan] at hplan
    have hbound := hplan.of_ok.1
    have htotal : s.size + added < 2 ^ 64 := by omega
    rw [schema, count]
    dsimp only
    rw [layout]
    dsimp only
    rw [planWords_eq hcapacity hle (hb.count count) hwords, plan]
    dsimp only [bind, Except.bind, Except.map]
    rw [hwrite]
    dsimp only
    rw [Word.add_ofNat htotal, Word.map_toNat_ofNats hwide]
    dsimp only
    rw [Word.toNat_min_ofNat (by omega) htotal]
    rfl

theorem performWords_eq (hs : s.Valid) (hsize : s.config.capacity.InWords s.size) {call : Call ν}
    (hcall : call.InWords) (hafter : s.config.capacity.InWords (s.after call).size) :
    s.performWords call = .ok (s.perform call) := by
  have hlength := hs.physicalLength_lt hsize
  cases call with
  | put batch victims =>
    rw [performWords, putWords_eq hs hcall.1 hcall.2 hafter]
    rfl
  | update indexes batch =>
    rw [performWords, updateWords_eq hs hlength hcall.1 hcall.2]
    rfl
  | get indexes =>
    rw [performWords, getWords_eq hs hlength hcall]
    rfl
  | record index =>
    rw [performWords, recordWords_eq hs hlength hcall]
    rfl
  | _ => rfl

theorem runWords_eq (hs : s.Valid) {calls : List (Call ν)} (hcalls : ∀ call ∈ calls, call.InWords)
    (hsize : ∀ k, s.config.capacity.InWords (s.run (calls.take k)).size) :
    s.runWords calls = .ok (s.answers calls, s.run calls) := by
  induction calls generalizing s with
  | nil => rfl
  | cons call calls ih =>
    obtain ⟨hcall, hcalls⟩ := List.forall_mem_cons.mp hcalls
    have hrest : ∀ k, (s.after call).config.capacity.InWords
        ((s.after call).run (calls.take k)).size := by
      intro k
      rw [after_config]
      exact hsize (k + 1)
    have hstep := performWords_eq hs (hsize 0) hcall (hsize 1)
    have hgoes : (s.perform call).2.runWords calls =
        .ok ((s.after call).answers calls, (s.after call).run calls) :=
      ih (after_valid hs call) hcalls hrest
    rw [runWords, hstep]
    dsimp only [bind, Except.bind]
    rw [hgoes]
    rfl

/-- Whatever happened before, no check on words ever fails in a call whose places are words: not for
any capacity that is a signed word, and not for an unbounded store as long as its size is a word. So
the sum of size and batch does not overflow, the capacity is taken from it only if that leaves
something, and capacity, size and batch are the same numbers as signed words. A rolling write stays
in the signed words, divides by a positive capacity and answers with places below it. No more places
are drawn than are in use, and all that is read or written lies in its column. Each call answers as
it does with exact numbers and leaves the same store, and so does a whole history. -/
theorem faultless_of_run {config : StoreConfig} {random : ρ} {s : Store ν ρ}
    (h : create config random = .ok s) (calls : List (Call ν))
    (hsize : config.capacity.InWords (s.run calls).size) :
    let t := s.run calls
    (∀ call : Call ν, call.InWords → config.capacity.InWords (t.after call).size →
        t.performWords call = .ok (t.perform call)) ∧
      ((∀ call ∈ calls, call.InWords) →
        (∀ k, config.capacity.InWords (s.run (calls.take k)).size) →
        s.runWords calls = .ok (s.answers calls, t)) := by
  intro t
  have hvalid : t.Valid := run_valid (create_valid h) calls
  have hconfig : t.config = config := (run_config s calls).trans (create_config h)
  refine ⟨fun call hcall hafter => ?_, fun hcalls hsizes => ?_⟩
  · apply performWords_eq hvalid _ hcall
    · rwa [hconfig]
    · rwa [hconfig]
  · apply runWords_eq (create_valid h) hcalls
    rwa [create_config h]

/-- A history on three slots, and a batch that goes on at the first slot again. -/
theorem faultless_of_pairCalls :
    (create pairConfig {} : Except StoreError (Store Nat Random.WordStream)) = .ok pairStore ∧
      pairStore.runWords pairCalls = .ok (pairStore.answers pairCalls, pairStore.run pairCalls) ∧
      ∃ t, (pairStore.run pairCalls).performWords (.put (pairBatch [1, 2] [3, 4]) none) =
        .ok (.places (.ok [0, 1]), t) := by
  have h : (create pairConfig {} : Except StoreError (Store Nat Random.WordStream)) =
      .ok pairStore := rfl
  have hcapacity (size : Nat) : pairConfig.capacity.InWords size := by
    change 3 < 2 ^ 63
    decide
  have hcalls : ∀ call ∈ pairCalls, call.InWords := by decide
  obtain ⟨hnext, hrun⟩ := faultless_of_run h pairCalls (hcapacity _)
  have hput := hnext (.put (pairBatch [1, 2] [3, 4]) none) (by decide) (hcapacity _)
  exact ⟨h, hrun hcalls fun _ => hcapacity _, _, hput⟩

end Calling

end Store

end ExperienceCollection
