import ExperienceCollection.Proofs.Store.ReadBack
import ExperienceCollection.Proofs.Store.Verdict

/-!
# What an overflowing put overwrites

A batch that overflows a bounded store fills the free slots and then goes on where the policy says,
just as if the caller had named the victims: under the rolling policy the oldest places from zero
on, and under the random policy the sample that the store draws. A sample has no place twice and
none that is free, so each overflowing row replaces an item of its own.
-/

namespace ExperienceCollection.Store

variable {ν ρ : Type}

/-- Counting on from a negative place leads through the free slots and then from zero on. -/
theorem rollingIndexes_eq {capacity size added : Nat} (hs : size ≤ capacity)
    (ha : added ≤ capacity) (ho : capacity < size + added) :
    rollingIndexes capacity size added =
      List.range' size (capacity - size) ++ List.range (size + added - capacity) := by
  apply List.ext_getElem
  · simp only [rollingIndexes, List.length_map, List.length_range, List.length_append,
      List.length_range']
    omega
  · intro j hj _
    have hlt : j < added := by simpa [rollingIndexes] using hj
    simp only [rollingIndexes, List.getElem_map, List.getElem_range]
    by_cases hfree : j < capacity - size
    · -- The place is negative; one turn brings it to the free slots.
      have hwrap : ((size : Int) - capacity + j) % capacity = size + j := by
        rw [← Int.add_emod_right, Int.emod_eq_of_lt (by omega) (by omega)]
        omega
      rw [List.getElem_append_left (by simpa using hfree), List.getElem_range', hwrap]
      omega
    · have hplace : ((size : Int) - capacity + j) % capacity = (size : Int) - capacity + j :=
        Int.emod_eq_of_lt (by omega) (by omega)
      rw [List.getElem_append_right (by simpa using hfree), List.getElem_range,
        List.length_range', hplace]
      omega

/-- Of the numbers below `n`, as many stand in a list of different ones as the list has. -/
lemma length_filter_mem {n : Nat} {victims : List Nat} (hn : victims.Nodup)
    (hlt : ∀ i ∈ victims, i < n) :
    ((List.range n).filter (· ∈ victims)).length = victims.length := by
  apply List.Perm.length_eq
  rw [List.perm_ext_iff_of_nodup (List.nodup_range.filter _) hn]
  intro i
  rw [List.mem_filter, List.mem_range, decide_eq_true_iff]
  exact ⟨fun h => h.2, fun h => ⟨hlt i h, h⟩⟩

lemma layout_eq_bounded {c : StoreConfig} {layout : Layout} {capacity : Nat} {policy : Policy}
    (h : c.layout = .ok layout) (hcapacity : c.capacity = .bounded capacity)
    (hpolicy : c.policy = some policy) : layout = .bounded capacity policy := by
  rw [StoreConfig.layout, hcapacity, hpolicy] at h
  exact (Except.ok.inj h).symm

variable [Random.Source ρ]

/-- A batch of `added` rows has the right form and is not too large, but it overflows the store. -/
structure Overflows (t : Store ν ρ) (capacity : Nat) (policy : Policy) (b : Batch ν)
    (added : Nat) : Prop where
  valid : t.Valid
  names : t.config.keys ≠ []
  layout : t.layout = .bounded capacity policy
  conforms : b.Conforms t.config.keys added
  bound : added ≤ capacity
  excess : capacity < t.size + added

section

variable {t : Store ν ρ} {capacity added : Nat} {policy : Policy} {b : Batch ν}

omit [Random.Source ρ] in
lemma Overflows.size_le (h : t.Overflows capacity policy b added) : t.size ≤ capacity := by
  have hle := h.valid.size_le
  rwa [physicalLength, h.layout] at hle

lemma overflows_of_run {config : StoreConfig} {random : ρ} {s : Store ν ρ}
    (h : create config random = .ok s) (calls : List (Call ν))
    (hcapacity : config.capacity = .bounded capacity) (hpolicy : config.policy = some policy)
    (hbatch : b.Conforms config.keys added) (hadded : added ≤ capacity)
    (hover : capacity < (s.run calls).size + added) :
    (s.run calls).Overflows capacity policy b added := by
  have hvalid : (s.run calls).Valid := run_valid (create_valid h) calls
  have hconfig : (s.run calls).config = config := (run_config s calls).trans (create_config h)
  have hlayout := hvalid.layout
  rw [hconfig] at hlayout
  exact ⟨hvalid, hconfig ▸ create_keys_ne h, layout_eq_bounded hlayout hcapacity hpolicy,
    hconfig ▸ hbatch, hadded, hover⟩

/-- Victims that the caller names are written after the free slots, and nothing is drawn. -/
lemma Overflows.put_named (h : t.Overflows capacity policy b added) {vs : List Nat}
    (hcount : vs.length = t.size + added - capacity) (hlt : ∀ i ∈ vs, i < capacity) :
    t.put b (some vs) =
      { answer := .ok (List.range' t.size (capacity - t.size) ++ vs)
        store :=
          { t with
            columns := t.columns.write (List.range' t.size (capacity - t.size) ++ vs) b
            size := min capacity (t.size + added) } } :=
  put_of_plan h.valid h.names h.conforms h.layout (.obeys vs h.bound h.excess rfl hcount hlt)

/-- A rolling put overwrites the places from zero on. -/
lemma Overflows.put_rolling (h : t.Overflows capacity .rolling b added) :
    t.put b none = t.put b (some (List.range (t.size + added - capacity))) := by
  have hlt : ∀ i ∈ List.range (t.size + added - capacity), i < capacity := by
    intro i hi
    have hi := List.mem_range.mp hi
    have hle := h.size_le
    have hbound := h.bound
    omega
  have hplan : Plans capacity t.size added .rolling none t.random _ :=
    .rolls h.bound h.excess rfl rfl
  have hroll := put_of_plan h.valid h.names h.conforms h.layout hplan
  rw [h.put_named List.length_range hlt, hroll, rollingIndexes_eq h.size_le h.bound h.excess]

/-- A random put overwrites the sample that it draws. -/
lemma Overflows.put_random (h : t.Overflows capacity .random b added) :
    t.put b none =
      { answer := .ok (List.range' t.size (capacity - t.size) ++
          (Random.sample t.size (t.size + added - capacity) t.random).1)
        store :=
          { t with
            columns := t.columns.write (List.range' t.size (capacity - t.size) ++
              (Random.sample t.size (t.size + added - capacity) t.random).1) b
            size := min capacity (t.size + added)
            random := (Random.sample t.size (t.size + added - capacity) t.random).2 } } :=
  put_of_plan h.valid h.names h.conforms h.layout (.draws h.bound h.excess rfl rfl)

omit [Random.Source ρ] in
/-- No more items are overwritten than there are: a batch never exceeds the capacity. -/
lemma Overflows.overflow_le (h : t.Overflows capacity policy b added) :
    t.size + added - capacity ≤ t.size := by
  have hbound := h.bound
  omega

end

/-- Overwriting by policy is a special case of overwriting by name. When a batch of the right form
overflows a bounded store, a rolling put writes the free slots and then the places from zero on, and
does all that a put does that names these. A random put does all that a put does that names the
sample it draws, except for drawing it. -/
theorem overwriting_of_run {config : StoreConfig} {random : ρ} {s : Store ν ρ}
    (h : create config random = .ok s) (calls : List (Call ν)) {capacity added : Nat}
    {batch : Batch ν} (hcapacity : config.capacity = .bounded capacity)
    (hbatch : batch.Conforms config.keys added) (hadded : added ≤ capacity)
    (hover : capacity < (s.run calls).size + added) :
    let t := s.run calls
    let overflow := t.size + added - capacity
    let free := List.range' t.size (capacity - t.size)
    (config.policy = some .rolling →
        rollingIndexes capacity t.size added = free ++ List.range overflow ∧
        (t.put batch none).answer = .ok (free ++ List.range overflow) ∧
        t.put batch none = t.put batch (some (List.range overflow))) ∧
      (config.policy = some .random →
        let picked := Random.sample t.size overflow t.random
        (t.put batch none).answer = .ok (free ++ picked.1) ∧
        (t.put batch none).store.random = picked.2 ∧
        (t.put batch none).answer = (t.put batch (some picked.1)).answer ∧
        (t.put batch none).store =
          { (t.put batch (some picked.1)).store with random := picked.2 }) := by
  intro t overflow free
  refine ⟨fun hpolicy => ?_, fun hpolicy => ?_⟩
  · have ht := overflows_of_run h calls hcapacity hpolicy hbatch hadded hover
    have hroll := rollingIndexes_eq ht.size_le hadded hover
    refine ⟨hroll, ?_, ht.put_rolling⟩
    rw [put_of_plan ht.valid ht.names ht.conforms ht.layout (.rolls hadded hover rfl rfl), hroll]
  · have ht := overflows_of_run h calls hcapacity hpolicy hbatch hadded hover
    intro picked
    have hsample := Random.isSample_sample ht.overflow_le t.random
    have hlt : ∀ i ∈ picked.1, i < capacity := fun i hi =>
      (hsample.lt i hi).trans_le ht.size_le
    rw [ht.put_named hsample.length_eq hlt, ht.put_random]
    exact ⟨rfl, rfl, rfl, rfl⟩

lemma pairBatch_conforms {xs ys : List Nat} (h : ys.length = xs.length) :
    (pairBatch xs ys).Conforms ["s", "a"] xs.length := by
  have hlt : "a" < "s" := by decide
  have hentries : (pairBatch xs ys).entries = [("a", ys), ("s", xs)] := by
    simp [pairBatch, KeyMap.ofList, KeyMap.insert, KeyMap.empty, KeyMap.place, hlt]
  refine ⟨fun key => ?_, fun key values hvalues => ?_⟩
  · rw [KeyMap.keys, hentries]
    simp [or_comm]
  · rw [KeyMap.get?_eq_some_iff, hentries] at hvalues
    rcases List.mem_pair.mp hvalues with heq | heq
    · rw [(Prod.mk.inj heq).2, h]
    · rw [(Prod.mk.inj heq).2]

/-- Two rows are put to stores of three. In a full one a rolling put overwrites places 0 and 1, and
a random one places 0 and 2. With two items the last slot is free, so it comes first, and only one
item is overwritten. -/
theorem overwriting_of_smallStores :
    (create pairConfig {} : Except StoreError (Store Nat Random.WordStream)) = .ok pairStore ∧
      ((pairStore.run pairCalls).put (pairBatch [7, 8] [9, 10]) none).answer = .ok [0, 1] ∧
      (pairStore.run pairCalls).put (pairBatch [7, 8] [9, 10]) none =
        (pairStore.run pairCalls).put (pairBatch [7, 8] [9, 10]) (some [0, 1]) ∧
      (pairStore.run (pairCalls.take 5)).size = 2 ∧ rollingIndexes 3 2 2 = [2, 0] ∧
      ((pairStore.run (pairCalls.take 5)).put (pairBatch [7, 8] [9, 10]) none).answer =
        .ok [2, 0] ∧
      (pairStore.run (pairCalls.take 5)).put (pairBatch [7, 8] [9, 10]) none =
        (pairStore.run (pairCalls.take 5)).put (pairBatch [7, 8] [9, 10]) (some [0]) ∧
      (create lotteryConfig {} : Except StoreError (Store Nat Random.WordStream)) =
        .ok lotteryStore ∧
      ((lotteryStore.run lotteryCalls).put (pairBatch [7, 8] [9, 10]) none).answer =
        ((lotteryStore.run lotteryCalls).put (pairBatch [7, 8] [9, 10]) (some [0, 2])).answer ∧
      (lotteryStore.run (lotteryCalls.take 1)).size = 2 ∧
      ((lotteryStore.run (lotteryCalls.take 1)).put (pairBatch [7, 8] [9, 10]) none).answer =
        .ok [2, 0] ∧
      ((lotteryStore.run (lotteryCalls.take 1)).put (pairBatch [7, 8] [9, 10]) none).answer =
        ((lotteryStore.run (lotteryCalls.take 1)).put (pairBatch [7, 8] [9, 10])
          (some [0])).answer := by
  have h : (create pairConfig {} : Except StoreError (Store Nat Random.WordStream)) =
      .ok pairStore := rfl
  have hlottery : (create lotteryConfig {} : Except StoreError (Store Nat Random.WordStream)) =
      .ok lotteryStore := rfl
  have hbatch : (pairBatch [7, 8] [9, 10]).Conforms ["s", "a"] 2 := pairBatch_conforms rfl
  have hvictim : (Random.sample 2 1 ({} : Random.WordStream)).1 = [0] :=
    congrArg Prod.fst (Random.sample_of_sample? single_sample)
  obtain ⟨hrolling, -⟩ := overwriting_of_run h pairCalls rfl hbatch (by decide) (by decide)
  obtain ⟨hwrapping, -⟩ :=
    overwriting_of_run h (pairCalls.take 5) rfl hbatch (by decide) (by decide)
  obtain ⟨-, hrandom⟩ :=
    overwriting_of_run hlottery lotteryCalls rfl hbatch (by decide) (by decide)
  obtain ⟨-, hdrawing⟩ :=
    overwriting_of_run hlottery (lotteryCalls.take 1) rfl hbatch (by decide) (by decide)
  obtain ⟨-, hanswer, hput⟩ := hrolling rfl
  obtain ⟨hwrap, hwrapped, hputWrapped⟩ := hwrapping rfl
  obtain ⟨-, -, hsame, -⟩ := hrandom rfl
  obtain ⟨hdrawn, -, hsameDrawn, -⟩ := hdrawing rfl
  refine ⟨h, hanswer, hput, rfl, hwrap, hwrapped, hputWrapped, hlottery, ?_, rfl, ?_, ?_⟩
  · rw [← next_victims]
    exact hsame
  · exact hdrawn.trans (congrArg (fun victims => Except.ok (2 :: victims)) hvictim)
  · rw [← hvictim]
    exact hsameDrawn

/-- When a batch of the right form overflows a bounded random store, the store asks for a sample of
no more numbers than it has items, and gets the one that is drawn. The sample holds as many
different places as overflow, all of them in use. The places written are the free slots in order and
then the sample: none repeats, as many items are replaced as overflow, each by a row of its own, and
all other items stay. -/
theorem eviction_of_run {config : StoreConfig} {random : ρ} {s : Store ν ρ}
    (h : create config random = .ok s) (calls : List (Call ν)) {capacity added : Nat}
    {batch : Batch ν} (hcapacity : config.capacity = .bounded capacity)
    (hpolicy : config.policy = some .random) (hbatch : batch.Conforms config.keys added)
    (hadded : added ≤ capacity) (hover : capacity < (s.run calls).size + added) :
    let t := s.run calls
    let overflow := t.size + added - capacity
    let picked := Random.sample t.size overflow t.random
    let places := List.range' t.size (capacity - t.size) ++ picked.1
    let t' := (t.put batch none).store
    overflow ≤ t.size ∧
      (∀ drawn, Random.sample? t.size overflow t.random = some drawn → picked = drawn) ∧
      (t.put batch none).answer = .ok places ∧ t'.random = picked.2 ∧
      picked.1.length = overflow ∧ picked.1.Nodup ∧ (∀ i ∈ picked.1, i < t.size) ∧ places.Nodup ∧
      ((List.range t.size).filter (· ∈ places)).length = overflow ∧
      ∀ key column', t'.columns.get? key = some column' →
        ∃ column values, t.columns.get? key = some column ∧ batch.get? key = some values ∧
          (∀ r i : Nat, places[r]? = some i →
            ∃ v, values[r]? = some v ∧ column'[i]? = some (some v)) ∧
          ∀ i, i < t.size → i ∉ picked.1 → column'[i]? = column[i]? := by
  intro t overflow picked places t'
  have ht := overflows_of_run h calls hcapacity hpolicy hbatch hadded hover
  have hle : overflow ≤ t.size := ht.overflow_le
  obtain ⟨hcount, hnodup, hlt⟩ := Random.isSample_sample hle t.random
  have hplaces : places.Nodup := free_append_nodup hnodup hlt
  have hput := ht.put_random
  have hanswer : (t.put batch none).answer = .ok places := congrArg Reply.answer hput
  have hst : t.Stored batch places t' := put_stored ht.valid hanswer
  -- Below the old size the free slots play no part.
  have hlive {i : Nat} (hi : i < t.size) : i ∈ places ↔ i ∈ picked.1 := by
    refine ⟨fun hmem => ?_, List.mem_append_right _⟩
    rcases List.mem_append.mp hmem with hfree | hmem
    · exact absurd hi (List.mem_range'_1.mp hfree).1.not_gt
    · exact hmem
  refine ⟨hle, fun _ => Random.sample_of_sample?, hanswer,
    congrArg (fun reply => reply.store.random) hput, hcount, hnodup, hlt, hplaces, ?_, ?_⟩
  · have hsame : (List.range t.size).filter (· ∈ places) =
        (List.range t.size).filter (· ∈ picked.1) :=
      List.filter_congr fun i hi => decide_eq_decide.mpr (hlive (List.mem_range.mp hi))
    rw [hsame, length_filter_mem hnodup hlt, hcount]
  · intro key column' hcolumn'
    obtain ⟨column, values, hcolumn, hvalues, hlen', hslots⟩ := hst.column key column' hcolumn'
    refine ⟨column, values, hcolumn, hvalues, fun r i hr => ?_, fun i hi hnot => ?_⟩
    · have hrow : r < values.length := by
        rw [hst.rows key values hvalues, ← hst.placement.length]
        exact (List.getElem?_eq_some_iff.mp hr).1
      have hv : values[r]? = some values[r] := List.getElem?_eq_getElem hrow
      refine ⟨values[r], hv, Column.slot_eq_some.mp ?_⟩
      rw [hslots.written i r (lastAt_of_nodup hplaces hr), hv]
    · have hlen := ht.valid.length key column hcolumn
      exact hst.getElem?_kept ht.valid hlen hlen' hslots fun hmem => hnot ((hlive hi).mp hmem)

/-- A store of three with two items takes three rows: one fills the free slot, and the other two
replace the items. -/
theorem eviction_of_lotteryCalls :
    (create lotteryConfig {} : Except StoreError (Store Nat Random.WordStream)) =
        .ok lotteryStore ∧
      (lotteryStore.run (lotteryCalls.take 1)).size = 2 ∧
      ((lotteryStore.run (lotteryCalls.take 1)).put (pairBatch [5, 6, 7] [8, 9, 10]) none).answer =
        .ok (2 :: (Random.sample 2 2 ({} : Random.WordStream)).1) ∧
      (2 :: (Random.sample 2 2 ({} : Random.WordStream)).1).Nodup := by
  have h : (create lotteryConfig {} : Except StoreError (Store Nat Random.WordStream)) =
      .ok lotteryStore := rfl
  have hbatch : (pairBatch [5, 6, 7] [8, 9, 10]).Conforms ["s", "a"] 3 := pairBatch_conforms rfl
  obtain ⟨-, -, hanswer, -, -, -, -, hplaces, -⟩ :=
    eviction_of_run h (lotteryCalls.take 1) rfl rfl hbatch (by decide) (by decide)
  exact ⟨h, rfl, hanswer, hplaces⟩

end ExperienceCollection.Store
