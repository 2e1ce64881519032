import ExperienceCollection.Proofs.Store.Eviction

/-!
# Batches put in two parts

A batch may be put in two parts, one after the other, as long as the first part fits into the free
slots: the rows go to the same places, and the store is the same afterwards. A rolling store may
even overflow with the second part, since the run of places just goes on.
-/

namespace ExperienceCollection

variable {ν ρ : Type}

namespace Batch

/-- The rows of `a` and then those of `b`, column by column. -/
def append (a b : Batch ν) : Batch ν := a.map fun key values => values ++ (b.get? key).getD []

lemma get?_append {a b : Batch ν} {key : String} {front back : List ν}
    (ha : a.get? key = some front) (hb : b.get? key = some back) :
    (a.append b).get? key = some (front ++ back) := by
  rw [append, KeyMap.get?_map, ha, hb, Option.map_some, Option.getD_some]

lemma Conforms.exists_get? {b : Batch ν} {names : List String} {count : Nat}
    (h : b.Conforms names count) {key : String} (hkey : key ∈ names) :
    ∃ values, b.get? key = some values ∧ values.length = count := by
  obtain ⟨values, hvalues⟩ := KeyMap.exists_get?_of_mem_keys ((h.keys key).mpr hkey)
  exact ⟨values, hvalues, h.rows key values hvalues⟩

lemma Conforms.get?_eq_none {b : Batch ν} {names : List String} {count : Nat}
    (h : b.Conforms names count) {key : String} (hkey : key ∉ names) : b.get? key = none := by
  rwa [← h.keys, KeyMap.mem_keys_iff, Option.not_isSome_iff_eq_none] at hkey

lemma Conforms.append {a b : Batch ν} {names : List String} {m n : Nat}
    (ha : a.Conforms names m) (hb : b.Conforms names n) :
    (a.append b).Conforms names (m + n) where
  keys := by
    intro key
    rw [Batch.append, KeyMap.keys_map, ha.keys]
  rows := by
    intro key values hvalues
    have hkey : key ∈ names := by
      by_contra hnot
      rw [Batch.append, KeyMap.get?_map, ha.get?_eq_none hnot] at hvalues
      cases hvalues
    obtain ⟨front, hfront, rfl⟩ := ha.exists_get? hkey
    obtain ⟨back, hback, rfl⟩ := hb.exists_get? hkey
    rw [get?_append hfront hback] at hvalues
    rw [← Option.some.inj hvalues, List.length_append]

end Batch

/-- Writing in two parts: each place gets its value in the same turn. -/
lemma Column.write_append {places : List Nat} {values : List ν} (column : Column ν)
    (h : places.length = values.length) (places' : List Nat) (values' : List ν) :
    column.write (places ++ places') (values ++ values') =
      (column.write places values).write places' values' := by
  rw [write_eq_foldl, write_eq_foldl, write_eq_foldl, List.zip_append h, List.foldl_append]

namespace Columns

variable {names : List String} {a b : Batch ν} {m n : Nat}

/-- Two changes one after the other, if they are one change in every column. -/
lemma update_append (columns : Columns ν) (ha : a.Conforms names m) (hb : b.Conforms names n)
    {f g k : Column ν → List ν → Column ν} (h : ∀ column front back, front.length = m →
      f column (front ++ back) = k (g column front) back) :
    columns.update (a.append b) f = (columns.update a g).update b k := by
  apply KeyMap.ext_get?
  · rw [update, update, update, KeyMap.keys_map, KeyMap.keys_map, KeyMap.keys_map]
  · intro key
    rw [get?_update, get?_update, get?_update, Option.map_map]
    by_cases hkey : key ∈ names
    · obtain ⟨front, hfront, hlen⟩ := ha.exists_get? hkey
      obtain ⟨back, hback, -⟩ := hb.exists_get? hkey
      rw [Batch.get?_append hfront hback, hfront, hback]
      congr 1
      funext column
      exact h column front back hlen
    · rw [(ha.append hb).get?_eq_none hkey, ha.get?_eq_none hkey, hb.get?_eq_none hkey]
      rfl

lemma write_append (columns : Columns ν) (ha : a.Conforms names m) (hb : b.Conforms names n)
    {places : List Nat} (hplaces : places.length = m) (places' : List Nat) :
    columns.write (places ++ places') (a.append b) =
      (columns.write places a).write places' b := by
  apply update_append columns ha hb
  intro column front back hlen
  exact Column.write_append column (hplaces.trans hlen.symm) places' back

lemma append_append (columns : Columns ν) (ha : a.Conforms names m) (hb : b.Conforms names n) :
    columns.append (a.append b) = (columns.append a).append b := by
  apply update_append columns ha hb
  intro column front back _
  rw [List.map_append, List.append_assoc]

end Columns

namespace Store

lemma range'_add (start m n : Nat) :
    List.range' start (m + n) = List.range' start m ++ List.range' (start + m) n := by
  rw [← List.range'_append, Nat.one_mul]

variable [Random.Source ρ]

/-- The second part of a batch fits as well, or it overflows a rolling store in which the whole
batch finds room. -/
def Continues (capacity size m n : Nat) (policy : Policy) : Prop :=
  size + m + n ≤ capacity ∨ policy = .rolling ∧ m + n ≤ capacity

/-- If the first part fits, the whole batch is planned as its parts are one after the other. -/
lemma Continues.exists_plans {capacity size m n : Nat} {policy : Policy} (random : ρ)
    (hfirst : size + m ≤ capacity) (h : Continues capacity size m n policy) :
    ∃ places, Plans capacity (size + m) n policy none random (.ok places, random) ∧
      Plans capacity size (m + n) policy none random
        (.ok (List.range' size m ++ places), random) := by
  by_cases hfits : size + m + n ≤ capacity
  · refine ⟨List.range' (size + m) n, .fits hfits, ?_⟩
    rw [← range'_add]
    exact .fits (by omega)
  · obtain ⟨rfl, hboth⟩ : policy = .rolling ∧ m + n ≤ capacity := h.resolve_left hfits
    have hrest : capacity < size + m + n := by omega
    have hwhole : capacity < size + (m + n) := by omega
    refine ⟨rollingIndexes capacity (size + m) n, .rolls (by omega) hrest rfl rfl, ?_⟩
    have hplaces : rollingIndexes capacity size (m + n) =
        List.range' size m ++ rollingIndexes capacity (size + m) n := by
      -- Both runs fill the free slots, the shorter one behind the first part, and wrap then.
      have hfree : capacity - size = m + (capacity - (size + m)) := by omega
      rw [rollingIndexes_eq (by omega) hboth hwhole, rollingIndexes_eq hfirst (by omega) hrest,
        hfree, range'_add, List.append_assoc, Nat.add_assoc]
    rw [← hplaces]
    exact .rolls hboth hwhole rfl rfl

lemma put_append_of_unbounded {t : Store ν ρ} {a b : Batch ν} {m n : Nat} (ht : t.Valid)
    (hne : t.config.keys ≠ []) (ha : a.Conforms t.config.keys m)
    (hb : b.Conforms t.config.keys n) (hl : t.layout = .unbounded) :
    ∃ first second, (t.put a none).answer = .ok first ∧
      ((t.put a none).store.put b none).answer = .ok second ∧
      (t.put (a.append b) none).answer = .ok (first ++ second) ∧
      (t.put (a.append b) none).store = ((t.put a none).store.put b none).store := by
  have hvalid := put_valid ht a none
  rw [put_of_unbounded ht hne ha hl] at hvalid ⊢
  dsimp only at hvalid ⊢
  rw [put_of_unbounded hvalid hne hb hl, put_of_unbounded ht hne (ha.append hb) hl]
  refine ⟨_, _, rfl, rfl, ?_, ?_⟩
  · rw [range'_add]
  · rw [Columns.append_append t.columns ha hb, Nat.add_assoc]

lemma put_append_of_bounded {t : Store ν ρ} {a b : Batch ν} {m n capacity : Nat}
    {policy : Policy} (ht : t.Valid) (hne : t.config.keys ≠ []) (ha : a.Conforms t.config.keys m)
    (hb : b.Conforms t.config.keys n) (hl : t.layout = .bounded capacity policy)
    (hfirst : t.size + m ≤ capacity) (hroom : Continues capacity t.size m n policy) :
    ∃ first second, (t.put a none).answer = .ok first ∧
      ((t.put a none).store.put b none).answer = .ok second ∧
      (t.put (a.append b) none).answer = .ok (first ++ second) ∧
      (t.put (a.append b) none).store = ((t.put a none).store.put b none).store := by
  obtain ⟨places, hsecond, hwhole⟩ := hroom.exists_plans t.random hfirst
  have hvalid := put_valid ht a none
  rw [put_of_plan ht hne ha hl (.fits hfirst), Nat.min_eq_right hfirst] at hvalid ⊢
  dsimp only at hvalid ⊢
  rw [put_of_plan hvalid hne hb hl hsecond, put_of_plan ht hne (ha.append hb) hl hwhole]
  refine ⟨_, _, rfl, rfl, rfl, ?_⟩
  rw [Columns.write_append t.columns ha hb List.length_range', Nat.add_assoc]

/-- Whatever happened before: two batches of the right form may be put one after the other or
joined to one batch, if the store has no bound, or if both fit, or if the first one fits into a
rolling store and both together do not exceed its capacity. Either way all puts succeed, they answer
with the same places, and the store is the same afterwards. -/
theorem splitting_of_run {config : StoreConfig} {random : ρ} {s : Store ν ρ}
    (h : create config random = .ok s) (calls : List (Call ν)) {a b : Batch ν} {m n : Nat}
    (ha : a.Conforms config.keys m) (hb : b.Conforms config.keys n)
    (hroom : config.capacity = .unbounded ∨ ∃ capacity, config.capacity = .bounded capacity ∧
      (config.policy = some .rolling ∧ (s.run calls).size + m ≤ capacity ∧ m + n ≤ capacity ∨
        config.policy = some .random ∧ (s.run calls).size + m + n ≤ capacity)) :
    let t := s.run calls
    let t₁ := (t.put a none).store
    ∃ first second, (t.put a none).answer = .ok first ∧ (t₁.put b none).answer = .ok second ∧
      (t.put (a.append b) none).answer = .ok (first ++ second) ∧
      (t.put (a.append b) none).store = (t₁.put b none).store := by
  intro t t₁
  have hvalid : t.Valid := run_valid (create_valid h) calls
  have hconfig : t.config = config := (run_config s calls).trans (create_config h)
  have hlayout := hvalid.layout
  have hne := create_keys_ne h
  rw [hconfig] at hlayout
  rw [← hconfig] at ha hb hne
  rcases hroom with hunbounded | ⟨capacity, hcapacity, hparts⟩
  · have hl : t.layout = .unbounded := by
      rw [StoreConfig.layout, hunbounded] at hlayout
      exact (Except.ok.inj hlayout).symm
    exact put_append_of_unbounded hvalid hne ha hb hl
  · rcases hparts with ⟨hpolicy, hfirst, hboth⟩ | ⟨hpolicy, hboth⟩
    · have hl := layout_eq_bounded hlayout hcapacity hpolicy
      exact put_append_of_bounded hvalid hne ha hb hl hfirst (.inr ⟨rfl, hboth⟩)
    · have hl := layout_eq_bounded hlayout hcapacity hpolicy
      exact put_append_of_bounded hvalid hne ha hb hl (Nat.le_of_add_right_le hboth) (.inl hboth)

/-- One row fills the last free slot of a rolling store and two more wrap, in one batch or two. -/
theorem splitting_of_wrappingBatch :
    (create pairConfig {} : Except StoreError (Store Nat Random.WordStream)) = .ok pairStore ∧
      (pairStore.run (pairCalls.take 5)).size = 2 ∧
      ((pairStore.run (pairCalls.take 5)).put (pairBatch [7, 8, 9] [1, 2, 3]) none).answer =
        .ok [2, 0, 1] ∧
      ((pairStore.run (pairCalls.take 5)).put (pairBatch [7, 8, 9] [1, 2, 3]) none).store =
        (((pairStore.run (pairCalls.take 5)).put (pairBatch [7] [1]) none).store.put
          (pairBatch [8, 9] [2, 3]) none).store := by
  have h : (create pairConfig {} : Except StoreError (Store Nat Random.WordStream)) =
      .ok pairStore := rfl
  have hsize : (pairStore.run (pairCalls.take 5)).size = 2 := rfl
  have hjoined : (pairBatch [7] [1]).append (pairBatch [8, 9] [2, 3]) =
      pairBatch [7, 8, 9] [1, 2, 3] := KeyMap.ext_entries rfl
  have ha : (pairBatch [7] [1]).Conforms ["s", "a"] 1 := pairBatch_conforms rfl
  have hb : (pairBatch [8, 9] [2, 3]).Conforms ["s", "a"] 2 := pairBatch_conforms rfl
  obtain ⟨first, second, hfirst, hsecond, hwhole, hstore⟩ :=
    splitting_of_run h (pairCalls.take 5) ha hb (.inr ⟨3, rfl, .inl ⟨rfl, by decide, by decide⟩⟩)
  rw [hjoined] at hwhole hstore
  have hplaces : ((pairStore.run (pairCalls.take 5)).put (pairBatch [7] [1]) none).answer =
      .ok [2] := rfl
  have hplaces' : (((pairStore.run (pairCalls.take 5)).put (pairBatch [7] [1]) none).store.put
      (pairBatch [8, 9] [2, 3]) none).answer = .ok [0, 1] := rfl
  obtain rfl := Except.ok.inj (hplaces.symm.trans hfirst)
  obtain rfl := Except.ok.inj (hplaces'.symm.trans hsecond)
  exact ⟨h, hsize, hwhole, hstore⟩

/-- If the first part overflows by a row, the second one starts at the first slot again. -/
example :
    ((pairStore.run (pairCalls.take 5)).put (pairBatch [7, 8, 9] [1, 2, 3]) none).answer =
        .ok [2, 0, 1] ∧
      ((pairStore.run (pairCalls.take 5)).put (pairBatch [7, 8] [1, 2]) none).answer =
        .ok [2, 0] ∧
      (((pairStore.run (pairCalls.take 5)).put (pairBatch [7, 8] [1, 2]) none).store.put
        (pairBatch [9] [3]) none).answer = .ok [0] :=
  ⟨rfl, rfl, rfl⟩

end Store

end ExperienceCollection
