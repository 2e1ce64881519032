import ExperienceCollection.Proofs.KeyMap
import ExperienceCollection.Store.Columns

/-!
# Slots of columns

What a write does to a column, slot by slot. Of the values paired with one place the last one
stays, and the other slots keep their contents.
-/

namespace ExperienceCollection

/-- `r` is the last position at which `i` stands in `places`. -/
def LastAt (places : List Nat) (i r : Nat) : Prop :=
  places[r]? = some i ∧ ∀ k, r < k → places[k]? ≠ some i

lemma exists_lastAt {places : List Nat} {i : Nat} (h : i ∈ places) : ∃ r, LastAt places i r := by
  induction places with
  | nil => simp at h
  | cons j js ih =>
    by_cases hi : i ∈ js
    · obtain ⟨r, hr, hlast⟩ := ih hi
      refine ⟨r + 1, by simpa using hr, ?_⟩
      intro k hk
      obtain ⟨k, rfl⟩ := Nat.exists_eq_succ_of_ne_zero (Nat.ne_zero_of_lt hk)
      simpa using hlast k (by omega)
    · have hij : i = j := by simpa [hi] using h
      refine ⟨0, by simp [hij], ?_⟩
      intro k hk
      obtain ⟨k, rfl⟩ := Nat.exists_eq_succ_of_ne_zero (Nat.ne_zero_of_lt hk)
      intro hj
      exact hi (List.mem_of_getElem? (by simpa using hj))

/-- Places that run upward from `start` hold each place once. -/
lemma lastAt_range' {start count i r : Nat} :
    LastAt (List.range' start count) i r ↔ r < count ∧ i = start + r := by
  constructor
  · rintro ⟨hr, -⟩
    obtain ⟨hlt, he⟩ := List.getElem?_eq_some_iff.mp hr
    simp only [List.length_range', List.getElem_range', Nat.one_mul] at hlt he
    exact ⟨hlt, he.symm⟩
  · rintro ⟨hr, rfl⟩
    refine ⟨by simp [hr], ?_⟩
    intro k hk hs
    obtain ⟨hlt, he⟩ := List.getElem?_eq_some_iff.mp hs
    simp only [List.getElem_range', Nat.one_mul] at he
    omega

namespace Column

variable {ν : Type}

/-- The contents of a slot; a place outside the column counts as empty. -/
def slot (column : Column ν) (i : Nat) : Option ν := (column[i]?).join

lemma slot_eq_some {column : Column ν} {i : Nat} {v : ν} :
    column.slot i = some v ↔ column[i]? = some (some v) :=
  Option.join_eq_some_iff

lemma slot_of_length_le {column : Column ν} {i : Nat} (h : column.length ≤ i) :
    column.slot i = none := by
  simp [slot, List.getElem?_eq_none h]

@[simp] lemma slot_replicate_none (n i : Nat) :
    slot (List.replicate n (none : Option ν)) i = none := by
  by_cases h : i < n <;> simp [slot, h]

lemma slot_set (column : Column ν) (j i : Nat) (v : ν) :
    slot (column.set j (some v)) i =
      if j = i ∧ j < column.length then some v else column.slot i := by
  by_cases hj : j = i
  · subst hj
    by_cases hl : j < column.length
    · simp [slot, hl]
    · simp [slot, List.set_eq_of_length_le (Nat.not_lt.mp hl), hl]
  · simp [slot, List.getElem?_set_ne hj, hj]

lemma slot_append (column : Column ν) (values : List ν) (i : Nat) :
    slot (column ++ values.map some) i =
      if i < column.length then column.slot i else values[i - column.length]? := by
  by_cases h : i < column.length
  · simp [slot, h, List.getElem?_append_left h]
  · have hr : (column ++ values.map some)[i]? = (values.map some)[i - column.length]? :=
      List.getElem?_append_right (Nat.not_lt.mp h)
    rw [slot, hr, if_neg h, List.getElem?_map]
    cases values[i - column.length]? <;> rfl

lemma write_cons (column : Column ν) (j : Nat) (js : List Nat) (v : ν) (values : List ν) :
    column.write (j :: js) (v :: values) = write (column.set j (some v)) js values := by
  simp only [write_eq_foldl, List.zip_cons_cons, List.foldl_cons]

lemma write_nil_right (column : Column ν) (places : List Nat) :
    column.write places [] = column := by
  simp [write_eq_foldl]

lemma write_nil_left (column : Column ν) (values : List ν) : column.write [] values = column := by
  simp [write_eq_foldl]

/-- A slot whose place is not paired with a value keeps its contents. -/
lemma slot_write_of_not_paired {column : Column ν} {places : List Nat} {values : List ν} {i : Nat}
    (h : ∀ r, r < values.length → places[r]? ≠ some i) :
    (column.write places values).slot i = column.slot i := by
  induction places generalizing column values with
  | nil => rw [write_nil_left]
  | cons j js ih =>
    cases values with
    | nil => rw [write_nil_right]
    | cons v values =>
      have hj : j ≠ i := by simpa using h 0 (Nat.succ_pos _)
      have hjs : ∀ r, r < values.length → js[r]? ≠ some i := by
        intro r hr
        simpa using h (r + 1) (Nat.succ_lt_succ hr)
      rw [write_cons, ih hjs, slot_set, if_neg (fun hc => hj hc.1)]

/-- A slot holds the last value paired with its place. -/
lemma slot_write_of_last {column : Column ν} {places : List Nat} {values : List ν} {i r : Nat}
    {v : ν} (hi : i < column.length) (hr : places[r]? = some i) (hv : values[r]? = some v)
    (hlast : ∀ k, r < k → k < values.length → places[k]? ≠ some i) :
    (column.write places values).slot i = some v := by
  induction places generalizing column values r with
  | nil => simp at hr
  | cons j js ih =>
    cases values with
    | nil => simp at hv
    | cons w values =>
      rw [write_cons]
      cases r with
      | zero =>
        obtain rfl : j = i := by simpa using hr
        obtain rfl : w = v := by simpa using hv
        rw [slot_write_of_not_paired, slot_set, if_pos ⟨rfl, hi⟩]
        intro k hk
        simpa using hlast (k + 1) (Nat.succ_pos k) (Nat.succ_lt_succ hk)
      | succ r =>
        apply ih (by simpa using hi) (by simpa using hr) (by simpa using hv)
        intro k hk hkl
        simpa using hlast (k + 1) (Nat.succ_lt_succ hk) (Nat.succ_lt_succ hkl)

/-- Writing never empties a slot. -/
lemma slot_write_isSome {column : Column ν} {places : List Nat} {values : List ν} {i : Nat}
    (h : (column.slot i).isSome) : ((column.write places values).slot i).isSome := by
  induction places generalizing column values with
  | nil => rwa [write_nil_left]
  | cons j js ih =>
    cases values with
    | nil => rwa [write_nil_right]
    | cons v values =>
      rw [write_cons]
      apply ih
      rw [slot_set]
      split
      · rfl
      · exact h

/-- `column'` is `column` after rows of `values` went to `places`, one after another. -/
structure Stored (column : Column ν) (values : List ν) (places : List Nat) (column' : Column ν) :
    Prop where
  kept : ∀ i, i ∉ places → column'.slot i = column.slot i
  written : ∀ i r, LastAt places i r → column'.slot i = values[r]?

lemma stored_write {column : Column ν} {values : List ν} {places : List Nat}
    (hlen : places.length = values.length) (hlt : ∀ i ∈ places, i < column.length) :
    Stored column values places (column.write places values) where
  kept := fun i hi => slot_write_of_not_paired fun _ _ hr => hi (List.mem_of_getElem? hr)
  written := by
    intro i r hr
    have hrl : r < values.length := hlen ▸ (List.getElem?_eq_some_iff.mp hr.1).1
    rw [List.getElem?_eq_getElem hrl]
    exact slot_write_of_last (hlt i (List.mem_of_getElem? hr.1)) hr.1
      (List.getElem?_eq_getElem hrl) (fun k hk _ => hr.2 k hk)

lemma stored_append (column : Column ν) (values : List ν) :
    Stored column values (List.range' column.length values.length) (column ++ values.map some) where
  kept := by
    intro i hi
    rw [slot_append]
    split
    · rfl
    · rename_i hl
      have hge : column.length + values.length ≤ i := by
        by_contra hlt
        exact hi (List.mem_range'_1.mpr ⟨by omega, by omega⟩)
      rw [slot_of_length_le (Nat.not_lt.mp hl), List.getElem?_eq_none (by omega)]
  written := by
    intro i r hr
    obtain ⟨-, rfl⟩ := lastAt_range'.mp hr
    rw [slot_append, if_neg (by omega), Nat.add_sub_cancel_left]

end Column

namespace Batch

variable {ν : Type}

/-- Number of rows of a batch: the length of its first column, and zero without columns. -/
def rowCount (b : Batch ν) : Nat := (b.values.head?.map List.length).getD 0

/-- A batch whose columns have a common length has one value in each column for every row. -/
lemma length_of_commonLength {b : Batch ν} {n : Nat} (h : b.commonLength = .ok n) :
    n = b.rowCount ∧ ∀ key values, b.get? key = some values → values.length = b.rowCount := by
  cases hb : b.entries with
  | nil =>
    have hn : n = 0 := by simpa [commonLength, hb] using h.symm
    refine ⟨by simp [hn, rowCount, KeyMap.values, hb], ?_⟩
    intro key values hv
    have hm := KeyMap.mem_entries_of_get? hv
    simp [hb] at hm
  | cons e rest =>
    obtain ⟨reference, first⟩ := e
    have hcount : b.rowCount = first.length := by simp [rowCount, KeyMap.values, hb]
    cases hf : rest.find? fun e => e.2.length ≠ first.length with
    | some e =>
      rw [commonLength, hb] at h
      dsimp only at h
      rw [hf] at h
      simp at h
    | none =>
      have hn : first.length = n := by
        rw [commonLength, hb] at h
        dsimp only at h
        rw [hf] at h
        simpa using h
      refine ⟨by rw [hcount, hn], ?_⟩
      intro key values hv
      have hm := KeyMap.mem_entries_of_get? hv
      rw [hb] at hm
      rcases List.mem_cons.mp hm with he | hm
      · simp only [Prod.mk.injEq] at he
        rw [hcount, he.2]
      · have hall := List.find?_eq_none.mp hf (key, values) hm
        rw [hcount]
        simpa using hall

end Batch

namespace Columns

variable {ν : Type}

lemma get?_update (columns : Columns ν) (b : Batch ν) (f : Column ν → List ν → Column ν)
    (key : String) :
    (columns.update b f).get? key = (columns.get? key).map fun column =>
      match b.get? key with
      | some values => f column values
      | none => column :=
  KeyMap.get?_map _ columns key

@[simp] lemma keys_write (columns : Columns ν) (places : List Nat) (b : Batch ν) :
    (columns.write places b).keys = columns.keys :=
  KeyMap.keys_map _ columns

@[simp] lemma keys_append (columns : Columns ν) (b : Batch ν) :
    (columns.append b).keys = columns.keys :=
  KeyMap.keys_map _ columns

end Columns

lemma StoreConfig.get?_emptyColumns {ν : Type} (c : StoreConfig) (key : String) :
    (c.emptyColumns : Columns ν).get? key =
      if key ∈ c.keys then some (List.replicate (c.capacity.limit?.getD 0) none) else none := by
  cases hc : c.capacity <;>
    simp [emptyColumns, hc, KeyMap.get?_ofList_const, Capacity.limit?]

lemma StoreConfig.slot_emptyColumns {ν : Type} {c : StoreConfig} {key : String} {column : Column ν}
    (h : (c.emptyColumns : Columns ν).get? key = some column) (i : Nat) : column.slot i = none := by
  rw [get?_emptyColumns] at h
  split at h
  · obtain rfl := Option.some.inj h
    exact Column.slot_replicate_none _ i
  · simp at h

end ExperienceCollection
