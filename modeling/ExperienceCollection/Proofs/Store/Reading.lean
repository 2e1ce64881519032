import ExperienceCollection.Proofs.Store.Faultless
import ExperienceCollection.Proofs.Store.Verdict

/-!
# Reading a store

A store is read by places, by record, by column, or whole. A read by places compares them with the
length of one column, the first in order of name, and a record does the same with its place. Since
all columns have one length, both fail at the same places, and where they succeed they show what the
columns hold.
-/

namespace ExperienceCollection

variable {ν ρ : Type}

/-- `index` is the first of some places that lies beyond a length. -/
def FirstBeyond (length : Nat) (places : List Nat) (index : Nat) : Prop :=
  length ≤ index ∧ ∃ front back, places = front ++ index :: back ∧ ∀ i ∈ front, i < length

lemma find?_eq_some_iff_firstBeyond {length : Nat} {places : List Nat} {index : Nat} :
    (places.find? fun i => length ≤ i) = some index ↔ FirstBeyond length places index := by
  rw [List.find?_eq_some_iff_append, FirstBeyond]
  simp

lemma find?_eq_none_iff_below {length : Nat} {places : List Nat} :
    (places.find? fun i => length ≤ i) = none ↔ ∀ i ∈ places, i < length := by
  simp

namespace Store

/-- `columns` holds in its slots what the records at the given places hold under its names, and what
the columns of the store hold at these places. -/
structure Shows (s : Store ν ρ) (places : List Nat) (columns : Columns ν) : Prop where
  length : ∀ key column, columns.get? key = some column → column.length = places.length
  slot : ∀ key column (j i : Nat), columns.get? key = some column → places[j]? = some i →
    ∃ slot record whole, column[j]? = some slot ∧
      s.record i = .ok record ∧ record.get? key = some slot ∧
      s.getByKey key = .ok whole ∧ whole[i]? = some slot

section

variable {s : Store ν ρ} (hs : s.Valid) (hne : s.columns.keys ≠ [])

include hs hne

lemma get_eq_ok_iff {places : List Nat} {columns : Columns ν} :
    s.get (some places) = .ok columns ↔
      (∀ i ∈ places, i < s.physicalLength) ∧
        columns = s.columns.map fun _ column => column.project places := by
  rw [Store.get, hs.columnLength_eq hne, ← find?_eq_none_iff_below]
  cases places.find? fun i => s.physicalLength ≤ i with
  | none => simp [eq_comm]
  | some index => simp

lemma get_eq_error_iff {places : List Nat} {e : StoreError} :
    s.get (some places) = .error e ↔
      ∃ index, FirstBeyond s.physicalLength places index ∧
        e = .indexOutOfBounds index s.physicalLength := by
  rw [Store.get, hs.columnLength_eq hne]
  simp only [← find?_eq_some_iff_firstBeyond]
  cases places.find? fun i => s.physicalLength ≤ i with
  | none => simp
  | some index => simp [eq_comm]

lemma record_eq_ok_iff {i : Nat} {record : KeyMap (Option ν)} :
    s.record i = .ok record ↔
      i < s.physicalLength ∧ record = s.columns.map fun _ column => (column[i]?).join := by
  rw [Store.record, hs.columnLength_eq hne]
  by_cases hi : s.physicalLength ≤ i
  · simp [hi]
  · simp [hi, Nat.lt_of_not_le hi, eq_comm]

lemma exists_record_iff {i : Nat} : (∃ record, s.record i = .ok record) ↔ i < s.physicalLength := by
  simp only [record_eq_ok_iff hs hne, exists_and_left, exists_eq, and_true]

/-- What is read at some places is what the records and the columns show there. -/
lemma shows_of_get {places : List Nat} {columns : Columns ν}
    (h : s.get (some places) = .ok columns) : s.Shows places columns := by
  obtain ⟨hbelow, rfl⟩ := (get_eq_ok_iff hs hne).mp h
  constructor
  · intro key column hcolumn
    rw [KeyMap.get?_map] at hcolumn
    obtain ⟨whole, -, rfl⟩ := Option.map_eq_some_iff.mp hcolumn
    rw [Column.project_eq_map, List.length_map]
  · intro key column j i hcolumn hj
    rw [KeyMap.get?_map] at hcolumn
    obtain ⟨whole, hwhole, rfl⟩ := Option.map_eq_some_iff.mp hcolumn
    have hi : i < s.physicalLength := hbelow i (List.mem_of_getElem? hj)
    have hlt : i < whole.length := hs.length key whole hwhole ▸ hi
    have hslot : whole[i]? = some whole[i] := List.getElem?_eq_getElem hlt
    refine ⟨_, _, whole, ?_, (record_eq_ok_iff hs hne).mpr ⟨hi, rfl⟩, ?_, ?_, hslot⟩
    · rw [Column.project_eq_map, List.getElem?_map, hj, Option.map_some, hslot, Option.join_some]
    · rw [KeyMap.get?_map, hwhole, Option.map_some, hslot, Option.join_some]
    · rw [getByKey, hwhole]

end

lemma exists_getByKey_iff {s : Store ν ρ} {key : String} :
    (∃ column, s.getByKey key = .ok column) ↔ key ∈ s.columns.keys := by
  rw [getByKey, KeyMap.mem_keys_iff]
  cases s.columns.get? key <;> simp

section

variable [Random.Source ρ]

/-- Whatever happened before, a read by places succeeds if and only if they all lie in the columns,
which is the case if and only if there is a record at each of them; otherwise it answers with the
first that lies outside, and with the length of the columns. What it answers with has the declared
names, and its slots are those of the records and of the columns at these places. Reading without
places gives all columns, as `dumps` does; and there is a column under each declared name and under
no other. -/
theorem readings_of_run {config : StoreConfig} {random : ρ} {s : Store ν ρ}
    (h : create config random = .ok s) (calls : List (Call ν)) :
    let t := s.run calls
    let length := config.capacity.columnLength t.size
    (∀ places : List Nat,
        ((∃ columns, t.get (some places) = .ok columns) ↔ ∀ i ∈ places, i < length) ∧
          ((∀ i ∈ places, i < length) ↔ ∀ i ∈ places, ∃ record, t.record i = .ok record) ∧
          (∀ e, t.get (some places) = .error e ↔
            ∃ index, FirstBeyond length places index ∧ e = .indexOutOfBounds index length) ∧
          ∀ columns, t.get (some places) = .ok columns →
            (∀ key, key ∈ columns.keys ↔ key ∈ config.keys) ∧ t.Shows places columns) ∧
      t.get none = .ok t.columns ∧ t.dumps = t.columns ∧
      ∀ key, (∃ column, t.getByKey key = .ok column) ↔ key ∈ config.keys := by
  intro t length
  have hvalid : t.Valid := run_valid (create_valid h) calls
  have hconfig : t.config = config := (run_config s calls).trans (create_config h)
  have hlength : t.physicalLength = length := by rw [hvalid.physicalLength_eq, hconfig]
  have hkeys : ∀ key, key ∈ t.columns.keys ↔ key ∈ config.keys := hconfig ▸ hvalid.keys
  have hne : t.columns.keys ≠ [] := by
    obtain ⟨key, hkey⟩ := List.exists_mem_of_ne_nil _ (create_keys_ne h)
    exact List.ne_nil_of_mem ((hkeys key).mpr hkey)
  rw [← hlength]
  refine ⟨fun places => ⟨?_, ?_, ?_, ?_⟩, rfl, rfl, ?_⟩
  · simp only [get_eq_ok_iff hvalid hne, exists_and_left, exists_eq, and_true]
  · simp only [exists_record_iff hvalid hne]
  · intro e
    exact get_eq_error_iff hvalid hne
  · intro columns hcolumns
    refine ⟨fun key => ?_, shows_of_get hvalid hne hcolumns⟩
    obtain ⟨-, rfl⟩ := (get_eq_ok_iff hvalid hne).mp hcolumns
    rw [KeyMap.keys_map, hkeys]
  · intro key
    rw [exists_getByKey_iff, hkeys]

/-- Of the places that are read from three slots, one comes twice; then two lie outside, and the
first of them is reported. -/
theorem readings_of_repeatedPlaces :
    (create pairConfig {} : Except StoreError (Store Nat Random.WordStream)) = .ok pairStore ∧
      (∃ columns, (pairStore.run pairCalls).get (some [2, 0, 2]) = .ok columns ∧
        (pairStore.run pairCalls).Shows [2, 0, 2] columns) ∧
      (pairStore.run pairCalls).get (some [1, 7, 0, 3]) = .error (.indexOutOfBounds 7 3) ∧
      FirstBeyond 3 [1, 7, 0, 3] 7 ∧
      ∃ column, (pairStore.run pairCalls).getByKey "a" = .ok column := by
  have h : (create pairConfig {} : Except StoreError (Store Nat Random.WordStream)) =
      .ok pairStore := rfl
  obtain ⟨hplaces, -, -, hkeys⟩ := readings_of_run h pairCalls
  obtain ⟨hread, -, -, hshows⟩ := hplaces [2, 0, 2]
  obtain ⟨-, -, hfails, -⟩ := hplaces [1, 7, 0, 3]
  obtain ⟨columns, hcolumns⟩ := hread.mpr (by decide)
  have hfirst : FirstBeyond 3 [1, 7, 0, 3] 7 := ⟨by decide, [1], [0, 3], rfl, by decide⟩
  exact ⟨h, ⟨columns, hcolumns, (hshows columns hcolumns).2⟩, (hfails _).mpr ⟨7, hfirst, rfl⟩,
    hfirst, (hkeys "a").mpr (by decide)⟩

end

end Store

end ExperienceCollection
