import ExperienceCollection.Proofs.Store.Placement
import ExperienceCollection.Proofs.Store.Slots

/-!
# Store invariant

A store is valid when its columns are the declared ones, all of the length that the layout asks
for, and every slot below its size is filled. New stores are valid, and every call keeps a store
valid, whether it succeeds or not.
-/

namespace ExperienceCollection

variable {ν ρ : Type}

/-- The length of the columns of a store with `size` items. -/
def Capacity.columnLength : Capacity → Nat → Nat
  | unbounded, size => size
  | bounded limit, _ => limit

/-- The number of items that stay of `count` items. -/
def Capacity.clamp : Capacity → Nat → Nat
  | unbounded, count => count
  | bounded limit, count => min limit count

@[simp] lemma Capacity.clamp_zero (c : Capacity) : c.clamp 0 = 0 := by
  cases c <;> simp [clamp]

lemma Capacity.clamp_clamp_add (c : Capacity) (m n : Nat) :
    c.clamp (c.clamp m + n) = c.clamp (m + n) := by
  cases c <;> simp only [clamp]
  omega

namespace Store

/-- What holds of a store between calls. -/
structure Valid (s : Store ν ρ) : Prop where
  layout : s.config.layout = .ok s.layout
  keys : ∀ key, key ∈ s.columns.keys ↔ key ∈ s.config.keys
  size_le : s.size ≤ s.physicalLength
  length : ∀ key column, s.columns.get? key = some column → column.length = s.physicalLength
  filled : ∀ key column, s.columns.get? key = some column → ∀ i, i < s.size → (column.slot i).isSome

/-- `s'` is `s` after the rows of a batch went to `places`. -/
structure Stored (s : Store ν ρ) (b : Batch ν) (places : List Nat) (s' : Store ν ρ) : Prop where
  schema : b.keys = s.columns.keys
  rows : ∀ key values, b.get? key = some values → values.length = b.rowCount
  config : s'.config = s.config
  layout : s'.layout = s.layout
  keys : s'.columns.keys = s.columns.keys
  size : s'.size = s.config.capacity.clamp (s.size + b.rowCount)
  placement : Placement s.size s'.size b.rowCount places
  column : ∀ key column', s'.columns.get? key = some column' →
    ∃ column values, s.columns.get? key = some column ∧ b.get? key = some values ∧
      column'.length = s'.physicalLength ∧ column.Stored values places column'

lemma layout_unbounded {c : StoreConfig} (h : c.layout = .ok .unbounded) :
    c.capacity = .unbounded := by
  unfold StoreConfig.layout at h
  split at h <;> simp_all

lemma layout_bounded {c : StoreConfig} {capacity : Nat} {policy : Policy}
    (h : c.layout = .ok (.bounded capacity policy)) : c.capacity = .bounded capacity := by
  unfold StoreConfig.layout at h
  split at h <;> simp_all

lemma layout_policy {c : StoreConfig} {capacity : Nat} {policy : Policy}
    (h : c.layout = .ok (.bounded capacity policy)) : c.policy = some policy := by
  unfold StoreConfig.layout at h
  split at h <;> simp_all

lemma Valid.physicalLength_eq {s : Store ν ρ} (hs : s.Valid) :
    s.physicalLength = s.config.capacity.columnLength s.size := by
  have hl := hs.layout
  cases h : s.layout with
  | unbounded =>
    rw [h] at hl
    simp [physicalLength, h, layout_unbounded hl, Capacity.columnLength]
  | bounded capacity policy =>
    rw [h] at hl
    simp [physicalLength, h, layout_bounded hl, Capacity.columnLength]

lemma create_eq {config : StoreConfig} {random : ρ} {s : Store ν ρ}
    (h : create config random = .ok s) :
    ∃ layout, config.layout = .ok layout ∧
      s = { config, layout, columns := config.emptyColumns, size := 0, random } := by
  unfold create at h
  cases hv : config.validate with
  | error e => simp [hv, bind, Except.bind] at h
  | ok _ =>
    cases hl : config.layout with
    | error e => simp [hv, hl, bind, Except.bind] at h
    | ok layout =>
      refine ⟨layout, rfl, ?_⟩
      simpa [hv, hl, bind, Except.bind, pure, Except.pure] using h.symm

lemma create_config {config : StoreConfig} {random : ρ} {s : Store ν ρ}
    (h : create config random = .ok s) : s.config = config := by
  obtain ⟨_, -, rfl⟩ := create_eq h
  rfl

lemma create_size {config : StoreConfig} {random : ρ} {s : Store ν ρ}
    (h : create config random = .ok s) : s.size = 0 := by
  obtain ⟨_, -, rfl⟩ := create_eq h
  rfl

lemma create_free {config : StoreConfig} {random : ρ} {s : Store ν ρ}
    (h : create config random = .ok s) (key : String) (column : Column ν)
    (hcolumn : s.columns.get? key = some column) (i : Nat) : column.slot i = none := by
  obtain ⟨_, -, rfl⟩ := create_eq h
  exact StoreConfig.slot_emptyColumns hcolumn i

/-- A store without items whose columns are empty is valid. -/
lemma valid_empty {s : Store ν ρ} (hl : s.config.layout = .ok s.layout)
    (hc : s.columns = s.config.emptyColumns) (hsize : s.size = 0) : s.Valid where
  layout := hl
  keys := by
    intro key
    rw [KeyMap.mem_keys_iff, hc, StoreConfig.get?_emptyColumns]
    by_cases h : key ∈ s.config.keys <;> simp [h]
  size_le := by simp [hsize]
  length := by
    intro key column h
    rw [hc, StoreConfig.get?_emptyColumns] at h
    split at h
    · obtain rfl := Option.some.inj h
      rw [List.length_replicate]
      cases hly : s.layout with
      | unbounded =>
        rw [hly] at hl
        simp [physicalLength, hly, layout_unbounded hl, Capacity.limit?, hsize]
      | bounded capacity policy =>
        rw [hly] at hl
        simp [physicalLength, hly, layout_bounded hl, Capacity.limit?]
    · simp at h
  filled := by
    intro key column _ i hi
    omega

theorem create_valid {config : StoreConfig} {random : ρ} {s : Store ν ρ}
    (h : create config random = .ok s) : s.Valid := by
  obtain ⟨layout, hl, rfl⟩ := create_eq h
  exact valid_empty hl rfl rfl

lemma clear_valid {s : Store ν ρ} (hs : s.Valid) : s.clear.Valid := valid_empty hs.layout rfl rfl

lemma checkSchema_ok {s : Store ν ρ} {b : Batch ν} {u : Unit} (h : s.checkSchema b = .ok u) :
    b.keys = s.columns.keys := by
  unfold checkSchema at h
  split at h
  · rename_i hmatches
    simp only [Bool.and_eq_true, decide_eq_true_eq, List.all_eq_true, KeyMap.contains,
      List.contains_iff_mem] at hmatches
    exact KeyMap.keys_eq_of_size hmatches.1 hmatches.2
  · simp at h

/-- Under a matching schema every column takes the values of its name. -/
lemma get?_update_of_schema {columns : Columns ν} {b : Batch ν}
    {f : Column ν → List ν → Column ν} {key : String} {column' : Column ν}
    (hb : b.keys = columns.keys) (h : (columns.update b f).get? key = some column') :
    ∃ column values, columns.get? key = some column ∧ b.get? key = some values ∧
      column' = f column values := by
  rw [Columns.get?_update] at h
  obtain ⟨column, hcolumn, hf⟩ := Option.map_eq_some_iff.mp h
  obtain ⟨values, hvalues⟩ := KeyMap.exists_get?_of_mem_keys
    (hb ▸ KeyMap.mem_keys_of_get? hcolumn : key ∈ b.keys)
  rw [hvalues] at hf
  exact ⟨column, values, hcolumn, hvalues, hf.symm⟩

lemma Stored.size_le {s s' : Store ν ρ} {b : Batch ν} {places : List Nat}
    (h : s.Stored b places s') (hs : s.Valid) : s.size ≤ s'.size := by
  have hsize := hs.size_le
  rw [hs.physicalLength_eq] at hsize
  rw [h.size]
  cases hc : s.config.capacity with
  | unbounded => simp [Capacity.clamp]
  | bounded limit =>
    rw [hc] at hsize
    simp only [Capacity.columnLength, Capacity.clamp] at hsize ⊢
    omega

/-- A batch of rows keeps a store valid. -/
lemma Stored.valid {s s' : Store ν ρ} {b : Batch ν} {places : List Nat} (hs : s.Valid)
    (h : s.Stored b places s') : s'.Valid where
  layout := by rw [h.config, h.layout, hs.layout]
  keys := by rw [h.keys, h.config]; exact hs.keys
  size_le := by
    have hl := hs.layout
    cases hly : s.layout with
    | unbounded => simp [physicalLength, h.layout, hly]
    | bounded capacity policy =>
      rw [hly] at hl
      rw [physicalLength, h.layout, hly, h.size, layout_bounded hl]
      exact Nat.min_le_left capacity (s.size + b.rowCount)
  length := by
    intro key column' hcolumn'
    obtain ⟨_, _, _, _, hlen, _⟩ := h.column key column' hcolumn'
    exact hlen
  filled := by
    intro key column' hcolumn' i hi
    obtain ⟨column, values, hcolumn, hvalues, _, hst⟩ := h.column key column' hcolumn'
    by_cases hp : i ∈ places
    · obtain ⟨r, hr⟩ := exists_lastAt hp
      have hrl := (List.getElem?_eq_some_iff.mp hr.1).1
      rw [h.placement.length, ← h.rows key values hvalues] at hrl
      simp [hst.written i r hr, hrl]
    · have hlt : i < s.size := by
        by_contra hge
        exact hp (h.placement.covers i (Nat.not_lt.mp hge) hi)
      rw [hst.kept i hp]
      exact hs.filled key column hcolumn i hlt

/-- An update leaves the store as it was, or writes its values to the places it was given. -/
lemma update_store (s : Store ν ρ) (indexes : List Nat) (b : Batch ν) :
    (s.update indexes b).store = s ∨
      (s.update indexes b).store = { s with columns := s.columns.write indexes b } := by
  unfold update
  repeat' split
  all_goals simp

/-- An update that fails changes nothing. -/
theorem update_error {s : Store ν ρ} {indexes : List Nat} {b : Batch ν} {e : StoreError}
    (h : (s.update indexes b).answer = .error e) : (s.update indexes b).store = s := by
  unfold update at h ⊢
  split
  · rfl
  · split
    · rfl
    · split
      · rfl
      · simp_all

theorem update_valid {s : Store ν ρ} (hs : s.Valid) (indexes : List Nat) (b : Batch ν) :
    (s.update indexes b).store.Valid := by
  have hwrite (key : String) (column' : Column ν)
      (h : (s.columns.write indexes b).get? key = some column') :
      ∃ column, s.columns.get? key = some column ∧ column'.length = column.length ∧
        ∀ i, (column.slot i).isSome → (column'.slot i).isSome := by
    rw [Columns.write, Columns.get?_update] at h
    obtain ⟨column, hcolumn, rfl⟩ := Option.map_eq_some_iff.mp h
    refine ⟨column, hcolumn, ?_⟩
    cases b.get? key with
    | none => exact ⟨rfl, fun _ hi => hi⟩
    | some values =>
      exact ⟨Column.length_write _ _ _, fun _ hi => Column.slot_write_isSome hi⟩
  rcases update_store s indexes b with h | h
  · rwa [h]
  · rw [h]
    refine ⟨hs.layout, ?_, hs.size_le, ?_, ?_⟩
    · simpa using hs.keys
    · intro key column' hc
      obtain ⟨column, hcolumn, hlen, -⟩ := hwrite key column' hc
      exact hlen.trans (hs.length key column hcolumn)
    · intro key column' hc i hi
      obtain ⟨column, hcolumn, -, hfill⟩ := hwrite key column' hc
      exact hfill i (hs.filled key column hcolumn i hi)

variable [Random.Source ρ]

/-- What a put makes of its store, with the reply it gives. -/
inductive Puts (s : Store ν ρ) (b : Batch ν) (victims : Option (List Nat)) :
    Reply ν ρ (List Nat) → Prop where
  | schema (e : StoreError) (schema : s.checkSchema b = .error e) :
      Puts s b victims { answer := .error e, store := s }
  | ragged (e : StoreError) (schema : s.checkSchema b = .ok ())
      (count : b.commonLength = .error e) : Puts s b victims { answer := .error e, store := s }
  | appends (added : Nat) (schema : s.checkSchema b = .ok ()) (count : b.commonLength = .ok added)
      (layout : s.layout = .unbounded) :
      Puts s b victims
        { answer := .ok (List.range' s.size added)
          store := { s with columns := s.columns.append b, size := s.size + added } }
  | refuses (added capacity : Nat) (policy : Policy) (e : StoreError)
      (schema : s.checkSchema b = .ok ()) (count : b.commonLength = .ok added)
      (layout : s.layout = .bounded capacity policy)
      (plan : planIndexes capacity policy s.size added victims s.random = (.error e, s.random)) :
      Puts s b victims { answer := .error e, store := s }
  | writes (added capacity : Nat) (policy : Policy) (places : List Nat) (random : ρ)
      (schema : s.checkSchema b = .ok ()) (count : b.commonLength = .ok added)
      (layout : s.layout = .bounded capacity policy)
      (plan : planIndexes capacity policy s.size added victims s.random = (.ok places, random)) :
      Puts s b victims
        { answer := .ok places
          store :=
            { s with
              columns := s.columns.write places b
              size := min capacity (s.size + added)
              random } }

theorem put_puts (s : Store ν ρ) (b : Batch ν) (victims : Option (List Nat)) :
    Puts s b victims (s.put b victims) := by
  unfold put
  split
  · rename_i e hschema
    exact .schema e hschema
  · rename_i e hschema hcount
    exact .ragged e hschema hcount
  · rename_i added hschema hcount
    split
    · rename_i hlayout
      exact .appends added hschema hcount hlayout
    · rename_i capacity policy hlayout
      split
      · rename_i e random hplan
        obtain rfl := planIndexes_error_random hplan
        exact .refuses added capacity policy e hschema hcount hlayout hplan
      · rename_i places random hplan
        exact .writes added capacity policy places random hschema hcount hlayout hplan

section

variable {s : Store ν ρ} {b : Batch ν} {victims : Option (List Nat)}
  {reply : Reply ν ρ (List Nat)} {places : List Nat}

lemma Puts.config_eq (h : Puts s b victims reply) : reply.store.config = s.config := by
  cases h with
  | _ => rfl

lemma Puts.store_of_error (h : Puts s b victims reply) {e : StoreError}
    (he : reply.answer = .error e) : reply.store = s := by
  cases h with
  | appends => cases he
  | writes => cases he
  | _ => rfl

omit [Random.Source ρ] in
/-- Appending a batch to an unbounded store. -/
lemma stored_of_append (hs : s.Valid) {added : Nat} (hschema : s.checkSchema b = .ok ())
    (hcount : b.commonLength = .ok added) (hl : s.layout = .unbounded) :
    s.Stored b (List.range' s.size added)
      { s with columns := s.columns.append b, size := s.size + added } := by
  obtain ⟨rfl, hrows⟩ := Batch.length_of_commonLength hcount
  have hkeys := checkSchema_ok hschema
  have hlayout := hs.layout
  rw [hl] at hlayout
  have hphys : s.physicalLength = s.size := by simp [physicalLength, hl]
  refine ⟨hkeys, hrows, rfl, rfl, Columns.keys_append _ _, ?_, placement_range' _ _, ?_⟩
  · simp [layout_unbounded hlayout, Capacity.clamp]
  · intro key column' hcolumn'
    obtain ⟨column, values, hcolumn, hvalues, rfl⟩ := get?_update_of_schema hkeys hcolumn'
    have hlen := hs.length key column hcolumn
    rw [hphys] at hlen
    refine ⟨column, values, hcolumn, hvalues, ?_, ?_⟩
    · simp [physicalLength, hl, hlen, hrows key values hvalues]
    · have hst := Column.stored_append column values
      rwa [hlen, hrows key values hvalues] at hst

/-- Writing a batch to the planned places of a bounded store. -/
lemma stored_of_write (hs : s.Valid) {added capacity : Nat} {policy : Policy} {random : ρ}
    (hschema : s.checkSchema b = .ok ()) (hcount : b.commonLength = .ok added)
    (hl : s.layout = .bounded capacity policy)
    (hplan : planIndexes capacity policy s.size added victims s.random = (.ok places, random)) :
    s.Stored b places
      { s with
        columns := s.columns.write places b
        size := min capacity (s.size + added)
        random } := by
  obtain ⟨rfl, hrows⟩ := Batch.length_of_commonLength hcount
  have hkeys := checkSchema_ok hschema
  have hlayout := hs.layout
  rw [hl] at hlayout
  have hphys : s.physicalLength = capacity := by simp [physicalLength, hl]
  have hplace := planIndexes_placement (hphys ▸ hs.size_le) hplan
  refine ⟨hkeys, hrows, rfl, rfl, Columns.keys_write _ _ _, ?_, hplace, ?_⟩
  · simp [layout_bounded hlayout, Capacity.clamp]
  · intro key column' hcolumn'
    obtain ⟨column, values, hcolumn, hvalues, rfl⟩ := get?_update_of_schema hkeys hcolumn'
    have hlen := hs.length key column hcolumn
    rw [hphys] at hlen
    refine ⟨column, values, hcolumn, hvalues, ?_, ?_⟩
    · simp [physicalLength, hl, hlen]
    · apply Column.stored_write
      · rw [hplace.length, hrows key values hvalues]
      · intro i hi
        have hlt := hplace.below i hi
        omega

lemma Puts.stored (h : Puts s b victims reply) (hs : s.Valid) (hok : reply.answer = .ok places) :
    s.Stored b places reply.store := by
  cases h with
  | appends added schema count layout =>
    obtain rfl := Except.ok.inj hok
    exact stored_of_append hs schema count layout
  | writes added capacity policy places' random schema count layout plan =>
    obtain rfl := Except.ok.inj hok
    exact stored_of_write hs schema count layout plan
  | _ => cases hok

end

/-- A put that fails changes nothing. -/
theorem put_error {s : Store ν ρ} {b : Batch ν} {victims : Option (List Nat)} {e : StoreError}
    (h : (s.put b victims).answer = .error e) : (s.put b victims).store = s :=
  (put_puts s b victims).store_of_error h

/-- What a put that succeeds has done. -/
theorem put_stored {s : Store ν ρ} {b : Batch ν} {victims : Option (List Nat)}
    {places : List Nat} (hs : s.Valid) (h : (s.put b victims).answer = .ok places) :
    s.Stored b places (s.put b victims).store :=
  (put_puts s b victims).stored hs h

theorem put_valid {s : Store ν ρ} (hs : s.Valid) (b : Batch ν) (victims : Option (List Nat)) :
    (s.put b victims).store.Valid := by
  cases h : (s.put b victims).answer with
  | error e => rwa [put_error h]
  | ok places => exact (put_stored hs h).valid hs

end Store

end ExperienceCollection
