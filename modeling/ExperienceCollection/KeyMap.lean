/-!
# Maps ordered by name

`KeyMap α` is a finite map from names to values. Its entries stand in strictly ascending order
of name, so that two maps with the same content are equal, and so that a walk over the entries
meets the names in one fixed order. Names compare by their code points.
-/

namespace ExperienceCollection

/-- A finite map from names to values, kept as entries in strictly ascending order of name. -/
structure KeyMap (α : Type) where
  entries : List (String × α)
  ascending : (entries.map Prod.fst).Pairwise (· < ·)

namespace KeyMap

variable {α β : Type}

def empty : KeyMap α := ⟨[], List.Pairwise.nil⟩

instance : Inhabited (KeyMap α) := ⟨empty⟩

def keys (m : KeyMap α) : List String := m.entries.map Prod.fst

def values (m : KeyMap α) : List α := m.entries.map Prod.snd

def size (m : KeyMap α) : Nat := m.entries.length

def get? (m : KeyMap α) (k : String) : Option α := m.entries.lookup k

def contains (m : KeyMap α) (k : String) : Bool := m.keys.contains k

/-- Puts `(k, v)` in its place in a list that ascends by name, over an older value of `k`. -/
def place (k : String) (v : α) : List (String × α) → List (String × α)
  | [] => [(k, v)]
  | (k', v') :: rest =>
    if k < k' then (k, v) :: (k', v') :: rest
    else if k = k' then (k, v) :: rest
    else (k', v') :: place k v rest

theorem mem_keys_place {k x : String} {v : α} {es : List (String × α)} :
    x ∈ (place k v es).map Prod.fst ↔ x = k ∨ x ∈ es.map Prod.fst := by
  induction es with
  | nil => simp [place]
  | cons e rest ih =>
    obtain ⟨k', v'⟩ := e
    unfold place
    by_cases h : k < k'
    · simp [h]
    · by_cases h' : k = k'
      · subst h'
        simp
      · simp only [h, h', if_false, List.map_cons, List.mem_cons, ih]
        grind

theorem ascending_place (k : String) (v : α) {es : List (String × α)}
    (h : (es.map Prod.fst).Pairwise (· < ·)) :
    ((place k v es).map Prod.fst).Pairwise (· < ·) := by
  induction es with
  | nil => simp [place]
  | cons e rest ih =>
    obtain ⟨k', v'⟩ := e
    have hk := List.pairwise_cons.mp h
    unfold place
    by_cases hlt : k < k'
    · simp only [hlt, if_true, List.map_cons]
      refine List.pairwise_cons.mpr ⟨fun x hx => ?_, h⟩
      rcases List.mem_cons.mp hx with rfl | hx
      · exact hlt
      · exact String.lt_trans hlt (hk.1 x hx)
    · by_cases heq : k = k'
      · subst heq
        simpa using h
      · simp only [hlt, heq, if_false, List.map_cons]
        refine List.pairwise_cons.mpr ⟨fun x hx => ?_, ih hk.2⟩
        rcases mem_keys_place.mp hx with rfl | hx
        · exact Std.lt_of_le_of_ne (String.not_lt.mp hlt) (Ne.symm heq)
        · exact hk.1 x hx

/-- Stores `v` under `k`; an older value is replaced. -/
def insert (m : KeyMap α) (k : String) (v : α) : KeyMap α :=
  ⟨place k v m.entries, ascending_place k v m.ascending⟩

/-- The map of a list of entries in any order; of two entries with one name the later stays. -/
def ofList (es : List (String × α)) : KeyMap α :=
  es.foldl (fun m e => m.insert e.1 e.2) empty

def map (f : String → α → β) (m : KeyMap α) : KeyMap β where
  entries := m.entries.map fun e => (e.1, f e.1 e.2)
  ascending := by simpa [List.map_map, Function.comp_def] using m.ascending

def modify (m : KeyMap α) (k : String) (f : α → α) : KeyMap α :=
  m.map fun k' v => if k' = k then f v else v

theorem ext_entries {m n : KeyMap α} (h : m.entries = n.entries) : m = n := by
  cases m
  cases n
  cases h
  rfl

@[simp] theorem keys_map (f : String → α → β) (m : KeyMap α) : (m.map f).keys = m.keys := by
  simp [keys, map, List.map_map, Function.comp_def]

@[simp] theorem keys_modify (m : KeyMap α) (k : String) (f : α → α) :
    (m.modify k f).keys = m.keys :=
  keys_map _ m

theorem mem_keys_insert {m : KeyMap α} {k x : String} {v : α} :
    x ∈ (m.insert k v).keys ↔ x = k ∨ x ∈ m.keys :=
  mem_keys_place

theorem lookup_place (k x : String) (v : α) (es : List (String × α)) :
    (place k v es).lookup x = if x = k then some v else es.lookup x := by
  induction es with
  | nil => simp only [place, List.lookup_cons]; grind
  | cons e rest ih =>
    obtain ⟨k', v'⟩ := e
    unfold place
    by_cases hlt : k < k'
    · simp only [hlt, if_true, List.lookup_cons]
      grind
    · by_cases heq : k = k'
      · subst heq
        simp only [hlt, if_true, if_false, List.lookup_cons]
        grind
      · simp only [hlt, heq, if_false, List.lookup_cons, ih]
        grind

@[simp] theorem get?_empty (k : String) : (empty : KeyMap α).get? k = none := rfl

theorem get?_insert (m : KeyMap α) (k x : String) (v : α) :
    (m.insert k v).get? x = if x = k then some v else m.get? x :=
  lookup_place k x v m.entries

theorem get?_map (f : String → α → β) (m : KeyMap α) (k : String) :
    (m.map f).get? k = (m.get? k).map (f k) := by
  change (m.entries.map fun e => (e.1, f e.1 e.2)).lookup k = (m.entries.lookup k).map (f k)
  induction m.entries with
  | nil => rfl
  | cons e rest ih =>
    simp only [List.map_cons, List.lookup_cons, ih]
    grind

theorem get?_modify (m : KeyMap α) (k x : String) (f : α → α) :
    (m.modify k f).get? x = if x = k then (m.get? x).map f else m.get? x := by
  rw [modify, get?_map]
  by_cases h : x = k <;> simp [h]

theorem mem_keys_iff {m : KeyMap α} {k : String} : k ∈ m.keys ↔ (m.get? k).isSome := by
  unfold keys get?
  induction m.entries with
  | nil => simp
  | cons e rest ih =>
    simp only [List.map_cons, List.mem_cons, ih]
    grind

end KeyMap

end ExperienceCollection
