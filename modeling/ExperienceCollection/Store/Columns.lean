import ExperienceCollection.KeyMap
import ExperienceCollection.Store.Config

/-!
# Columns

A store keeps one column of slots per name. A batch brings one list of values per name.
-/

namespace ExperienceCollection

/-- A column of slots; `none` is a slot never written. -/
abbrev Column (ν : Type) := List (Option ν)

abbrev Columns (ν : Type) := KeyMap (Column ν)

/-- Values to write, by name of the column. -/
abbrev Batch (ν : Type) := KeyMap (List ν)

variable {ν : Type}

/-- The common number of values in all columns of a batch, zero for a batch without columns. The
column of the least name sets the length that the others must have. -/
def Batch.commonLength (b : Batch ν) : Except StoreError Nat :=
  match b.entries with
  | [] => .ok 0
  | (reference, values) :: rest =>
    match rest.find? fun e => e.2.length ≠ values.length with
    | none => .ok values.length
    | some (key, other) =>
      .error (.columnLengthMismatch reference values.length key other.length)

/-- Writes values to the given places one after another, as long as there are both. -/
def Column.write (column : Column ν) (indexes : List Nat) (values : List ν) : Column ν :=
  ((indexes.zip values).foldl (fun slots w => slots.setIfInBounds w.1 (some w.2))
    column.toArray).toList

def Column.project (column : Column ν) (indexes : List Nat) : Column ν :=
  let slots := column.toArray
  indexes.map fun i => (slots[i]?).join

theorem Column.write_eq_foldl (column : Column ν) (indexes : List Nat) (values : List ν) :
    column.write indexes values =
      (indexes.zip values).foldl (fun column w => column.set w.1 (some w.2)) column := by
  have run (ws : List (Nat × ν)) (slots : Array (Option ν)) :
      (ws.foldl (fun slots w => slots.setIfInBounds w.1 (some w.2)) slots).toList =
        ws.foldl (fun column w => column.set w.1 (some w.2)) slots.toList := by
    induction ws generalizing slots with
    | nil => rfl
    | cons w ws ih => rw [List.foldl_cons, List.foldl_cons, ih, Array.toList_setIfInBounds]
  exact run (indexes.zip values) column.toArray

theorem Column.project_eq_map (column : Column ν) (indexes : List Nat) :
    column.project indexes = indexes.map fun i => (column[i]?).join := by
  simp [Column.project]

@[simp] theorem Column.length_write (column : Column ν) (indexes : List Nat) (values : List ν) :
    (column.write indexes values).length = column.length := by
  rw [write_eq_foldl]
  induction indexes.zip values generalizing column with
  | nil => rfl
  | cons w ws ih => rw [List.foldl_cons, ih, List.length_set]

/-- Changes the columns that a batch names. -/
def Columns.update (columns : Columns ν) (b : Batch ν)
    (f : Column ν → List ν → Column ν) : Columns ν :=
  columns.map fun key column =>
    match b.get? key with
    | some values => f column values
    | none => column

def Columns.write (columns : Columns ν) (indexes : List Nat) (b : Batch ν) : Columns ν :=
  columns.update b fun column values => column.write indexes values

def Columns.append (columns : Columns ν) (b : Batch ν) : Columns ν :=
  columns.update b fun column values => column ++ values.map some

/-- The columns of a new store: without slots, or with all slots of a bounded one empty. -/
def StoreConfig.emptyColumns (c : StoreConfig) : Columns ν :=
  let column : Column ν := match c.capacity with
    | .unbounded => []
    | .bounded limit => List.replicate limit none
  KeyMap.ofList (c.keys.map fun key => (key, column))

end ExperienceCollection
