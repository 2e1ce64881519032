import ExperienceCollection.Log
import ExperienceCollection.Random.Sample
import ExperienceCollection.Store.Columns

/-!
# Experience stores

A store holds records column by column. All columns have the same length: the number of items of
an unbounded store, and the capacity of a bounded one, whose first `size` slots are in use.

When a batch does not fit into a bounded store, the free slots at the end are filled and the
policy picks the items to overwrite. The rolling policy writes a run of slots that starts at
`size - capacity` and counts negative places from the end; the random policy draws the places
after filling the free slots. The caller may choose them instead.
-/

namespace ExperienceCollection

/-- A store of records with values of type `ν` that draws random places from a source `ρ`. -/
structure Store (ν ρ : Type) where
  config : StoreConfig
  layout : Layout
  columns : Columns ν
  size : Nat
  random : ρ

namespace Store

variable {ν ρ : Type}

/-- What a changing call leaves behind: its answer, the store, and the events to log. -/
structure Reply (ν ρ α : Type) where
  answer : Except StoreError α
  store : Store ν ρ
  log : List Log.Event := []

def create (config : StoreConfig) (random : ρ) : Except StoreError (Store ν ρ) := do
  config.validate
  let layout ← config.layout
  return { config, layout, columns := config.emptyColumns, size := 0, random }

def isEmpty (s : Store ν ρ) : Bool := s.size == 0

def schemaMismatch (s : Store ν ρ) (b : Batch ν) : StoreError :=
  .schemaMismatch s.columns.keys b.keys

/-- Checks that a batch names all the columns and nothing else: as many names as there are columns,
each of them a column. -/
def checkSchema (s : Store ν ρ) (b : Batch ν) : Except StoreError Unit :=
  if b.size = s.columns.size && b.keys.all s.columns.contains then .ok ()
  else .error (s.schemaMismatch b)

/-- The places of a rolling write: a run from `size - capacity`, taken modulo the capacity. -/
def rollingIndexes (capacity size added : Nat) : List Nat :=
  (List.range added).map fun j : Nat => (((size : Int) - capacity + j) % capacity).toNat

/-- The places a batch of `added` items is written to in a bounded store. Words are drawn only
when places have to be picked at random. -/
def planIndexes [Random.Source ρ] (capacity : Nat) (policy : Policy) (size added : Nat)
    (victims : Option (List Nat)) (random : ρ) : Except StoreError (List Nat) × ρ :=
  if capacity < added then (.error (.capacityExceeded added capacity), random)
  else if size + added ≤ capacity then (.ok (List.range' size added), random)
  else
    let overflow := size + added - capacity
    let free := List.range' size (capacity - size)
    match victims, policy with
    | some victims, _ =>
      if victims.length ≠ overflow then
        (.error (.overwriteCountMismatch overflow victims.length), random)
      else match victims.find? fun i => capacity ≤ i with
        | some index => (.error (.indexOutOfBounds index capacity), random)
        | none => (.ok (free ++ victims), random)
    | none, .rolling => (.ok (rollingIndexes capacity size added), random)
    | none, .random =>
      let (victims, random) := Random.sample size overflow random
      (.ok (free ++ victims), random)

/-- Adds a batch and answers with the places written, in the order of the values. `victims` names
the places to overwrite when a bounded store would overflow; it plays no part otherwise. -/
def put [Random.Source ρ] (s : Store ν ρ) (b : Batch ν) (victims : Option (List Nat)) :
    Reply ν ρ (List Nat) :=
  match s.checkSchema b, b.commonLength with
  | .error e, _ => { answer := .error e, store := s }
  | .ok _, .error e => { answer := .error e, store := s }
  | .ok _, .ok added =>
    match s.layout with
    | .unbounded =>
      { answer := .ok (List.range' s.size added)
        store := { s with columns := s.columns.append b, size := s.size + added } }
    | .bounded capacity policy =>
      match planIndexes capacity policy s.size added victims s.random with
      | (.error e, random) => { answer := .error e, store := { s with random } }
      | (.ok indexes, random) =>
        { answer := .ok indexes
          store :=
            { s with
              columns := s.columns.write indexes b
              size := min capacity (s.size + added)
              random } }

def physicalLength (s : Store ν ρ) : Nat :=
  match s.layout with
  | .unbounded => s.size
  | .bounded capacity _ => capacity

/-- Overwrites the values at the given places in the columns that the batch names. Values and
places are paired in order. Free slots of a bounded store may be written, the size stays. -/
def update (s : Store ν ρ) (indexes : List Nat) (b : Batch ν) : Reply ν ρ (List Nat) :=
  match b.commonLength with
  | .error e => { answer := .error e, store := s }
  | .ok added =>
    match b.keys.find? fun key => !s.columns.contains key with
    | some key =>
      { answer := .error (s.schemaMismatch b), store := s, log := [.unknownColumn key] }
    | none =>
      match (indexes.take added).find? fun i => s.physicalLength ≤ i with
      | some index => { answer := .error (.indexOutOfBounds index s.physicalLength), store := s }
      | none =>
        { answer := .ok indexes, store := { s with columns := s.columns.write indexes b } }

/-- Drops all items; columns, capacity and policy stay. -/
def clear (s : Store ν ρ) : Store ν ρ :=
  { s with columns := s.config.emptyColumns, size := 0 }

def getByKey (s : Store ν ρ) (key : String) : Except StoreError (Column ν) :=
  match s.columns.get? key with
  | some column => .ok column
  | none => .error (.unknownKey key)

/-- Number of slots in the columns, zero without a column. -/
def columnLength (s : Store ν ρ) : Nat := (s.columns.values.head?.map List.length).getD 0

/-- A copy of all columns, with their empty slots, or of the slots at the given places. -/
def get (s : Store ν ρ) (indexes : Option (List Nat)) : Except StoreError (Columns ν) :=
  match indexes with
  | none => .ok s.columns
  | some indexes =>
    match indexes.find? fun i => s.columnLength ≤ i with
    | some index => .error (.indexOutOfBounds index s.columnLength)
    | none => .ok (s.columns.map fun _ column => column.project indexes)

def record (s : Store ν ρ) (index : Nat) : Except StoreError (KeyMap (Option ν)) :=
  if s.columnLength ≤ index then .error (.indexOutOfBounds index s.columnLength)
  else .ok (s.columns.map fun _ column => (column[index]?).join)

def dumps (s : Store ν ρ) : Columns ν := s.columns

end Store

end ExperienceCollection
