import ExperienceCollection.Wire.Basic

/-!
# Opaque data

Model snapshots and experience batches are handed on without being looked into. `Datum` holds any
such value. Names of a dictionary are distinct and in ascending order.
-/

namespace ExperienceCollection

open Json (Literal Tree)

inductive Datum where
  | null
  | bool (b : Bool)
  | int (i : Int)
  | float (x : Float)
  | text (s : String)
  | list (items : List Datum)
  | dict (members : List (String × Datum))

namespace Datum

/-- Entries in ascending order of their names, the last one of each name. -/
def sorted (members : List (String × Datum)) : List (String × Datum) :=
  (KeyMap.ofList members).entries

mutual
/-- Reads any value. Numbers that denote no integer are doubles. -/
def read? (levels : Nat) : Tree → Option Datum
  | .null => some .null
  | .bool b => some (.bool b)
  | .number n =>
    match n.integer? with
    | some i => some (.int i)
    | none => n.float?.map .float
  | .text l => l.value?.map .text
  | .array items => do
    let levels ← Wire.enter? levels
    some (.list (← readItems? levels items))
  | .object members => do
    let levels ← Wire.enter? levels
    some (.dict (sorted (← readMembers? levels members)))

def readItems? (levels : Nat) : List Tree → Option (List Datum)
  | [] => some []
  | item :: items => do some ((← read? levels item) :: (← readItems? levels items))

def readMembers? (levels : Nat) : List (Literal × Tree) → Option (List (String × Datum))
  | [] => some []
  | (name, value) :: members => do
    some ((← name.value?, ← read? levels value) :: (← readMembers? levels members))
end

mutual
def tree : Datum → Tree
  | .null => .null
  | .bool b => .bool b
  | .int i => .number (Json.Numeral.ofInt i)
  | .float x => Wire.ofFloat x
  | .text s => .ofString s
  | .list items => .array (itemTrees items)
  | .dict members => .object (memberTrees members)

def itemTrees : List Datum → List Tree
  | [] => []
  | item :: items => item.tree :: itemTrees items

def memberTrees : List (String × Datum) → List (Literal × Tree)
  | [] => []
  | (name, value) :: members => (Literal.ofString name, value.tree) :: memberTrees members
end

end Datum

end ExperienceCollection
