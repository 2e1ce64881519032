import ExperienceCollection.Json.Tree
import ExperienceCollection.KeyMap

/-!
# Values as JSON

How plain values are read from JSON trees and written as them.

Readers get the number of container levels they may still open, so that deep nesting is refused.
Records are objects; their members may come in any order and members with other names are passed
over without a look at their values, but no member may be repeated. A record may also be an array
of exactly its members in their own order.
-/

namespace ExperienceCollection.Wire

open Json (Literal Tree)

/-- Number of nested containers that readers accept. -/
def depthLimit : Nat := 127

/-- The levels left after opening a container. -/
def enter? : Nat → Option Nat
  | 0 => none
  | levels + 1 => some levels

/-- Reads a value from a tree within a number of container levels. -/
abbrev Reader (α : Type) := Nat → Tree → Option α

def string? : Reader String
  | _, .text l => l.value?
  | _, _ => none

def bool? : Reader Bool
  | _, .bool b => some b
  | _, _ => none

/-- Reads a natural number of at most 64 bits. -/
def nat? : Reader Nat
  | _, .number n =>
    match n.integer? with
    | some (.ofNat value) => some value
    | _ => none
  | _, _ => none

/-- Reads a double from any number in range. -/
def float? : Reader Float
  | _, .number n => n.float?
  | _, _ => none

def optional? {α : Type} (read : Reader α) : Reader (Option α)
  | _, .null => some none
  | levels, t => (read levels t).map some

def list? {α : Type} (read : Reader α) : Reader (List α)
  | levels, .array items => do
    let levels ← enter? levels
    items.mapM (read levels)
  | _, _ => none

/-- The members of an object with their names as strings. -/
def named? (members : List (Literal × Tree)) : Option (List (String × Tree)) :=
  members.mapM fun m => do some ((← m.1.value?), m.2)

/-- Reads an object as a map; of repeated names the last one stays. -/
def map? {α : Type} (read : Reader α) : Reader (KeyMap α)
  | levels, .object members => do
    let levels ← enter? levels
    let members ← named? members
    let entries ← members.mapM fun m => do some (m.1, ← read levels m.2)
    some (KeyMap.ofList entries)
  | _, _ => none

/-- The value of the only member with a name: missing, present, or repeated and so refused. -/
def member? (members : List (String × Tree)) (name : String) : Option (Option Tree) :=
  match members.filter fun m => m.1 = name with
  | [] => some none
  | [m] => some (some m.2)
  | _ => none

/-- The members of a record in the order of their names, and the levels left for them. -/
def record? (names : List String) : Reader (Nat × List (Option Tree))
  | levels, .object members => do
    let levels ← enter? levels
    let members ← named? members
    some (levels, ← names.mapM (member? members))
  | levels, .array items => do
    let levels ← enter? levels
    if items.length = names.length then some (levels, items.map some) else none
  | _, _ => none

def required? {α : Type} (read : Reader α) (levels : Nat) : Option Tree → Option α
  | none => none
  | some t => read levels t

/-- Reads a member that may be missing or `null`. -/
def missing? {α : Type} (read : Reader α) (levels : Nat) : Option Tree → Option (Option α)
  | none => some none
  | some t => optional? read levels t

/-- Reads one of several alternatives: a bare name, or a name with the value that belongs to it as
the only member of an object. A bare name is an alternative without a value. -/
def choice? : Reader (Nat × String × Option Tree)
  | levels, .text l => do some (levels, ← l.value?, none)
  | levels, .object [(name, value)] => do
    let levels ← enter? levels
    some (levels, ← name.value?, some value)
  | _, _ => none

/-- Whether an alternative comes without a value, which may be written as `null`. -/
def isPlain : Option Tree → Bool
  | none => true
  | some .null => true
  | some _ => false

/-- Infinities and what is not a number have no numeral. -/
def ofFloat (x : Float) : Tree :=
  match Json.Numeral.ofFloat? x with
  | some n => .number n
  | none => .null

/-- An optional value, `null` when it is missing. -/
def ofOption {α : Type} (write : α → Tree) : Option α → Tree
  | none => .null
  | some a => write a

def ofList {α : Type} (write : α → Tree) (items : List α) : Tree := .array (items.map write)

def ofMap {α : Type} (write : α → Tree) (m : KeyMap α) : Tree :=
  .ofMembers (m.entries.map fun e => (e.1, write e.2))

def decode? {α : Type} (read : Reader α) (text : String) : Option α := do
  read depthLimit (← Tree.parse? text)

end ExperienceCollection.Wire
