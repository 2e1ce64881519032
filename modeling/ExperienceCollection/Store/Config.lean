import ExperienceCollection.Store.Error

/-!
# Store configuration

A store has named columns and either grows without bound or holds a fixed number of items. A
bounded store needs a policy that picks the items to overwrite once it is full.
-/

namespace ExperienceCollection

inductive Capacity where
  | unbounded
  | bounded (limit : Nat)
  deriving Repr, DecidableEq

namespace Capacity

/-- Reads a capacity from an integer; any negative one means no bound. -/
def ofInt : Int → Capacity
  | .ofNat limit => bounded limit
  | .negSucc _ => unbounded

/-- The integer form: `-1` without a bound, and at most the largest signed 64-bit value. -/
def toInt : Capacity → Int
  | unbounded => -1
  | bounded limit => .ofNat (min limit 0x7fffffffffffffff)

def limit? : Capacity → Option Nat
  | unbounded => none
  | bounded limit => some limit

def isBounded (c : Capacity) : Bool := c.limit?.isSome

end Capacity

/-- Which items a full store overwrites. -/
inductive Policy where
  | rolling
  | random
  deriving Repr, DecidableEq

def Policy.name : Policy → String
  | rolling => "rolling"
  | random => "random"

def Policy.ofName? (name : String) : Except StoreError Policy :=
  if name = "rolling" then .ok rolling
  else if name = "random" then .ok random
  else .error (.invalidConfig (.unknownPolicy name))

/-- What a store is built from: its column names in order of declaration, its capacity and its
policy. -/
structure StoreConfig where
  keys : List String
  capacity : Capacity := .unbounded
  policy : Option Policy := none
  deriving Repr, DecidableEq

/-- The first name that also stands before it. -/
def firstRepeated? : List String → Option String :=
  go []
where
  /-- Looks for a repetition, with the names already met. -/
  go (met : List String) : List String → Option String
    | [] => none
    | key :: rest => if key ∈ met then some key else go (key :: met) rest

namespace StoreConfig

/-- Checks that a configuration describes a usable store: it has columns, no column is declared
twice, and a bound comes with a policy. -/
def validate (c : StoreConfig) : Except StoreError Unit :=
  if c.keys = [] then .error (.invalidConfig .noColumns)
  else match firstRepeated? c.keys with
    | some key => .error (.invalidConfig (.duplicateColumn key))
    | none =>
      if c.capacity.isBounded ∧ c.policy = none then .error (.invalidConfig .policyRequired)
      else .ok ()

end StoreConfig

/-- How a store lays out its columns: growing, or with a fixed length and a policy. -/
inductive Layout where
  | unbounded
  | bounded (capacity : Nat) (policy : Policy)
  deriving Repr, DecidableEq

def StoreConfig.layout (c : StoreConfig) : Except StoreError Layout :=
  match c.capacity, c.policy with
  | .unbounded, _ => .ok .unbounded
  | .bounded capacity, some policy => .ok (.bounded capacity policy)
  | .bounded _, none => .error (.invalidConfig .policyRequired)

end ExperienceCollection
