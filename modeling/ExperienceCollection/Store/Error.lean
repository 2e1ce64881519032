import ExperienceCollection.Text.Quoted

/-!
# Store errors
-/

namespace ExperienceCollection

/-- Why a configuration describes no usable store. -/
inductive ConfigFault where
  | noColumns
  | duplicateColumn (key : String)
  | policyRequired
  | unknownPolicy (name : String)
  deriving Repr, DecidableEq

def ConfigFault.parameter : ConfigFault → String
  | noColumns => "keys"
  | duplicateColumn _ => "keys"
  | policyRequired => "overwrite_policy"
  | unknownPolicy _ => "overwrite_policy"

def ConfigFault.message : ConfigFault → String
  | noColumns => "at least one column is required"
  | duplicateColumn key => s!"duplicate column '{key}'"
  | policyRequired => "required when capacity is bounded"
  | unknownPolicy name => s!"must be 'rolling' or 'random', got '{name}'"

inductive StoreError where
  | schemaMismatch (expected actual : List String)
  | columnLengthMismatch (reference : String) (expected : Nat) (key : String) (actual : Nat)
  | capacityExceeded (added capacity : Nat)
  | overwriteCountMismatch (expected actual : Nat)
  | indexOutOfBounds (index length : Nat)
  | unknownKey (key : String)
  | invalidConfig (fault : ConfigFault)
  deriving Repr, DecidableEq

def StoreError.message : StoreError → String
  | schemaMismatch expected actual =>
    "Schema mismatch: expected keys " ++ Text.quotedList expected ++ ", got " ++
      Text.quotedList actual
  | columnLengthMismatch reference expected key actual =>
    s!"Column length mismatch: '{reference}' has {expected} values but '{key}' has {actual}"
  | capacityExceeded added capacity =>
    s!"Batch of {added} items exceeds store capacity {capacity}"
  | overwriteCountMismatch expected actual =>
    s!"Expected {expected} overwrite indexes, got {actual}"
  | indexOutOfBounds index length =>
    s!"Index {index} out of bounds for column of length {length}"
  | unknownKey key => s!"Unknown key '{key}'"
  | invalidConfig fault =>
    s!"Invalid configuration for '{fault.parameter}': {fault.message}"

end ExperienceCollection
