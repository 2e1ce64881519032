/-!
# Network errors
-/

namespace ExperienceCollection

inductive NetworkError where
  | unknownGroup (role : String)
  | disconnected
  deriving Repr, DecidableEq

def NetworkError.message : NetworkError → String
  | unknownGroup role => s!"unknown peer group '{role}'"
  | disconnected => "transport disconnected"

end ExperienceCollection
