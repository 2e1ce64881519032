import ExperienceCollection.Network.Error

/-!
# Coordinator configuration
-/

namespace ExperienceCollection

/-- Why a coordinator configuration is refused. -/
inductive SettingError where
  | invalidCount (field : String) (value : Nat)
  | emptyField (field : String)
  deriving Repr, DecidableEq

def SettingError.message : SettingError → String
  | invalidCount field value => s!"{field} must be > 0, got {value}"
  | emptyField field => s!"{field} must not be empty"

/-- What a coordinator is built from: the group it belongs to, the number of peers it expects, the
role they are registered under, and whether it logs environment metrics. -/
structure CoordinatorConfig where
  groupName : String
  numPeers : Nat
  peerRole : String := "actor"
  logEnvMetrics : Bool := false
  deriving Repr, DecidableEq

/-- Checks that names are not empty and that peers are expected. -/
def CoordinatorConfig.validate (c : CoordinatorConfig) : Except SettingError Unit :=
  if c.groupName = "" then .error (.emptyField "group_name")
  else if c.peerRole = "" then .error (.emptyField "peer_role")
  else if c.numPeers = 0 then .error (.invalidCount "num_peers" 0)
  else .ok ()

inductive CoordinatorError where
  | config (error : SettingError)
  | unrecognizedPeerGroup (role : String)
  | peerCountMismatch (role : String) (expected actual : Nat)
  | network (error : NetworkError)
  deriving Repr, DecidableEq

namespace CoordinatorError

def ofNetwork : NetworkError → CoordinatorError
  | .unknownGroup role => unrecognizedPeerGroup role
  | .disconnected => network .disconnected

def message : CoordinatorError → String
  | config error => s!"Invalid configuration: {error.message}"
  | unrecognizedPeerGroup role => s!"Unrecognized peer group '{role}'"
  | peerCountMismatch role expected actual =>
    s!"Expected {expected} peers with role '{role}', found {actual}"
  | network error => s!"Transport error: {error.message}"

def cause? : CoordinatorError → Option String
  | config error => some error.message
  | network error => some error.message
  | _ => none

end CoordinatorError

end ExperienceCollection
