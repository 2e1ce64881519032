import ExperienceCollection.Network.Basic

/-!
# Scripted networks

A network whose groups, arrivals and failures are given by its user, for trying out coordinators.
It accepts every broadcast and keeps a record of it, also when it then reports a failure.
-/

namespace ExperienceCollection

/-- A network that does as it is told. It never closes: more arrivals may always be added. -/
structure ScriptedNetwork (μ ε : Type) where
  node : PeerId
  groups : KeyMap (List PeerId)
  inbox : List (Arrival ε) := []
  peersFailure : Option NetworkError := none
  broadcastFailure : Option NetworkError := none
  sent : List (String × Command μ) := []

namespace ScriptedNetwork

variable {μ ε : Type}

def peers (n : ScriptedNetwork μ ε) (role : String) : Except NetworkError (List PeerId) :=
  match n.peersFailure, n.groups.get? role with
  | some e, _ => .error e
  | none, some ids => .ok ids
  | none, none => .error (.unknownGroup role)

/-- Records a broadcast; any role will do. -/
def broadcast (n : ScriptedNetwork μ ε) (role : String) (command : Command μ) :
    Delivery (ScriptedNetwork μ ε) where
  outcome := match n.broadcastFailure with
    | some e => .error e
    | none => .ok ()
  network := { n with sent := n.sent ++ [(role, command)] }

instance : Network (ScriptedNetwork μ ε) μ ε where
  node := node
  peers := peers
  broadcast := broadcast
  arrivals := inbox
  isClosed _ := false
  consume n k := { n with inbox := n.inbox.drop k }

def push (n : ScriptedNetwork μ ε) (a : Arrival ε) : ScriptedNetwork μ ε :=
  { n with inbox := n.inbox ++ [a] }

end ScriptedNetwork

end ExperienceCollection
