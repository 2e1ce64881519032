import ExperienceCollection.Decimal.Fixed
import ExperienceCollection.Decimal.Shortest
import ExperienceCollection.Message
import ExperienceCollection.Network.Error
import ExperienceCollection.Text.Quoted

/-!
# Log

Operations report what happens as a list of events, oldest first. An event keeps the facts; its
level and its line of text are derived from them.
-/

namespace ExperienceCollection.Log

inductive Level where
  | error
  | warn
  | info
  | debug
  | trace
  deriving Repr, DecidableEq

def Level.name : Level → String
  | error => "error"
  | warn => "warn"
  | info => "info"
  | debug => "debug"
  | trace => "trace"

/-- What can happen while experiences are collected and stored. -/
inductive Event where
  | unknownColumn (key : String)
  | peerGone (peer : PeerId) (tag : Tag)
  | coordinatorReady (node : PeerId) (group : String) (peers : Nat) (role : String)
  | roundOpened (rollout segment steps : Nat) (exploration : Option Params)
  | collecting (rollout segment peers quorum : Nat)
  | exitSent (peers : Nat)
  | exitFailed (error : NetworkError)
  | foreignResult (source : PeerId) (rollout collected : Nat)
  | envMetrics (source : PeerId) (rollout segment : Nat) (metrics : Params)
  | staleResult (source : PeerId) (segment collected : Nat)
  | episodeEnded (source : PeerId) (rollout : Nat) (reward total : Float)
  | roundBroken (rollout segment : Nat) (error : NetworkError)
  | actorsSpawned (count : Nat)
  | coordinatorGone (actor : PeerId)
  | exitReceived (actor : PeerId)
  | sendFailed (actor : PeerId) (error : NetworkError)
  | actorStopped (actor : PeerId) (rollouts steps : Nat)

/-- Named scalars between braces. -/
def paramsText (params : Params) : String :=
  let entries := params.entries.map fun e => Text.quoted e.1 ++ ": " ++ Decimal.text e.2
  "\x7b" ++ ", ".intercalate entries ++ "\x7d"

def optionalParamsText : Option Params → String
  | none => "None"
  | some params => "Some(" ++ paramsText params ++ ")"

namespace Event

def level : Event → Level
  | unknownColumn .. => .debug
  | peerGone .. => .warn
  | coordinatorReady .. => .info
  | roundOpened .. => .info
  | collecting .. => .debug
  | exitSent .. => .info
  | exitFailed .. => .warn
  | foreignResult .. => .debug
  | envMetrics .. => .info
  | staleResult .. => .debug
  | episodeEnded .. => .info
  | roundBroken .. => .warn
  | actorsSpawned .. => .info
  | coordinatorGone .. => .debug
  | exitReceived .. => .debug
  | sendFailed .. => .warn
  | actorStopped .. => .info

def text : Event → String
  | unknownColumn key => s!"update() got column '{key}' outside the schema"
  | peerGone peer tag => s!"Peer {peer} is gone, dropped {tag.name} message"
  | coordinatorReady node group peers role =>
    s!"Coordinator {node} ready for group '{group}' with {peers} '{role}' peers"
  | roundOpened rollout segment steps exploration =>
    s!"Rollout {rollout} segment {segment}: {steps} steps, exploration " ++
      optionalParamsText exploration
  | collecting rollout segment peers quorum =>
    s!"Collecting rollout {rollout} segment {segment} from {peers} peers, quorum {quorum}"
  | exitSent peers => s!"Sent exit to {peers} peers"
  | exitFailed error => s!"Exit broadcast failed: {error.message}"
  | foreignResult source rollout collected =>
    s!"Dropped result from {source} for rollout {rollout} (collecting rollout {collected})"
  | envMetrics source rollout segment metrics =>
    s!"Env metrics from {source} (rollout {rollout} segment {segment}): " ++ paramsText metrics
  | staleResult source segment collected =>
    s!"Dropped stale result from {source} for segment {segment} (collecting segment {collected})"
  | episodeEnded source rollout reward total =>
    s!"Env {source} finished rollout {rollout} with reward " ++ Decimal.fixed 3 reward ++
      " (total " ++ Decimal.fixed 3 total ++ ")"
  | roundBroken rollout segment error =>
    s!"Transport closed while collecting rollout {rollout} segment {segment}: {error.message}"
  | actorsSpawned count => s!"Spawned {count} rollout actors"
  | coordinatorGone actor => s!"Actor {actor}: coordinator gone, stopping"
  | exitReceived actor => s!"Actor {actor}: exit received"
  | sendFailed actor error => s!"Actor {actor}: failed to send result: {error.message}"
  | actorStopped actor rollouts steps =>
    s!"Actor {actor} stopped after {rollouts} rollouts, {steps} steps"

end Event

end ExperienceCollection.Log
