import ExperienceCollection.Collection.Config
import ExperienceCollection.Collection.Round

/-!
# Coordinators

A coordinator opens rounds on its network, one after another, and keeps totals over the results
that its rounds accept. Its peers are looked up once, when it is created.
-/

namespace ExperienceCollection

structure Coordinator where
  config : CoordinatorConfig
  peers : List PeerId
  metrics : Metrics := {}

structure Opening (τ : Type) where
  outcome : Except CoordinatorError Round
  network : τ
  log : List Log.Event

/-- What a pull at a round of a coordinator leaves behind. -/
structure Turn (τ ε : Type) where
  outcome : Pulled ε
  coordinator : Coordinator
  round : Round
  network : τ
  log : List Log.Event

/-- What several pulls leave behind: the items handed out, and whether the last pull has to wait. -/
structure Drained (τ ε : Type) where
  items : List (Except NetworkError (AcceptedBatch ε))
  waiting : Bool
  coordinator : Coordinator
  round : Round
  network : τ
  log : List Log.Event

/-- Puts an item and the log of its pull in front of what later pulls leave behind. -/
def Drained.after {τ ε : Type} (item : Except NetworkError (AcceptedBatch ε))
    (log : List Log.Event) (d : Drained τ ε) : Drained τ ε :=
  { d with items := item :: d.items, log := log ++ d.log }

namespace Coordinator

variable {τ μ ε : Type} [Network τ μ ε]

/-- A coordinator for the peers of the configured role, if there are as many as configured. -/
def create (config : CoordinatorConfig) (network : τ) :
    Except CoordinatorError Coordinator × List Log.Event :=
  match config.validate with
  | .error e => (.error (.config e), [])
  | .ok _ =>
    match Network.peers network config.peerRole with
    | .error e => (.error (.ofNetwork e), [])
    | .ok peers =>
      if peers.length ≠ config.numPeers then
        (.error (.peerCountMismatch config.peerRole config.numPeers peers.length), [])
      else
        (.ok { config, peers },
          [.coordinatorReady (Network.node network) config.groupName peers.length
            config.peerRole])

def numPeers (c : Coordinator) : Nat := c.peers.length

/-- Sends the instruction of a request to the peers and opens a round for the results. -/
def collect (c : Coordinator) (network : τ) (q : Request μ) : Opening τ :=
  let required := q.requiredFinishes.getD c.numPeers
  let header : List Log.Event :=
    if c.config.logEnvMetrics then
      [.roundOpened q.rolloutIndex q.segmentIndex q.numSteps q.explorationParams]
    else []
  let d := Network.broadcast network c.config.peerRole (.rollout q.toInstruction)
  match d.outcome with
  | .error e =>
    { outcome := .error (.ofNetwork e), network := d.network, log := header ++ d.log }
  | .ok _ =>
    { outcome := .ok
        { rolloutIndex := q.rolloutIndex
          segmentIndex := q.segmentIndex
          required
          discardStale := q.discardStale }
      network := d.network
      log := header ++ d.log ++
        [.collecting q.rolloutIndex q.segmentIndex c.numPeers required] }

def next (c : Coordinator) (r : Round) (network : τ) : Turn τ ε :=
  let p := r.pull c.config.logEnvMetrics (Network.isClosed network) c.metrics
    (Network.arrivals network)
  { outcome := p.outcome
    coordinator := { c with metrics := p.metrics }
    round := p.round
    network := Network.consume network p.consumed
    log := p.log }

/-- At most `n` pulls. They stop at the end of the round, and at a wait. -/
def drain : Nat → Coordinator → Round → τ → Drained τ ε
  | 0, c, r, network => ⟨[], false, c, r, network, []⟩
  | n + 1, c, r, network =>
    let t := c.next r network
    match t.outcome with
    | .ended => ⟨[], false, t.coordinator, t.round, t.network, t.log⟩
    | .waiting => ⟨[], true, t.coordinator, t.round, t.network, t.log⟩
    | .batch b => (drain n t.coordinator t.round t.network).after (.ok b) t.log
    | .failed e => (drain n t.coordinator t.round t.network).after (.error e) t.log

/-- Pulls until the end of the round or a wait. Each pull but the last two takes an arrival. -/
def drainAll (c : Coordinator) (r : Round) (network : τ) : Drained τ ε :=
  drain ((Network.arrivals network).length + 2) c r network

/-- Tells the peers to stop. A failure is logged and otherwise passed over. -/
def exit (c : Coordinator) (network : τ) : τ × List Log.Event :=
  let d := Network.broadcast network c.config.peerRole .exit
  match d.outcome with
  | .ok _ => (d.network, d.log ++ [.exitSent c.numPeers])
  | .error e => (d.network, d.log ++ [.exitFailed e])

end Coordinator

end ExperienceCollection
