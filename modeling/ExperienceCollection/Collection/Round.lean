import ExperienceCollection.Collection.Metrics
import ExperienceCollection.Network.Basic

/-!
# Collection rounds

A round asks for the results of one segment of one rollout. It takes arrivals off the queue one by
one until enough results of its segment have come:

* a result of another rollout is dropped,
* a result of its segment counts and is handed out,
* a result of another segment is dropped or handed out without counting, as the round says.

Arrivals behind the last result that counts stay in the queue for later rounds.
-/

namespace ExperienceCollection

/-- What a round is asked to collect: the answers to an instruction, as many as
`requiredFinishes` or one for every peer, with or without stale results. -/
structure Request (μ : Type) extends Instruction μ where
  requiredFinishes : Option Nat := none
  discardStale : Bool := true

/-- A result that a round hands out. Its segment differs from that of the round when it is stale. -/
structure AcceptedBatch (ε : Type) where
  experiences : ε
  envEnd : Bool
  source : PeerId
  segmentIndex : Nat
  envMetrics : Option Params

/-- A round under way: what it collects, how many results have counted, and whether the network
broke down. -/
structure Round where
  rolloutIndex : Nat
  segmentIndex : Nat
  required : Nat
  discardStale : Bool
  finished : Nat := 0
  closed : Bool := false
  deriving Repr, DecidableEq

/-- Counts an accepted result, and its reward when it ends an episode. -/
def Metrics.accept {ε : Type} (m : Metrics) (source : PeerId) (result : Result ε) :
    Metrics × List Log.Event :=
  let counted := m.recordResult result.numExperiences result.numSteps
  match result.envEnd, result.totalReward with
  | true, some reward =>
    (counted.recordReward source reward,
      [.episodeEnded source result.rolloutIndex reward (counted.rewardAfter source reward)])
  | _, _ => (counted, [])

/-- How one pull at a round ends: with a batch, with a failure of the network, at the end of the
round, or waiting for an arrival. -/
inductive Pulled (ε : Type) where
  | batch (b : AcceptedBatch ε)
  | failed (e : NetworkError)
  | ended
  | waiting

/-- What one pull leaves behind, with the number of arrivals it took off the queue. -/
structure Pull (ε : Type) where
  outcome : Pulled ε
  round : Round
  metrics : Metrics
  log : List Log.Event := []
  consumed : Nat := 0

namespace Round

variable {ε : Type}

def isDone (r : Round) : Bool := r.closed || r.required ≤ r.finished

def metricsNote (logMetrics : Bool) (source : PeerId) (result : Result ε) : List Log.Event :=
  match logMetrics, result.envMetrics with
  | true, some metrics =>
    [.envMetrics source result.rolloutIndex result.segmentIndex metrics]
  | _, _ => []

/-- Judges one result: the batch it gives, with the round and the metrics after it, if it is not
dropped. -/
def accept (logMetrics : Bool) (r : Round) (m : Metrics) (envelope : Envelope (Result ε)) :
    Option (AcceptedBatch ε × Round × Metrics) × List Log.Event :=
  let source := envelope.source
  let result := envelope.body
  if result.rolloutIndex ≠ r.rolloutIndex then
    (none, [.foreignResult source result.rolloutIndex r.rolloutIndex])
  else
    let note := metricsNote logMetrics source result
    if result.segmentIndex ≠ r.segmentIndex ∧ r.discardStale then
      (none, note ++ [.staleResult source result.segmentIndex r.segmentIndex])
    else
      let finished := if result.segmentIndex = r.segmentIndex then r.finished + 1 else r.finished
      let (metrics, log) := m.accept source result
      let batch : AcceptedBatch ε :=
        { experiences := result.experiences
          envEnd := result.envEnd
          source
          segmentIndex := result.segmentIndex
          envMetrics := result.envMetrics }
      (some (batch, { r with finished }, metrics), note ++ log)

def fail (r : Round) (m : Metrics) (e : NetworkError) : Pull ε where
  outcome := .failed e
  round := { r with closed := true }
  metrics := m
  log := [.roundBroken r.rolloutIndex r.segmentIndex e]

/-- Takes arrivals off the queue up to the next batch, a failure, or the end of the round. `closed`
says that the queue will not be filled again. -/
def pull (logMetrics closed : Bool) (r : Round) (m : Metrics) : List (Arrival ε) → Pull ε
  | [] =>
    if r.isDone then { outcome := .ended, round := r, metrics := m }
    else if closed then r.fail m .disconnected
    else { outcome := .waiting, round := r, metrics := m }
  | arrival :: rest =>
    if r.isDone then { outcome := .ended, round := r, metrics := m }
    else match arrival with
      | .error e => { r.fail m e with consumed := 1 }
      | .ok envelope =>
        match r.accept logMetrics m envelope with
        | (some (batch, round, metrics), log) =>
          { outcome := .batch batch, round, metrics, log, consumed := 1 }
        | (none, log) =>
          let p := pull logMetrics closed r m rest
          { p with log := log ++ p.log, consumed := p.consumed + 1 }

end Round

end ExperienceCollection
