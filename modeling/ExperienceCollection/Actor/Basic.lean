import ExperienceCollection.Actor.Stats
import ExperienceCollection.Log

/-!
# Actors

An actor serves one peer: it works on the instructions that reach it, one after another, until it
is told to exit, its coordinator is gone, or its own behaviour breaks down. From time to time, and
once at its end, it files a report of its statistics; a report is lost when the file is full.
-/

namespace ExperienceCollection

/-- What an actor brings back from one instruction. -/
structure Outcome (ε : Type) where
  experiences : ε
  numExperiences : Nat
  numSteps : Nat
  envEnd : Bool := false
  totalReward : Option Float := none
  envMetrics : Option Params := none

/-- The result to send for an outcome. Metrics are left out unless the instruction asks for them. -/
def Outcome.result {μ ε : Type} (o : Outcome ε) (i : Instruction μ) : Result ε where
  rolloutIndex := i.rolloutIndex
  segmentIndex := i.segmentIndex
  numExperiences := o.numExperiences
  numSteps := o.numSteps
  envEnd := o.envEnd
  totalReward := o.totalReward
  experiences := o.experiences
  envMetrics := if i.returnEnvMetrics then o.envMetrics else none

/-- What an actor does with an instruction, given all its instructions so far with the present one
last. `none` means that it breaks down. -/
abbrev Behaviour (μ ε : Type) := List (Instruction μ) → Option (Outcome ε)

/-- A behaviour given by the outcomes of the first calls and a rule for all later ones. -/
def Behaviour.scripted {μ ε : Type} (script : List (Option (Outcome ε)))
    (later : Instruction μ → Outcome ε) : Behaviour μ ε := fun calls =>
  match script[calls.length - 1]?, calls.getLast? with
  | some outcome, _ => outcome
  | none, some i => some (later i)
  | none, none => none

/-- Reports are filed every `statsInterval` rollouts, or only at the end when it is zero. The file
holds `statsCapacity` reports, but always at least one. -/
structure ActorConfig where
  statsInterval : Nat := 10
  statsCapacity : Nat := 100
  deriving Repr, DecidableEq

/-- Whether an actor is at work, has stopped of its own, or has broken down. -/
inductive Phase where
  | running
  | stopped
  | crashed
  deriving Repr, DecidableEq

/-- How an actor ended: with its last unread report, or broken down. -/
inductive Farewell where
  | report (last : Option Stats)
  | crashed

def Farewell.stats? : Farewell → Option Stats
  | report last => last
  | crashed => none

/-- An actor with the instructions it was called with, the one it is working on, its statistics,
its unread reports, oldest first, and the events it has logged. -/
structure Actor (μ ε : Type) where
  peer : PeerId
  behaviour : Behaviour μ ε
  calls : List (Instruction μ) := []
  task : Option (Instruction μ) := none
  stats : Stats
  reports : List Stats := []
  phase : Phase := .running
  log : List Log.Event := []

namespace Actor

variable {μ ε : Type}

def start (peer : PeerId) (behaviour : Behaviour μ ε) : Actor μ ε where
  peer
  behaviour
  stats := { peer }

/-- Files a report of the statistics, unless the file is full. -/
def report (config : ActorConfig) (a : Actor μ ε) : Actor μ ε :=
  if a.reports.length < max config.statsCapacity 1 then
    { a with reports := a.reports ++ [a.stats] }
  else a

/-- Stops for the reason given as an event, with a last report. -/
def stop (config : ActorConfig) (a : Actor μ ε) (reason : Log.Event) : Actor μ ε :=
  let stopped :=
    { a with
      phase := .stopped
      log := a.log ++ [reason, .actorStopped a.peer a.stats.rollouts a.stats.steps] }
  stopped.report config

/-- Counts an outcome. An episode is counted when it has ended with a reward. -/
def count (a : Actor μ ε) (o : Outcome ε) : Actor μ ε :=
  let stats := a.stats.recordRollout o.numSteps o.numExperiences
  match o.envEnd, o.totalReward with
  | true, some reward => { a with stats := stats.recordEpisode reward }
  | _, _ => { a with stats }

def begin (a : Actor μ ε) (i : Instruction μ) : Actor μ ε :=
  { a with calls := a.calls ++ [i], task := some i }

/-- Ends the work on an instruction: with the result to send, or broken down. -/
def complete (a : Actor μ ε) (i : Instruction μ) : Actor μ ε × Option (Result ε) :=
  let free := { a with task := none }
  match a.behaviour a.calls with
  | none => ({ free with phase := .crashed }, none)
  | some o => (free.count o, some (o.result i))

/-- Goes on after sending a result: with a report when one is due, or to its end when the result
could not be sent. -/
def sent (config : ActorConfig) (a : Actor μ ε) : Except NetworkError Unit → Actor μ ε
  | .error e => a.stop config (.sendFailed a.peer e)
  | .ok _ =>
    if 0 < config.statsInterval ∧ a.stats.rollouts % config.statsInterval = 0 then
      a.report config
    else a

def readReport (a : Actor μ ε) : Option Stats × Actor μ ε :=
  match a.reports with
  | [] => (none, a)
  | oldest :: rest => (some oldest, { a with reports := rest })

def readReports (a : Actor μ ε) : List Stats × Actor μ ε := (a.reports, { a with reports := [] })

/-- What an actor leaves when it is done: its last unread report, if there is one. -/
def farewell (a : Actor μ ε) : Farewell :=
  if a.phase = .crashed then .crashed else .report a.reports.getLast?

end Actor

end ExperienceCollection
