import ExperienceCollection.KeyMap

/-!
# Messages

A collection round is named by a rollout index and a segment index. The coordinator sends
commands to its peers; a peer answers an instruction with a result that repeats both indices, so
that results can be matched in whatever order they arrive.
-/

namespace ExperienceCollection

/-- The name of a node: the coordinator or one of its peers. -/
abbrev PeerId := String

/-- Named scalars: exploration settings and environment metrics. -/
abbrev Params := KeyMap Float

inductive Tag where
  | rollout
  | rolloutResult
  | exit
  deriving Repr, DecidableEq

def Tag.name : Tag → String
  | rollout => "rollout"
  | rolloutResult => "rollout_result"
  | exit => "exit"

def Tag.ofName? (name : String) : Option Tag :=
  [rollout, rolloutResult, exit].find? fun t => t.name = name

/-- Whether the receiver of a message is expected to act and reply. -/
inductive Session where
  | task
  | notification
  deriving Repr, DecidableEq

def Session.name : Session → String
  | task => "task"
  | notification => "notification"

def Session.ofName? (name : String) : Option Session :=
  [task, notification].find? fun k => k.name = name

/-- A message under way, stamped with its sender, its tag and its session kind. -/
structure Envelope (β : Type) where
  source : PeerId
  tag : Tag
  session : Session
  body : β

/-- The order to run one segment of a rollout. `μ` is the type of model snapshots. -/
structure Instruction (μ : Type) where
  rolloutIndex : Nat
  segmentIndex : Nat
  numSteps : Nat
  models : Option μ := none
  explorationParams : Option Params := none
  returnEnvMetrics : Bool := false

/-- The answer to one instruction. `ε` is the type of experience batches. -/
structure Result (ε : Type) where
  rolloutIndex : Nat
  segmentIndex : Nat
  numExperiences : Nat
  numSteps : Nat
  envEnd : Bool := false
  totalReward : Option Float := none
  experiences : ε
  envMetrics : Option Params := none

inductive Command (μ : Type) where
  | rollout (instruction : Instruction μ)
  | exit

def Command.tag {μ : Type} : Command μ → Tag
  | rollout _ => .rollout
  | exit => .exit

/-- The session kind of a command: only an instruction asks for a reply. -/
def Command.session {μ : Type} : Command μ → Session
  | rollout _ => .task
  | exit => .notification

def Command.envelope {μ : Type} (source : PeerId) (c : Command μ) : Envelope (Command μ) :=
  ⟨source, c.tag, c.session, c⟩

def Result.envelope {ε : Type} (source : PeerId) (r : Result ε) : Envelope (Result ε) :=
  ⟨source, .rolloutResult, .task, r⟩

end ExperienceCollection
