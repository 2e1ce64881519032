import ExperienceCollection.Message
import ExperienceCollection.Wire.Basic

/-!
# Messages as JSON

The written form of instructions, results, commands and envelopes. Readers and writers of model
snapshots and experience batches are parameters.
-/

namespace ExperienceCollection.Wire

open Json (Tree)

variable {μ ε β : Type}

def params? : Reader Params := map? float?

def ofParams : Params → Tree := ofMap ofFloat

def instruction? (model? : Reader μ) : Reader (Instruction μ) := fun levels t => do
  let names := ["rollout_index", "segment_index", "num_steps", "models", "exploration_params",
    "return_env_metrics"]
  match ← record? names levels t with
  | (levels, [rollout, segment, steps, models, exploration, metrics]) =>
    some
      { rolloutIndex := ← required? nat? levels rollout
        segmentIndex := ← required? nat? levels segment
        numSteps := ← required? nat? levels steps
        models := ← missing? model? levels models
        explorationParams := ← missing? params? levels exploration
        returnEnvMetrics := ← required? bool? levels metrics }
  | _ => none

def ofInstruction (ofModel : μ → Tree) (i : Instruction μ) : Tree :=
  .ofMembers
    [("rollout_index", .ofNat i.rolloutIndex),
      ("segment_index", .ofNat i.segmentIndex),
      ("num_steps", .ofNat i.numSteps),
      ("models", ofOption ofModel i.models),
      ("exploration_params", ofOption ofParams i.explorationParams),
      ("return_env_metrics", .bool i.returnEnvMetrics)]

def result? (experiences? : Reader ε) : Reader (Result ε) := fun levels t => do
  let names := ["rollout_index", "segment_index", "num_experiences", "num_steps", "env_end",
    "total_reward", "experiences", "env_metrics"]
  match ← record? names levels t with
  | (levels, [rollout, segment, count, steps, ended, reward, experiences, metrics]) =>
    some
      { rolloutIndex := ← required? nat? levels rollout
        segmentIndex := ← required? nat? levels segment
        numExperiences := ← required? nat? levels count
        numSteps := ← required? nat? levels steps
        envEnd := ← required? bool? levels ended
        totalReward := ← missing? float? levels reward
        experiences := ← required? experiences? levels experiences
        envMetrics := ← missing? params? levels metrics }
  | _ => none

def ofResult (ofExperiences : ε → Tree) (r : Result ε) : Tree :=
  .ofMembers
    [("rollout_index", .ofNat r.rolloutIndex),
      ("segment_index", .ofNat r.segmentIndex),
      ("num_experiences", .ofNat r.numExperiences),
      ("num_steps", .ofNat r.numSteps),
      ("env_end", .bool r.envEnd),
      ("total_reward", ofOption ofFloat r.totalReward),
      ("experiences", ofExperiences r.experiences),
      ("env_metrics", ofOption ofParams r.envMetrics)]

/-- Reads a command: an instruction under its name, or the name of the exit. -/
def command? (model? : Reader μ) : Reader (Command μ) := fun levels t => do
  match ← choice? levels t with
  | (levels, "Rollout", some value) => some (.rollout (← instruction? model? levels value))
  | (_, "Exit", value) => if isPlain value then some .exit else none
  | _ => none

def ofCommand (ofModel : μ → Tree) : Command μ → Tree
  | .rollout i => .ofMembers [("Rollout", ofInstruction ofModel i)]
  | .exit => .ofString "Exit"

def tag? : Reader Tag := fun levels t => do
  let (_, name, value) ← choice? levels t
  if !isPlain value then none
  else if name = "Rollout" then some .rollout
  else if name = "RolloutResult" then some .rolloutResult
  else if name = "Exit" then some .exit
  else none

def ofTag : Tag → Tree
  | .rollout => .ofString "Rollout"
  | .rolloutResult => .ofString "RolloutResult"
  | .exit => .ofString "Exit"

def session? : Reader Session := fun levels t => do
  let (_, name, value) ← choice? levels t
  if !isPlain value then none
  else if name = "Task" then some .task
  else if name = "Notification" then some .notification
  else none

def ofSession : Session → Tree
  | .task => .ofString "Task"
  | .notification => .ofString "Notification"

def envelope? (body? : Reader β) : Reader (Envelope β) := fun levels t => do
  match ← record? ["source", "tag", "session", "body"] levels t with
  | (levels, [source, tag, session, body]) =>
    some
      { source := ← required? string? levels source
        tag := ← required? tag? levels tag
        session := ← required? session? levels session
        body := ← required? body? levels body }
  | _ => none

def ofEnvelope (ofBody : β → Tree) (e : Envelope β) : Tree :=
  .ofMembers
    [("source", .ofString e.source),
      ("tag", ofTag e.tag),
      ("session", ofSession e.session),
      ("body", ofBody e.body)]

end ExperienceCollection.Wire
