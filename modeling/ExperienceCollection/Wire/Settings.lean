import ExperienceCollection.Collection.Config
import ExperienceCollection.Collection.Metrics
import ExperienceCollection.Store.Config
import ExperienceCollection.Wire.Basic

/-!
# Settings and totals as JSON

The written form of store and coordinator configurations, and of collection metrics.
-/

namespace ExperienceCollection.Wire

open Json (Tree)

/-- Reads a capacity: the name of the unbounded one, or a bound under its name. -/
def capacity? : Reader Capacity := fun levels t => do
  match ← choice? levels t with
  | (_, "Unbounded", value) => if isPlain value then some .unbounded else none
  | (levels, "Bounded", some value) => some (.bounded (← nat? levels value))
  | _ => none

def ofCapacity : Capacity → Tree
  | .unbounded => .ofString "Unbounded"
  | .bounded limit => .ofMembers [("Bounded", .ofNat limit)]

def policy? : Reader Policy := fun levels t => do
  let (_, name, value) ← choice? levels t
  if !isPlain value then none
  else (Policy.ofName? name).toOption

def ofPolicy (p : Policy) : Tree := .ofString p.name

def storeConfig? : Reader StoreConfig := fun levels t => do
  match ← record? ["keys", "capacity", "overwrite_policy"] levels t with
  | (levels, [keys, capacity, policy]) =>
    some
      { keys := ← required? (list? string?) levels keys
        capacity := ← required? capacity? levels capacity
        policy := ← missing? policy? levels policy }
  | _ => none

def ofStoreConfig (c : StoreConfig) : Tree :=
  .ofMembers
    [("keys", ofList .ofString c.keys),
      ("capacity", ofCapacity c.capacity),
      ("overwrite_policy", ofOption ofPolicy c.policy)]

def coordinatorConfig? : Reader CoordinatorConfig := fun levels t => do
  match ← record? ["group_name", "num_peers", "peer_role", "log_env_metrics"] levels t with
  | (levels, [group, count, role, logs]) =>
    some
      { groupName := ← required? string? levels group
        numPeers := ← required? nat? levels count
        peerRole := ← required? string? levels role
        logEnvMetrics := ← required? bool? levels logs }
  | _ => none

def ofCoordinatorConfig (c : CoordinatorConfig) : Tree :=
  .ofMembers
    [("group_name", .ofString c.groupName),
      ("num_peers", .ofNat c.numPeers),
      ("peer_role", .ofString c.peerRole),
      ("log_env_metrics", .bool c.logEnvMetrics)]

def metrics? : Reader Metrics := fun levels t => do
  let names := ["total_experiences_collected", "total_env_steps", "total_reward_per_env"]
  match ← record? names levels t with
  | (levels, [experiences, steps, rewards]) =>
    some
      { experiences := ← required? nat? levels experiences
        steps := ← required? nat? levels steps
        rewards := ← required? (map? float?) levels rewards }
  | _ => none

def ofMetrics (m : Metrics) : Tree :=
  .ofMembers
    [("total_experiences_collected", .ofNat m.experiences),
      ("total_env_steps", .ofNat m.steps),
      ("total_reward_per_env", ofMap ofFloat m.rewards)]

end ExperienceCollection.Wire
