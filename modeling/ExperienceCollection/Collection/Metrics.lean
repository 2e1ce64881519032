import ExperienceCollection.Counter
import ExperienceCollection.Message

/-!
# Collection metrics

Totals over the results a coordinator has accepted. They only grow.
-/

namespace ExperienceCollection

/-- Totals over accepted results: experiences, environment steps, and the sum of the episode
rewards of each peer that has ended an episode. -/
structure Metrics where
  experiences : Nat := 0
  steps : Nat := 0
  rewards : KeyMap Float := .empty

namespace Metrics

def recordResult (m : Metrics) (experiences steps : Nat) : Metrics :=
  { m with
    experiences := Counter.add m.experiences experiences
    steps := Counter.add m.steps steps }

/-- The reward total of a peer, if it has ended an episode. -/
def totalReward? (m : Metrics) (source : PeerId) : Option Float := m.rewards.get? source

/-- The reward total of a peer after one more episode; totals start at zero. -/
def rewardAfter (m : Metrics) (source : PeerId) (reward : Float) : Float :=
  (m.totalReward? source).getD 0.0 + reward

/-- Adds the reward of an ended episode to the total of its peer. -/
def recordReward (m : Metrics) (source : PeerId) (reward : Float) : Metrics :=
  { m with rewards := m.rewards.insert source (m.rewardAfter source reward) }

end Metrics

end ExperienceCollection
