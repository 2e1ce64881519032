import ExperienceCollection.Counter
import ExperienceCollection.Message

/-!
# Actor statistics

Counters over the rollouts an actor has served, and the mean of its episode rewards. Rewards that
are not finite are counted but kept out of the mean. Rollouts, steps and experiences are sums of
counts; episodes are counted one by one.
-/

namespace ExperienceCollection

/-- Statistics of one actor, or the totals of several. -/
structure Stats where
  peer : PeerId
  rollouts : Nat := 0
  steps : Nat := 0
  experiences : Nat := 0
  episodes : Nat := 0
  validEpisodes : Nat := 0
  filteredEpisodes : Nat := 0
  avgEpisodeReward : Float := 0.0
  recentEpisodeReward : Float := 0.0

namespace Stats

def recordRollout (s : Stats) (steps experiences : Nat) : Stats :=
  { s with
    rollouts := Counter.add s.rollouts 1
    steps := Counter.add s.steps steps
    experiences := Counter.add s.experiences experiences }

/-- Counts one episode. A finite reward moves the mean towards it, by the difference divided by
the number of finite rewards. -/
def recordEpisode (s : Stats) (reward : Float) : Stats :=
  let counted := { s with episodes := Counter.next s.episodes, recentEpisodeReward := reward }
  if reward.isFinite then
    let valid := Counter.next s.validEpisodes
    let delta := reward - s.avgEpisodeReward
    { counted with
      validEpisodes := valid
      avgEpisodeReward := s.avgEpisodeReward + delta / Counter.toFloat valid }
  else { counted with filteredEpisodes := Counter.next s.filteredEpisodes }

/-- The share of episodes whose reward was not finite. -/
def filteredFraction (s : Stats) : Float :=
  if s.episodes = 0 then 0.0
  else Counter.toFloat s.filteredEpisodes / Counter.toFloat s.episodes

def addCounters (total s : Stats) : Stats :=
  { total with
    rollouts := Counter.add total.rollouts s.rollouts
    steps := Counter.add total.steps s.steps
    experiences := Counter.add total.experiences s.experiences
    episodes := Counter.add total.episodes s.episodes
    validEpisodes := Counter.add total.validEpisodes s.validEpisodes
    filteredEpisodes := Counter.add total.filteredEpisodes s.filteredEpisodes }

/-- The sum of the means, each weighted by its number of finite rewards, in order of the list. -/
def weightedRewards (all : List Stats) : Float :=
  all.foldl (fun sum s => sum + s.avgEpisodeReward * Counter.toFloat s.validEpisodes) 0.0

/-- The totals of a pool. The mean reward is weighted by the finite rewards behind each mean, and
the recent reward is that of the last entry. -/
def aggregate (all : List Stats) : Stats :=
  let total := all.foldl addCounters { peer := "pool" }
  { total with
    avgEpisodeReward :=
      if 0 < total.validEpisodes then
        weightedRewards all / Counter.toFloat total.validEpisodes
      else 0.0
    recentEpisodeReward := (all.getLast?.map recentEpisodeReward).getD 0.0 }

end Stats

end ExperienceCollection
