import ExperienceCollection.Actor.Stats
import ExperienceCollection.Proofs.Counter
import Mathlib.Algebra.BigOperators.Group.List.Basic
import Mathlib.Tactic.Lemma

/-!
# Statistics

Rollouts and episodes are counted apart, so any mixture of them comes down to the episodes followed
by the rollouts. A reward that is not finite changes neither the mean nor the number of rewards
behind it. The counters of a pool are sums that stop at `top`, in whatever order and in whatever
groups the statistics are added.
-/

namespace ExperienceCollection.Stats

/-- A rollout or an episode that is counted. -/
inductive Entry where
  | rollout (steps experiences : Nat)
  | episode (reward : Float)

def Entry.reward? : Entry → Option Float
  | rollout .. => none
  | episode reward => some reward

/-- The steps and the experiences of a rollout. -/
def Entry.yield? : Entry → Option (Nat × Nat)
  | rollout steps experiences => some (steps, experiences)
  | episode _ => none

def rewards (entries : List Entry) : List Float := entries.filterMap Entry.reward?

def yields (entries : List Entry) : List (Nat × Nat) := entries.filterMap Entry.yield?

def enter (s : Stats) : Entry → Stats
  | .rollout steps experiences => s.recordRollout steps experiences
  | .episode reward => s.recordEpisode reward

def enterAll (s : Stats) (entries : List Entry) : Stats := entries.foldl enter s

def recordYields (s : Stats) (yields : List (Nat × Nat)) : Stats :=
  yields.foldl (fun s y => s.recordRollout y.1 y.2) s

def recordRewards (s : Stats) (rewards : List Float) : Stats := rewards.foldl recordEpisode s

lemma recordEpisode_recordRollout (s : Stats) (steps experiences : Nat) (reward : Float) :
    (s.recordRollout steps experiences).recordEpisode reward =
      (s.recordEpisode reward).recordRollout steps experiences := by
  unfold recordEpisode
  dsimp only
  split
  · rfl
  · rfl

/-- The rollouts of a mixture may as well be counted after all of its episodes. -/
lemma enterAll_eq (s : Stats) (entries : List Entry) :
    s.enterAll entries = (s.recordRewards (rewards entries)).recordYields (yields entries) := by
  induction entries generalizing s with
  | nil => rfl
  | cons entry entries ih =>
    refine (ih (s.enter entry)).trans ?_
    cases entry with
    | rollout steps experiences =>
      have hlater : (s.recordRollout steps experiences).recordRewards (rewards entries) =
          (s.recordRewards (rewards entries)).recordRollout steps experiences :=
        List.foldl_hom _ fun s reward => recordEpisode_recordRollout s steps experiences reward
      exact congrArg (recordYields · (yields entries)) hlater
    | episode reward => rfl

/-- Rollouts change no more than their own three counters. -/
lemma recordYields_eq (s : Stats) (yields : List (Nat × Nat)) :
    ∃ rollouts steps experiences,
      s.recordYields yields = { s with rollouts, steps, experiences } := by
  induction yields generalizing s with
  | nil => exact ⟨_, _, _, rfl⟩
  | cons y yields ih =>
    obtain ⟨_, _, _, h⟩ := ih (s.recordRollout y.1 y.2)
    exact ⟨_, _, _, h⟩

/-- From zero on, the counters of rollouts are sums up to `top`. -/
lemma recordYields_totals {s : Stats} (rollouts : s.rollouts = 0) (steps : s.steps = 0)
    (experiences : s.experiences = 0) (yields : List (Nat × Nat)) :
    (s.recordYields yields).rollouts = min Counter.top yields.length ∧
      (s.recordYields yields).steps = min Counter.top (yields.map Prod.fst).sum ∧
      (s.recordYields yields).experiences = min Counter.top (yields.map Prod.snd).sum := by
  have hrollouts (s : Stats) (y : Nat × Nat) :
      (s.recordRollout y.1 y.2).rollouts = Counter.add s.rollouts 1 := rfl
  have hsteps (s : Stats) (y : Nat × Nat) :
      (s.recordRollout y.1 y.2).steps = Counter.add s.steps y.1 := rfl
  have hexperiences (s : Stats) (y : Nat × Nat) :
      (s.recordRollout y.1 y.2).experiences = Counter.add s.experiences y.2 := rfl
  refine ⟨(Counter.foldl_total hrollouts rollouts yields).trans ?_,
    Counter.foldl_total hsteps steps yields, Counter.foldl_total hexperiences experiences yields⟩
  rw [List.map_const', List.sum_replicate_nat, Nat.mul_one]

lemma recordEpisode_eq (s : Stats) (reward : Float) :
    ∃ valid filtered avg, s.recordEpisode reward =
      { s with
        episodes := Counter.next s.episodes
        validEpisodes := valid
        filteredEpisodes := filtered
        avgEpisodeReward := avg
        recentEpisodeReward := reward } := by
  unfold recordEpisode
  dsimp only
  split
  · exact ⟨_, _, _, rfl⟩
  · exact ⟨_, _, _, rfl⟩

/-- Episodes leave the counters of rollouts alone. -/
lemma recordRewards_eq (s : Stats) (rewards : List Float) :
    ∃ episodes valid filtered avg recent, s.recordRewards rewards =
      { s with
        episodes
        validEpisodes := valid
        filteredEpisodes := filtered
        avgEpisodeReward := avg
        recentEpisodeReward := recent } := by
  induction rewards generalizing s with
  | nil => exact ⟨_, _, _, _, _, rfl⟩
  | cons reward rewards ih =>
    obtain ⟨_, _, _, hreward⟩ := s.recordEpisode_eq reward
    obtain ⟨_, _, _, _, _, h⟩ := ih (s.recordEpisode reward)
    rw [hreward] at h
    exact ⟨_, _, _, _, _, (congrArg (recordRewards · rewards) hreward).trans h⟩

lemma recordRewards_recent (s : Stats) (rewards : List Float) :
    (s.recordRewards rewards).recentEpisodeReward =
      rewards.getLast?.getD s.recentEpisodeReward := by
  induction rewards generalizing s with
  | nil => rfl
  | cons reward rewards ih =>
    obtain ⟨_, _, _, hreward⟩ := s.recordEpisode_eq reward
    refine (ih (s.recordEpisode reward)).trans ?_
    rw [hreward, List.getLast?_cons]
    rfl

lemma recordEpisode_episodes (s : Stats) (reward : Float) :
    (s.recordEpisode reward).episodes = if true then Counter.next s.episodes else s.episodes := by
  obtain ⟨_, _, _, h⟩ := s.recordEpisode_eq reward
  rw [h]
  rfl

lemma recordEpisode_validEpisodes (s : Stats) (reward : Float) :
    (s.recordEpisode reward).validEpisodes =
      if reward.isFinite then Counter.next s.validEpisodes else s.validEpisodes := by
  unfold recordEpisode
  split
  · rfl
  · rfl

lemma recordEpisode_filteredEpisodes (s : Stats) (reward : Float) :
    (s.recordEpisode reward).filteredEpisodes =
      if !reward.isFinite then Counter.next s.filteredEpisodes else s.filteredEpisodes := by
  unfold recordEpisode
  cases reward.isFinite <;> rfl

/-- Episodes are counted one by one, each as a valid or as a filtered one. -/
lemma recordRewards_counts (peer : PeerId) {rewards : List Float} (h : rewards.length < 2 ^ 64) :
    let s := recordRewards { peer } rewards
    s.episodes = rewards.length ∧ s.validEpisodes = rewards.countP Float.isFinite ∧
      s.filteredEpisodes = rewards.countP (!Float.isFinite ·) := by
  have hfew : 0 + rewards.length ≤ Counter.top := by
    unfold Counter.top
    omega
  refine ⟨(Counter.foldl_count recordEpisode_episodes hfew).trans ?_,
    (Counter.foldl_count recordEpisode_validEpisodes hfew).trans (Nat.zero_add _),
    (Counter.foldl_count recordEpisode_filteredEpisodes hfew).trans (Nat.zero_add _)⟩
  rw [List.countP_true, Nat.zero_add]

/-- The mean of finite rewards, with their number in front. -/
def mean (s : Stats) : Nat × Float := (s.validEpisodes, s.avgEpisodeReward)

/-- The mean after one more finite reward. -/
def meanAfter (m : Nat × Float) (reward : Float) : Nat × Float :=
  (Counter.next m.1, m.2 + (reward - m.2) / Counter.toFloat (Counter.next m.1))

lemma recordEpisode_mean (s : Stats) (reward : Float) :
    (s.recordEpisode reward).mean =
      if reward.isFinite then meanAfter s.mean reward else s.mean := by
  unfold recordEpisode
  split
  · rfl
  · rfl

/-- The mean is that of the finite rewards alone. -/
lemma recordRewards_mean (s : Stats) (rewards : List Float) :
    (s.recordRewards rewards).mean = (rewards.filter Float.isFinite).foldl meanAfter s.mean := by
  rw [List.foldl_filter]
  exact (List.foldl_hom mean fun s reward => (recordEpisode_mean s reward).symm).symm

/-- Whatever is recorded between them, the finite rewards in their order determine the mean. -/
lemma enterAll_mean (s : Stats) (entries : List Entry) :
    (s.enterAll entries).mean =
      ((rewards entries).filter Float.isFinite).foldl meanAfter s.mean := by
  obtain ⟨_, _, _, h⟩ := (s.recordRewards (rewards entries)).recordYields_eq (yields entries)
  rw [enterAll_eq, h, ← recordRewards_mean]
  rfl

/-- Over any mixture of rollouts and episodes, the mean and the number of rewards behind it are
those of any other mixture with the finite rewards alone. Every reward is counted as an episode,
those that are not finite are counted apart, and the last one is kept. The counters of rollouts are
the sums over the rollouts, up to `top`. -/
theorem mean_of_mixture (peer : PeerId) {entries : List Entry}
    (h : (rewards entries).length < 2 ^ 64) :
    let s := enterAll { peer } entries
    (∀ clean, rewards clean = (rewards entries).filter Float.isFinite →
        s.validEpisodes = (enterAll { peer } clean).validEpisodes ∧
          s.avgEpisodeReward = (enterAll { peer } clean).avgEpisodeReward) ∧
      s.filteredEpisodes = (rewards entries).countP (!Float.isFinite ·) ∧
      s.episodes = s.validEpisodes + s.filteredEpisodes ∧
      s.episodes = (rewards entries).length ∧
      s.recentEpisodeReward = (rewards entries).getLast?.getD 0.0 ∧
      s.rollouts = min Counter.top (yields entries).length ∧
      s.steps = min Counter.top ((yields entries).map Prod.fst).sum ∧
      s.experiences = min Counter.top ((yields entries).map Prod.snd).sum := by
  intro s
  have hs : s = (recordRewards { peer } (rewards entries)).recordYields (yields entries) :=
    enterAll_eq { peer } entries
  obtain ⟨_, _, _, hyields⟩ :=
    (recordRewards { peer } (rewards entries)).recordYields_eq (yields entries)
  obtain ⟨hepisodes, hvalid, hfiltered⟩ := recordRewards_counts peer h
  refine ⟨fun clean hclean => ?_, ?_, ?_, ?_, ?_, ?_⟩
  · have hmean : s.mean = (enterAll { peer } clean).mean := by
      rw [enterAll_mean, enterAll_mean, hclean, List.filter_filter]
      simp only [Bool.and_self]
    exact ⟨congrArg Prod.fst hmean, congrArg Prod.snd hmean⟩
  · rw [hs, hyields]
    exact hfiltered
  · rw [hs, hyields]
    dsimp only
    rw [hepisodes, hvalid, hfiltered, List.length_eq_countP_add_countP Float.isFinite]
    simp only [Bool.not_eq_true, Bool.decide_eq_false]
  · rw [hs, hyields]
    exact hepisodes
  · rw [hs, hyields]
    exact recordRewards_recent { peer } (rewards entries)
  · obtain ⟨_, _, _, _, _, hrewards⟩ := recordRewards_eq { peer } (rewards entries)
    rw [hs]
    exact recordYields_totals (by rw [hrewards]) (by rw [hrewards]) (by rw [hrewards]) _

/-- Rewards that are not finite come between two finite ones and at the end, and the rollouts take
more steps than can be counted. -/
def brokenEpisodes : List Entry :=
  [.episode 100.0, .rollout 4 3, .episode (0.0 / 0.0), .rollout Counter.top 1, .episode 200.0,
    .episode (1.0 / 0.0)]

theorem mean_of_brokenEpisodes :
    (rewards brokenEpisodes).length < 2 ^ 64 ∧
      let s := enterAll { peer := "actor.0" } brokenEpisodes
      s.validEpisodes = 2 ∧ s.avgEpisodeReward = 150.0 ∧ s.filteredEpisodes = 2 ∧ s.episodes = 4 ∧
        s.recentEpisodeReward = 1.0 / 0.0 ∧ s.rollouts = 2 ∧ s.steps = Counter.top ∧
        s.experiences = 4 := by
  have hfew : (rewards brokenEpisodes).length < 2 ^ 64 := by decide
  refine ⟨hfew, ?_⟩
  intro s
  obtain ⟨hclean, hfiltered, -, hepisodes, hrecent, hrollouts, hsteps, hexperiences⟩ :=
    mean_of_mixture "actor.0" hfew
  obtain ⟨hvalid, havg⟩ := hclean [.episode 100.0, .episode 200.0] (by decide)
  exact ⟨hvalid, havg, hfiltered, hepisodes, hrecent, hrollouts, hsteps, hexperiences⟩

/-- The counters of statistics. -/
def counters : List (Stats → Nat) :=
  [rollouts, steps, experiences, episodes, validEpisodes, filteredEpisodes]

variable {counter : Stats → Nat}

lemma mem_counters (h : counter ∈ counters) :
    counter = rollouts ∨ counter = steps ∨ counter = experiences ∨ counter = episodes ∨
      counter = validEpisodes ∨ counter = filteredEpisodes := by
  simpa [counters] using h

lemma addCounters_counter (h : counter ∈ counters) (total s : Stats) :
    counter (total.addCounters s) = Counter.add (counter total) (counter s) := by
  rcases mem_counters h with rfl | rfl | rfl | rfl | rfl | rfl <;> rfl

/-- The counters of a pool are those of its statistics added one after another. -/
lemma aggregate_counter (h : counter ∈ counters) (all : List Stats) :
    counter (aggregate all) = counter (all.foldl addCounters { peer := "pool" }) := by
  rcases mem_counters h with rfl | rfl | rfl | rfl | rfl | rfl <;> rfl

lemma aggregate_total (h : counter ∈ counters) (all : List Stats) :
    counter (aggregate all) = min Counter.top (all.map counter).sum := by
  have hzero : counter { peer := "pool" } = 0 := by
    rcases mem_counters h with rfl | rfl | rfl | rfl | rfl | rfl <;> rfl
  rw [aggregate_counter h]
  exact Counter.foldl_total (addCounters_counter h) hzero all

/-- Groups may be added up on their own before their totals are. -/
lemma aggregate_groups (h : counter ∈ counters) (groups : List (List Stats)) :
    counter (aggregate (groups.map aggregate)) = counter (aggregate groups.flatten) := by
  have htotals : (groups.map aggregate).map counter =
      (groups.map fun group => (group.map counter).sum).map (min Counter.top) := by
    rw [List.map_map, List.map_map]
    exact List.map_congr_left fun group _ => aggregate_total h group
  rw [aggregate_total h, aggregate_total h, htotals, Counter.min_sum_min, List.map_flatten,
    List.sum_flatten, List.map_map]
  rfl

lemma aggregate_perm (h : counter ∈ counters) {other all : List Stats} (hperm : other.Perm all) :
    counter (aggregate other) = counter (aggregate all) := by
  rw [aggregate_total h, aggregate_total h, (hperm.map counter).sum_eq]

/-- As long as all episodes can be counted, they remain the valid and the filtered ones together. -/
lemma aggregate_episodes {all : List Stats}
    (h : ∀ s ∈ all, s.episodes = s.validEpisodes + s.filteredEpisodes)
    (hfit : (all.map episodes).sum ≤ Counter.top) :
    (aggregate all).episodes =
      (aggregate all).validEpisodes + (aggregate all).filteredEpisodes := by
  have hsum : (all.map episodes).sum =
      (all.map validEpisodes).sum + (all.map filteredEpisodes).sum := by
    rw [← List.sum_map_add, List.map_congr_left h]
  have hepisodes := aggregate_total (by simp [counters] : episodes ∈ counters) all
  have hvalid := aggregate_total (by simp [counters] : validEpisodes ∈ counters) all
  have hfiltered := aggregate_total (by simp [counters] : filteredEpisodes ∈ counters) all
  omega

/-- Each counter of a pool is the sum over its statistics, up to `top`. So neither their order nor a
division into groups that are added up first makes a difference, and episodes that can be counted
remain the valid and the filtered ones together. -/
theorem totals_of_regrouping (all : List Stats) :
    let total := aggregate all
    (∀ counter ∈ counters, counter total = min Counter.top (all.map counter).sum) ∧
      (∀ other : List Stats, other.Perm all →
        ∀ counter ∈ counters, counter (aggregate other) = counter total) ∧
      (∀ groups : List (List Stats), groups.flatten.Perm all →
        ∀ counter ∈ counters, counter (aggregate (groups.map aggregate)) = counter total) ∧
      ((∀ s ∈ all, s.episodes = s.validEpisodes + s.filteredEpisodes) →
        (all.map episodes).sum ≤ Counter.top →
        total.episodes = total.validEpisodes + total.filteredEpisodes) := by
  intro total
  refine ⟨?_, ?_, ?_, aggregate_episodes⟩
  · exact fun counter h => aggregate_total h all
  · exact fun other hperm counter h => aggregate_perm h hperm
  · intro groups hperm counter h
    exact (aggregate_groups h groups).trans (aggregate_perm h hperm)

/-- Three actors, two of which have taken more steps together than can be counted. -/
def busyActors : List Stats :=
  [{ peer := "actor.0", rollouts := 2, steps := Counter.top, episodes := 3, validEpisodes := 2,
      filteredEpisodes := 1 },
    { peer := "actor.1", rollouts := 5, steps := 7 },
    { peer := "actor.2", rollouts := 1, steps := Counter.top, episodes := 4, validEpisodes := 4 }]

/-- The last actor is added up first, and an empty group comes between it and the others. -/
theorem totals_of_busyActors :
    let regrouped := aggregate ([busyActors.drop 2, [], busyActors.take 2].map aggregate)
    (∀ counter ∈ counters, counter regrouped = counter (aggregate busyActors)) ∧
      regrouped.steps = Counter.top ∧ regrouped.rollouts = 8 ∧
      (busyActors.map episodes).sum ≤ Counter.top ∧
      (aggregate busyActors).episodes =
        (aggregate busyActors).validEpisodes + (aggregate busyActors).filteredEpisodes := by
  obtain ⟨htotals, -, hgroups, hepisodes⟩ := totals_of_regrouping busyActors
  have hperm : (busyActors.drop 2 ++ busyActors.take 2).Perm busyActors := List.perm_append_comm
  have hsame := hgroups [busyActors.drop 2, [], busyActors.take 2] hperm
  have hfit : (busyActors.map episodes).sum ≤ Counter.top := by decide
  refine ⟨hsame, ?_, ?_, hfit, hepisodes ?_ hfit⟩
  · exact (hsame steps (by simp [counters])).trans (htotals steps (by simp [counters]))
  · exact (hsame rollouts (by simp [counters])).trans (htotals rollouts (by simp [counters]))
  · simp [busyActors]

end ExperienceCollection.Stats
