import ExperienceCollection.Proofs.Collection.Quorum
import ExperienceCollection.Proofs.Network.Lawful
import Mathlib.Algebra.GroupWithZero.Nat

/-!
# What a coordinator counts

Whatever is asked of the rounds of a campaign, whatever the inbox holds, and whenever a round is
left, the totals of the coordinator are those of the accepted results among the arrivals it has
taken off the queue: nothing is counted twice, and nothing that was dropped or is still waiting is
counted at all.
-/

namespace ExperienceCollection

variable {μ ε : Type}

/-- The reward that a result brings: that of an episode, once it has ended. -/
def Result.episodeReward? (r : Result ε) : Option Float := if r.envEnd then r.totalReward else none

/-- The episode rewards of a peer, in order. -/
def episodeRewards (source : PeerId) (results : List (Envelope (Result ε))) : List Float :=
  results.filterMap fun e => if e.source = source then e.body.episodeReward? else none

lemma episodeRewards_eq_nil {source : PeerId} {results : List (Envelope (Result ε))} :
    episodeRewards source results = [] ↔
      ¬∃ e ∈ results, e.source = source ∧ e.body.envEnd = true ∧
        e.body.totalReward.isSome = true := by
  rw [episodeRewards, List.filterMap_eq_nil_iff]
  push Not
  refine forall₂_congr fun e _ => ?_
  by_cases hsource : e.source = source <;>
    cases hend : e.body.envEnd <;> simp [Result.episodeReward?, hsource, hend]

namespace Metrics

/-- The totals over results that are accepted one after another. -/
def acceptAll (m : Metrics) (results : List (Envelope (Result ε))) : Metrics :=
  results.foldl (fun m e => (m.accept e.source e.body).1) m

lemma acceptAll_append (m : Metrics) (results later : List (Envelope (Result ε))) :
    m.acceptAll (results ++ later) = (m.acceptAll results).acceptAll later :=
  List.foldl_append

lemma accept_eq (m : Metrics) (source : PeerId) (r : Result ε) :
    (m.accept source r).1 =
      match r.episodeReward? with
      | some reward =>
        (m.recordResult r.numExperiences r.numSteps).recordReward source reward
      | none => m.recordResult r.numExperiences r.numSteps := by
  unfold accept Result.episodeReward?
  cases r.envEnd <;> cases r.totalReward <;> rfl

lemma accept_experiences (m : Metrics) (source : PeerId) (r : Result ε) :
    (m.accept source r).1.experiences = Counter.add m.experiences r.numExperiences := by
  rw [accept_eq]
  split <;> rfl

lemma accept_steps (m : Metrics) (source : PeerId) (r : Result ε) :
    (m.accept source r).1.steps = Counter.add m.steps r.numSteps := by
  rw [accept_eq]
  split <;> rfl

/-- An accepted result adds its episode reward to the total of its peer and of no other. -/
lemma accept_totalReward? (m : Metrics) (source peer : PeerId) (r : Result ε) :
    (m.accept source r).1.totalReward? peer =
      match (if source = peer then r.episodeReward? else none) with
      | some reward => some (m.rewardAfter peer reward)
      | none => m.totalReward? peer := by
  rw [accept_eq]
  cases r.episodeReward? with
  | none => rw [ite_self]; rfl
  | some reward =>
    dsimp only [totalReward?, recordReward]
    rw [KeyMap.get?_insert]
    by_cases hpeer : source = peer
    · subst hpeer
      rw [if_pos rfl, if_pos rfl]
      rfl
    · rw [if_neg hpeer, if_neg (Ne.symm hpeer)]
      rfl

lemma acceptAll_experiences (m : Metrics) (results : List (Envelope (Result ε))) :
    (m.acceptAll results).experiences =
      (results.map fun e => e.body.numExperiences).foldl Counter.add m.experiences := by
  induction results generalizing m with
  | nil => rfl
  | cons e results ih =>
    have hrest := ih (m.accept e.source e.body).1
    rw [accept_experiences] at hrest
    exact hrest

lemma acceptAll_steps (m : Metrics) (results : List (Envelope (Result ε))) :
    (m.acceptAll results).steps =
      (results.map fun e => e.body.numSteps).foldl Counter.add m.steps := by
  induction results generalizing m with
  | nil => rfl
  | cons e results ih =>
    have hrest := ih (m.accept e.source e.body).1
    rw [accept_steps] at hrest
    exact hrest

/-- The total of a peer is the sum of its episode rewards from the left, if it has any. -/
lemma acceptAll_totalReward? (m : Metrics) (results : List (Envelope (Result ε)))
    (source : PeerId) :
    (m.acceptAll results).totalReward? source =
      match episodeRewards source results with
      | [] => m.totalReward? source
      | rewards => some (rewards.foldl (· + ·) ((m.totalReward? source).getD 0.0)) := by
  induction results generalizing m with
  | nil => rfl
  | cons e results ih =>
    have hstep := m.accept_totalReward? e.source source e.body
    have hrest := ih (m.accept e.source e.body).1
    rw [hstep] at hrest
    rw [episodeRewards, List.filterMap_cons]
    cases hreward : (if e.source = source then e.body.episodeReward? else none) with
    | none =>
      rw [hreward] at hrest
      exact hrest
    | some reward =>
      rw [hreward] at hrest
      refine hrest.trans ?_
      change _ = some ((reward :: episodeRewards source results).foldl (· + ·) _)
      cases episodeRewards source results <;> rfl

lemma totalReward?_acceptAll_empty (results : List (Envelope (Result ε))) (source : PeerId) :
    (acceptAll {} results).totalReward? source =
      if episodeRewards source results = [] then none
      else some ((episodeRewards source results).foldl (· + ·) 0.0) := by
  rw [acceptAll_totalReward?]
  cases episodeRewards source results <;> rfl

end Metrics

namespace Round

/-- The results among arrivals that a round accepts. -/
def acceptedOf (r : Round) (arrivals : List (Arrival ε)) : List (Envelope (Result ε)) :=
  (arrivals.filterMap Except.toOption).filter r.accepts

lemma acceptedOf_append (r : Round) (arrivals later : List (Arrival ε)) :
    r.acceptedOf (arrivals ++ later) = r.acceptedOf arrivals ++ r.acceptedOf later := by
  rw [acceptedOf, List.filterMap_append, List.filter_append]
  rfl

lemma acceptedOf_of_drops {r : Round} {dropped : List (Envelope (Result ε))}
    (h : ∀ d ∈ dropped, r.accepts d = false) : r.acceptedOf (dropped.map .ok) = [] := by
  have hresults : (dropped.map (.ok : _ → Arrival ε)).filterMap Except.toOption = dropped := by
    rw [List.filterMap_map]
    exact List.filterMap_some
  rw [acceptedOf, hresults]
  exact List.filter_eq_nil_iff.mpr fun d hd => by simp [h d hd]

variable {r : Round} {closed : Bool} {m : Metrics} {arrivals : List (Arrival ε)} {p : Pull ε}

/-- A pull takes arrivals off the front of the queue and counts the accepted results among them. -/
lemma Pulls.takes (h : Pulls r closed m arrivals p) :
    ∃ taken rest, arrivals = taken ++ rest ∧ p.consumed = taken.length ∧
      p.metrics = m.acceptAll (r.acceptedOf taken) := by
  cases h with
  | ended _ _ _ metrics consumed => exact ⟨[], arrivals, rfl, consumed, metrics⟩
  | batch dropped e rest _ drops accepts queue _ _ metrics consumed =>
    refine ⟨dropped.map .ok ++ [.ok e], rest, by simp [queue], by simp [consumed], ?_⟩
    have haccepted : r.acceptedOf [(.ok e : Arrival ε)] = [e] := by
      simp [acceptedOf, Except.toOption, accepts]
    rw [acceptedOf_append, acceptedOf_of_drops drops, haccepted]
    exact metrics
  | failed dropped error rest _ drops queue _ _ metrics consumed =>
    refine ⟨dropped.map .ok ++ [.error error], rest, by simp [queue], by simp [consumed], ?_⟩
    rw [acceptedOf_append, acceptedOf_of_drops drops]
    exact metrics
  | disconnected dropped _ drops queue _ _ _ metrics consumed =>
    refine ⟨dropped.map .ok, [], by simp [queue], by simp [consumed], ?_⟩
    rw [acceptedOf_of_drops drops]
    exact metrics
  | waiting dropped _ drops queue _ _ _ metrics consumed =>
    refine ⟨dropped.map .ok, [], by simp [queue], by simp [consumed], ?_⟩
    rw [acceptedOf_of_drops drops]
    exact metrics

end Round

namespace Campaign

variable {τ ι : Type} [Network τ μ ε] {act : ι → τ → τ}

/-- The results taken off the queue that the request of their round accepts. -/
def accepted (s : Campaign τ μ ε) : List (Envelope (Result ε)) :=
  s.taken.filterMap fun x => x.2.toOption.filter x.1.accepts

/-- The totals of the coordinator are those of the accepted results. -/
structure Counted (s : Campaign τ μ ε) : Prop where
  accepts : ∀ q r, s.current = some (q, r) → (r.accepts : Envelope (Result ε) → Bool) = q.accepts
  metrics : s.coordinator.metrics = Metrics.acceptAll {} s.accepted

lemma Counted.collect {s : Campaign τ μ ε} (h : s.Counted) (q : Request μ) :
    (s.collect q).Counted := by
  refine ⟨fun q' r hcurrent => ?_, h.metrics⟩
  obtain ⟨rfl, rfl⟩ := collect_current hcurrent
  rfl

lemma Counted.next [LawfulNetwork τ] {s : Campaign τ μ ε} (h : s.Counted) : s.next.Counted := by
  cases hcurrent : s.current with
  | none => rwa [next_of_none hcurrent]
  | some current =>
    obtain ⟨q, r⟩ := current
    have haccepts := h.accepts q r hcurrent
    have hpulls := r.pull_pulls s.coordinator.config.logEnvMetrics (Network.isClosed s.network)
      s.coordinator.metrics (Network.arrivals s.network)
    obtain ⟨taken, rest, hqueue, hconsumed, hmetrics⟩ := hpulls.takes
    obtain ⟨finished, closed, hround⟩ := s.coordinator.next_round r s.network
    refine ⟨?_, ?_⟩
    · intro q' r' hcurrent'
      rw [next_current hcurrent] at hcurrent'
      obtain ⟨rfl, rfl⟩ := Prod.mk.inj (Option.some.inj hcurrent')
      rw [hround]
      exact haccepts
    · have haccepted : s.next.accepted = s.accepted ++ r.acceptedOf taken := by
        rw [accepted, next_taken hcurrent hqueue hconsumed, List.filterMap_append,
          List.filterMap_map, Round.acceptedOf, haccepts, List.filter_filterMap]
        rfl
      rw [next_coordinator hcurrent, haccepted, Metrics.acceptAll_append, ← h.metrics]
      exact hmetrics

lemma Counted.step [LawfulNetwork τ] {s : Campaign τ μ ε} (h : s.Counted) (x : Step ι μ) :
    (step act s x).Counted := by
  cases x with
  | collect q => exact h.collect q
  | next => exact h.next
  | exit => exact ⟨h.accepts, h.metrics⟩
  | environment move => exact ⟨h.accepts, h.metrics⟩

/-- After any rounds, finished or abandoned, on an inbox of any contents, the totals of a
coordinator are those of the results its rounds have accepted: sums that stop at the largest count,
and for every peer with an ended episode the sum of its episode rewards from the left. -/
theorem totals_of_run [LawfulNetwork τ] {config : CoordinatorConfig} {n : τ} {c : Coordinator}
    {log : List Log.Event} (h : Coordinator.create config n = (.ok c, log))
    (steps : List (Step (τ → τ) μ)) :
    let s : Campaign τ μ ε := (start c n).run id steps
    let m := s.coordinator.metrics
    m.experiences = min Counter.top (s.accepted.map fun e => e.body.numExperiences).sum ∧
      m.steps = min Counter.top (s.accepted.map fun e => e.body.numSteps).sum ∧
      (∀ source, source ∈ m.rewards.keys ↔ ∃ e ∈ s.accepted, e.source = source ∧
        e.body.envEnd = true ∧ e.body.totalReward.isSome = true) ∧
      ∀ source total, m.totalReward? source = some total →
        total = (episodeRewards source s.accepted).foldl (· + ·) 0.0 := by
  intro s m
  have hstart : (start c n : Campaign τ μ ε).Counted := by
    refine ⟨nofun, ?_⟩
    rw [start, Coordinator.create_metrics h]
    rfl
  have hcounted : s.Counted := run_of_step (fun _ x hs => hs.step x) hstart steps
  have hm : m = Metrics.acceptAll {} s.accepted := hcounted.metrics
  have hsum (counts : List Nat) : counts.foldl Counter.add 0 = min Counter.top counts.sum := by
    rw [List.sum_eq_foldl]
    exact Counter.foldl_add counts 0
  refine ⟨?_, ?_, fun source => ?_, fun source total htotal => ?_⟩
  · rw [hm, Metrics.acceptAll_experiences]
    exact hsum _
  · rw [hm, Metrics.acceptAll_steps]
    exact hsum _
  · rw [KeyMap.mem_keys_iff]
    change (m.totalReward? source).isSome = true ↔ _
    rw [hm, Metrics.totalReward?_acceptAll_empty, ← not_iff_not, ← episodeRewards_eq_nil]
    split <;> simp [*]
  · rw [hm, Metrics.totalReward?_acceptAll_empty] at htotal
    split at htotal
    · cases htotal
    · exact (Option.some.inj htotal).symm

def followUp : Request Unit where
  rolloutIndex := 7
  segmentIndex := 2
  numSteps := 4

/-- A finished episode of a stale segment, a result that is wanted, and one that comes too late. -/
def mixedInbox : List (Envelope (Result Nat)) :=
  [Result.envelope "actor.0" ⟨7, 0, Counter.top, 2, true, some 1.5, 11, none⟩,
    Result.envelope "actor.1" ⟨7, 1, 3, 3, false, some 4.0, 12, none⟩,
    Result.envelope "actor.0" ⟨7, 1, 5, 5, true, some 8.0, 13, none⟩]

/-- The first round hands out two results and ends. The second one drops the late result, hands out
an answer and is given up. -/
def mixedSteps : List (Step (ChannelNetwork Unit Nat → ChannelNetwork Unit Nat) Unit) :=
  [.collect staleRequest, .next, .environment fun n => { n with inbox := mixedInbox }, .next,
    .next, .next, .exit, .collect followUp,
    .environment fun n => { n with
      inbox := mixedInbox.drop 2 ++
        [Result.envelope "actor.0" ⟨7, 2, 4, 4, true, some 2.0, 14, none⟩] },
    .next, .collect staleRequest]

def mixedRounds : Campaign (ChannelNetwork Unit Nat) Unit Nat :=
  (start pairCoordinator pairNetwork).run id mixedSteps

theorem totals_of_mixedRounds :
    Coordinator.create pairCoordinator.config pairNetwork =
        (.ok pairCoordinator, [.coordinatorReady "learner" "group" 2 "actor"]) ∧
      mixedRounds.taken.length = 5 ∧
      mixedRounds.coordinator.metrics.experiences = Counter.top ∧
      mixedRounds.coordinator.metrics.steps = 9 ∧
      "actor.1" ∉ mixedRounds.coordinator.metrics.rewards.keys ∧
      mixedRounds.coordinator.metrics.totalReward? "actor.0" = some (0.0 + 1.5 + 2.0) := by
  have hcreate : Coordinator.create pairCoordinator.config pairNetwork =
      (.ok pairCoordinator, [.coordinatorReady "learner" "group" 2 "actor"]) := by rfl
  obtain ⟨hexperiences, hsteps, hkeys, htotals⟩ := totals_of_run hcreate mixedSteps
  change mixedRounds.coordinator.metrics.experiences = _ at hexperiences
  change mixedRounds.coordinator.metrics.steps = _ at hsteps
  refine ⟨hcreate, by rfl, hexperiences, hsteps, fun hkey => ?_, ?_⟩
  · obtain ⟨e, he, hsource, hend, -⟩ := (hkeys "actor.1").mp hkey
    have hnone : mixedRounds.accepted.all fun e => e.source ≠ "actor.1" ∨ ¬e.body.envEnd := by rfl
    have heither := List.all_eq_true.mp hnone e he
    simp [hsource, hend] at heither
  · have hkey : "actor.0" ∈ mixedRounds.coordinator.metrics.rewards.keys :=
      (hkeys "actor.0").mpr ⟨_, List.mem_cons_self, by rfl, by rfl, by rfl⟩
    obtain ⟨total, htotal⟩ := Option.isSome_iff_exists.mp (KeyMap.mem_keys_iff.mp hkey)
    exact htotal.trans (congrArg some (htotals "actor.0" total htotal))

end Campaign

end ExperienceCollection
