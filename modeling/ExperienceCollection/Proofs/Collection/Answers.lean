import ExperienceCollection.Proofs.Collection.System
import ExperienceCollection.Proofs.Network.Build
import Mathlib.Algebra.Order.BigOperators.Group.List
import Mathlib.Algebra.Order.Group.Nat

/-!
# Answers of a system

Every request is an errand for each peer of the coordinator. A peer's answer is handed out at most
as often as it was asked for: whatever the system does, the load of an errand and the answers handed
out for it add up to no more than the requests. A round counts results and not peers, so this is why
a round that waits for as many results as there are peers has heard from every one of them.
-/

namespace ExperienceCollection.System

variable {μ ε : Type}

/-- How often an errand is under way or done. -/
def load (t : Errand) (s : System μ ε) : Nat :=
  s.pool.load t + (s.rounds.map (RoundRecord.handed t)).sum

/-- How often a peer was asked for the segment of an errand. -/
def asked (t : Errand) (s : System μ ε) : Nat :=
  s.rounds.countP (fun k => k.request.segment = t.segment) * s.coordinator.peers.count t.peer

/-- A step of the pool that takes away from its load leaves the rest alone. -/
lemma balance_of_pool {s : System μ ε} {pool : Pool μ ε} {t : Errand}
    (h : pool.load t ≤ s.pool.load t) :
    { s with pool }.load t + s.asked t ≤ s.load t + { s with pool }.asked t := by
  unfold load asked
  dsimp only
  omega

lemma collect_balance {s : System μ ε} (h : s.Staffed) (q : Request μ) (t : Errand) :
    (s.collect q).load t + s.asked t ≤ s.load t + (s.collect q).asked t := by
  have hbroadcast := s.pool.network.broadcast_load_le t s.coordinator.config.peerRole
    (.rollout q.toInstruction)
  rw [h.members, ← Coordinator.collect_network] at hbroadcast
  have hnone : RoundRecord.handed t
      { request := q, round := s.coordinator.opened q : RoundRecord μ ε } = 0 := by
    rw [RoundRecord.handed]
    split <;> rfl
  rw [collect, Coordinator.collect_registered h.role q]
  unfold load asked Pool.load
  dsimp only
  rw [List.map_cons, List.sum_cons, List.countP_cons, Nat.add_mul, hnone]
  by_cases hq : q.segment = t.segment
  · have hfor : Command.isFor t (.rollout q.toInstruction) = true := decide_eq_true hq
    rw [if_pos hfor] at hbroadcast
    rw [if_pos (decide_eq_true hq)]
    omega
  · have hfor : ¬Command.isFor t (.rollout q.toInstruction) = true := by
      simpa [Command.isFor, Instruction.isFor] using hq
    rw [if_neg hfor] at hbroadcast
    omega

lemma next_balance {s : System μ ε} (h : s.Faithful) (t : Errand) :
    s.next.load t + s.asked t ≤ s.load t + s.next.asked t := by
  rw [next]
  cases hrounds : s.rounds with
  | nil => exact Nat.le_refl _
  | cons k past =>
    have hfaithful := h k (by rw [hrounds]; exact List.mem_cons_self)
    have hk := hfaithful.handed_next_le t s.coordinator s.pool.network
    have hasked (pool : Pool μ ε) :
        asked t ⟨(s.coordinator.next k.round s.pool.network).coordinator, pool,
          k.after (s.coordinator.next k.round s.pool.network) :: past⟩ = s.asked t := by
      unfold asked
      rw [hrounds]
      rfl
    dsimp only
    rw [hasked]
    unfold load Pool.load
    dsimp only
    rw [hrounds, List.map_cons, List.sum_cons, List.map_cons, List.sum_cons]
    omega

/-- A step adds no more to the load of an errand than to the requests for it. -/
theorem step_balance {s : System μ ε} (h : s.Staffed) (hf : s.Faithful) (x : Step μ) (t : Errand) :
    (s.step x).load t + s.asked t ≤ s.load t + (s.step x).asked t := by
  cases x with
  | collect q => exact collect_balance h q t
  | next => exact next_balance hf t
  | exit =>
    have hbroadcast := s.pool.network.broadcast_load_le t s.coordinator.config.peerRole .exit
    rw [← Coordinator.exit_network] at hbroadcast
    exact balance_of_pool (Nat.add_le_add hbroadcast (Nat.le_refl _))
  | take i => exact balance_of_pool ((s.pool.take_takes i).load_le h.seated t)
  | complete i => exact balance_of_pool ((s.pool.complete_completes i).load_le h.seated t)

theorem run_balance {s : System μ ε} (h : s.Staffed) (hf : s.Faithful) (steps : List (Step μ))
    (t : Errand) : (s.run steps).load t + s.asked t ≤ s.load t + (s.run steps).asked t := by
  induction steps generalizing s with
  | nil => exact Nat.le_refl _
  | cons x steps ih =>
    have hstep := step_balance h hf x t
    have hrest := ih (h.of_cast (s.step_cast x)) (hf.step h x)
    change ((s.step x).run steps).load t + s.asked t ≤ s.load t + ((s.step x).run steps).asked t
    omega

lemma build_commands (node : PeerId) (groups : List (String × Nat)) :
    ∀ e ∈ (ChannelNetwork.build node groups : ChannelNetwork μ ε).endpoints, e.commands = [] := by
  intro e he
  obtain ⟨g, -, i, rfl⟩ := ChannelNetwork.mem_build he
  rfl

/-- Nothing is under way in a new system. -/
lemma load_start (t : Errand) (node : PeerId) (groups : List (String × Nat)) (c : Coordinator)
    (config : ActorConfig) (behaviour : PeerId → Behaviour μ ε) :
    (start c (Pool.spawn config (ChannelNetwork.build node groups) behaviour).1).load t = 0 := by
  have hendpoints : ((ChannelNetwork.build node groups : ChannelNetwork μ ε).endpoints.map
      (Endpoint.load t)).sum = 0 := by
    refine List.sum_eq_zero fun x hx => ?_
    obtain ⟨e, he, rfl⟩ := List.mem_map.mp hx
    rw [Endpoint.load, build_commands node groups e he, List.countP_nil, ite_self]
  have hactors : ((Pool.spawn config (ChannelNetwork.build node groups) behaviour).1.actors.map
      (Actor.load t)).sum = 0 := by
    refine List.sum_eq_zero fun x hx => ?_
    obtain ⟨a, ha, rfl⟩ := List.mem_map.mp hx
    obtain ⟨e, -, rfl⟩ := List.mem_map.mp ha
    simp [Actor.load, Actor.start]
  have hnetwork : (ChannelNetwork.build node groups : ChannelNetwork μ ε).load t = 0 := by
    rw [ChannelNetwork.load, hendpoints]
    rfl
  exact congrArg₂ (fun network actors => network + actors + 0) hnetwork hactors

/-- Peers answer at most as often as they were asked. -/
lemma answered_subperm {s : System μ ε} (hbalance : ∀ t, s.load t ≤ s.asked t)
    (hrequests : (s.rounds.map fun k => k.request.segment).Nodup) {k : RoundRecord μ ε}
    (hk : k ∈ s.rounds) : k.answered.Subperm s.coordinator.peers := by
  refine List.subperm_iff_count.mpr fun peer => ?_
  let t : Errand := ⟨peer, k.request.segment⟩
  have hhanded : k.handed t = k.answered.count peer := if_pos rfl
  have hmem : k.handed t ≤ (s.rounds.map (RoundRecord.handed t)).sum :=
    List.le_sum_of_mem (List.mem_map_of_mem hk)
  have honce : s.rounds.countP (fun k => k.request.segment = t.segment) ≤ 1 := by
    have hcount : s.rounds.countP (fun k => k.request.segment = t.segment) =
        (s.rounds.map fun k => k.request.segment).count t.segment := by
      rw [List.count, List.countP_map]
      exact List.countP_congr fun k _ => by simp
    rw [hcount]
    exact List.nodup_iff_count_le_one.mp hrequests t.segment
  calc
    k.answered.count peer ≤ s.load t := by
      rw [← hhanded, load]
      exact Nat.le_add_left_of_le hmem
    _ ≤ s.asked t := hbalance t
    _ ≤ 1 * s.coordinator.peers.count peer := Nat.mul_le_mul_right _ honce
    _ = s.coordinator.peers.count peer := Nat.one_mul _

/-- In a system that was built with its coordinator and has asked for no segment twice, every round
hands out at most one batch of its segment from each peer. A round that waits for all peers and has
ended without an error has handed out exactly one from each. -/
theorem answers_of_run {node : PeerId} {groups : List (String × Nat)} {config : CoordinatorConfig}
    {c : Coordinator} {log : List Log.Event}
    (h : Coordinator.create config (ChannelNetwork.build node groups : ChannelNetwork μ ε) =
      (.ok c, log))
    (actorConfig : ActorConfig) (behaviour : PeerId → Behaviour μ ε) (steps : List (Step μ))
    (hrequests : ((requests steps).map fun q => q.segment).Nodup) :
    let n : ChannelNetwork μ ε := ChannelNetwork.build node groups
    let s := (start c (Pool.spawn actorConfig n behaviour).1).run steps
    c.peers.Nodup ∧ c.peers.length = config.numPeers ∧
      s.rounds.map RoundRecord.request = (requests steps).reverse ∧
      ∀ k ∈ s.rounds, k.answered.Nodup ∧ k.answered ⊆ c.peers ∧
        (k.request.requiredFinishes = none → k.round.isDone = true → (∀ e, .error e ∉ k.items) →
          k.answered.Perm c.peers) := by
  intro n s
  let s₀ := start c (Pool.spawn actorConfig n behaviour).1
  obtain ⟨-, -, hlength, hmembers⟩ := Coordinator.create_ok h
  have hnodup : c.peers.Nodup := by
    rw [← hmembers]
    exact ChannelNetwork.nodup_members_build_id node groups config.peerRole
  have hstaffed : s₀.Staffed := staffed_start h actorConfig behaviour
  have hnone : s₀.Faithful := by simp [s₀, start, Faithful]
  have hpeers : s.coordinator.peers = c.peers := congrArg (fun x => x.2.1) (s₀.run_cast steps)
  have hopened : s.rounds.map RoundRecord.request = (requests steps).reverse := by
    rw [run_requests hstaffed steps]
    exact List.append_nil _
  have hbalance (t : Errand) : s.load t ≤ s.asked t := by
    have hrun := run_balance hstaffed hnone steps t
    rw [load_start t node groups c actorConfig behaviour] at hrun
    exact (Nat.le_add_right _ _).trans (hrun.trans_eq (Nat.zero_add _))
  -- Up to here segments may be asked for again and again.
  have hsegments : (s.rounds.map fun k => k.request.segment).Nodup := by
    have hmap : s.rounds.map (fun k => k.request.segment) =
        ((requests steps).map fun q => q.segment).reverse := by
      rw [← List.map_reverse, ← hopened, List.map_map]
      rfl
    rw [hmap, List.nodup_reverse]
    exact hrequests
  refine ⟨hnodup, hlength, hopened, fun k hk => ?_⟩
  have hsub := answered_subperm hbalance hsegments hk
  have hfaithful := hnone.run hstaffed steps k hk
  rw [Coordinator.numPeers] at hfaithful
  rw [hpeers] at hsub hfaithful
  refine ⟨?_, hsub.subset, hfaithful.perm_of_done hsub⟩
  refine List.nodup_iff_count_le_one.mpr fun peer => ?_
  exact (List.subperm_iff_count.mp hsub peer).trans (List.nodup_iff_count_le_one.mp hnodup peer)

def lateGroups : List (String × Nat) := [("actor", 2), ("critic", 1)]

def lateConfig : CoordinatorConfig where
  groupName := "group"
  numPeers := 2

def lateCoordinator : Coordinator where
  config := lateConfig
  peers := ["actor.0", "actor.1"]

def echo (_ : PeerId) : Behaviour Unit Nat := fun calls =>
  some { experiences := calls.length, numExperiences := 1, numSteps := 1 }

def firstOfTwo : Request Unit where
  rolloutIndex := 7
  segmentIndex := 0
  numSteps := 4
  requiredFinishes := some 1

def bothAndStale : Request Unit where
  rolloutIndex := 7
  segmentIndex := 1
  numSteps := 4
  discardStale := false

/-- The first round ends with one answer; the other one is late and reaches the second round. -/
def lateSteps : List (Step Unit) :=
  [.collect firstOfTwo, .take 0, .complete 0, .take 1, .next, .collect bothAndStale, .exit,
    .complete 1, .next, .take 0, .take 1, .complete 1, .complete 0, .next, .next, .next]

def lateSystem : System Unit Nat :=
  (start lateCoordinator
    (Pool.spawn {} (ChannelNetwork.build "learner" lateGroups) echo).1).run lateSteps

theorem answers_of_lateResult :
    Coordinator.create lateConfig
        (ChannelNetwork.build "learner" lateGroups : ChannelNetwork Unit Nat) =
      (.ok lateCoordinator, [.coordinatorReady "learner" "group" 2 "actor"]) ∧
    ((requests lateSteps).map fun q => q.segment).Nodup ∧
    lateSystem.rounds.map RoundRecord.request = [bothAndStale, firstOfTwo] ∧
    ∃ k ∈ lateSystem.rounds, k.request.requiredFinishes = none ∧ k.items.length = 3 ∧
      k.answered.Perm lateCoordinator.peers := by
  have hcreate : Coordinator.create lateConfig
      (ChannelNetwork.build "learner" lateGroups : ChannelNetwork Unit Nat) =
      (.ok lateCoordinator, [.coordinatorReady "learner" "group" 2 "actor"]) := by rfl
  have hrequests : ((requests lateSteps).map fun q => q.segment).Nodup := by decide
  obtain ⟨-, -, hopened, hrounds⟩ := answers_of_run hcreate {} echo lateSteps hrequests
  change lateSystem.rounds.map RoundRecord.request = _ at hopened
  have hlength : 0 < lateSystem.rounds.length := by decide
  have hmem : lateSystem.rounds[0] ∈ lateSystem.rounds := List.getElem_mem hlength
  obtain ⟨-, -, hall⟩ := hrounds lateSystem.rounds[0] hmem
  have hdefault : lateSystem.rounds[0].request.requiredFinishes = none := by rfl
  have hdone : lateSystem.rounds[0].round.isDone = true := by rfl
  have hclean : lateSystem.rounds[0].items.all Except.isOk = true := by rfl
  have hanswered := hall hdefault hdone fun e he =>
    Bool.noConfusion (List.all_eq_true.mp hclean _ he)
  exact ⟨hcreate, hrequests, hopened, lateSystem.rounds[0], hmem, hdefault, by rfl, hanswered⟩

end ExperienceCollection.System
