import ExperienceCollection.Proofs.Actor.AtWork
import ExperienceCollection.Proofs.Collection.Answers

/-!
# Progress of a system

Opening a round brings every peer one more errand. From then on the answer of a peer is in its
queue, with its actor, in the inbox, or handed out by the round: no step can lose it, whatever the
round drops and whatever earlier rounds have left behind. A round that is not over has not heard
from all peers, so it never waits for an inbox that nobody will fill.
-/

namespace ExperienceCollection.System

variable {μ ε : Type}

/-- A system at work on a round to which every peer has given an answer or will give one. -/
structure Engaged (s : System μ ε) : Prop where
  staffed : s.Staffed
  faithful : s.Faithful
  atWork : s.pool.AtWork
  owed : ∀ k, s.rounds.head? = some k → ∀ peer ∈ s.coordinator.peers,
    0 < k.handed ⟨peer, k.request.segment⟩ + s.pool.load ⟨peer, k.request.segment⟩

lemma Engaged.collect {s : System μ ε} (h : s.Engaged) (q : Request μ) : (s.collect q).Engaged := by
  have hstaffed := h.staffed.of_cast (s.step_cast (.collect q))
  have hnetwork := h.atWork.network.broadcast s.coordinator.config.peerRole q.toInstruction
  rw [← Coordinator.collect_network] at hnetwork
  refine ⟨hstaffed, h.faithful.step h.staffed (.collect q),
    ⟨hstaffed.seated, hnetwork, h.atWork.actors⟩, ?_⟩
  intro k hk peer hpeer
  rw [System.collect, Coordinator.collect_registered h.staffed.role q] at hk
  obtain rfl := Option.some.inj hk
  have hmember : peer ∈ (Wiring.members s.pool.network.endpoints
      s.coordinator.config.peerRole).map Endpoint.id := by
    rw [h.staffed.members]
    exact hpeer
  have hfor : q.toInstruction.isFor ⟨peer, q.segment⟩ = true := decide_eq_true rfl
  have hload := h.atWork.network.broadcast_load_pos hmember hfor
  rw [← Coordinator.collect_network] at hload
  exact Nat.add_pos_right _ (Nat.add_pos_left hload _)

lemma Engaged.next {s : System μ ε} (h : s.Engaged) : s.next.Engaged := by
  have hstaffed := h.staffed.of_cast (s.step_cast .next)
  have hfaithful := h.faithful.step h.staffed .next
  have howed := h.owed
  rw [step, System.next] at hstaffed hfaithful
  rw [System.next]
  cases hrounds : s.rounds with
  | nil => exact h
  | cons k past =>
    rw [hrounds] at hstaffed hfaithful howed
    have hnetwork := h.atWork.network
    refine ⟨hstaffed, hfaithful, ⟨h.atWork.seated, ?_, h.atWork.actors⟩, ?_⟩
    · exact ⟨hnetwork.attached, hnetwork.alive, hnetwork.commands⟩
    · intro k' hk' peer hpeer
      obtain rfl := Option.some.inj hk'
      have hk := howed k rfl peer hpeer
      have hnext := (h.faithful k (by rw [hrounds]; exact List.mem_cons_self)).le_handed_next
        (t := ⟨peer, k.request.segment⟩) rfl s.coordinator s.pool.network
      unfold Pool.load at hk ⊢
      rw [RoundRecord.after_request]
      dsimp only
      omega

/-- The turns of the actors take nothing away from what the peers owe. -/
lemma Engaged.of_pool {s : System μ ε} (h : s.Engaged) {pool : Pool μ ε}
    (hpool : pool.AtWork ∧ ∀ t, pool.load t = s.pool.load t)
    (hcast : { s with pool }.cast = s.cast) : { s with pool }.Engaged := by
  refine ⟨h.staffed.of_cast hcast, h.faithful, hpool.1, fun k hk peer hpeer => ?_⟩
  dsimp only
  rw [hpool.2]
  exact h.owed k hk peer hpeer

lemma Engaged.step {s : System μ ε} (h : s.Engaged) {x : Step μ} (hx : x ≠ .exit) :
    (s.step x).Engaged := by
  cases x with
  | collect q => exact h.collect q
  | next => exact h.next
  | exit => exact (hx rfl).elim
  | take i => exact h.of_pool (h.atWork.take i) (s.step_cast (.take i))
  | complete i => exact h.of_pool (h.atWork.complete i) (s.step_cast (.complete i))

lemma Engaged.run {s : System μ ε} (h : s.Engaged) {steps : List (Step μ)}
    (hsteps : .exit ∉ steps) : (s.run steps).Engaged := by
  induction steps generalizing s with
  | nil => exact h
  | cons x steps ih =>
    rw [List.mem_cons, not_or] at hsteps
    exact ih (h.step (Ne.symm hsteps.1)) hsteps.2

/-- Whether a step is the turn of an actor. -/
def Step.isTurn : Step μ → Bool
  | take _ => true
  | complete _ => true
  | _ => false

/-- The actors can answer every errand under way without the coordinator. -/
lemma exists_answer {s : System μ ε} (h : s.pool.AtWork) {t : Errand} (hload : 0 < s.pool.load t) :
    ∃ turns : List (Step μ), (∀ x ∈ turns, x.isTurn = true) ∧
      ∃ e ∈ (s.run turns).pool.network.inbox, e.answers t = true := by
  generalize hrank : s.pool.backlog = rank
  induction rank using Nat.strong_induction_on generalizing s with
  | _ rank ih =>
    subst hrank
    -- Each turn is a move, so the backlog goes down and the load stays.
    have hmove {x : Step μ} {i : Nat} (hx : x.isTurn = true)
        (hmoves : Pool.Moves s.pool i (s.step x).pool) :
        ∃ turns : List (Step μ), (∀ x ∈ turns, x.isTurn = true) ∧
          ∃ e ∈ (s.run turns).pool.network.inbox, e.answers t = true := by
      have hrest := ih _ hmoves.backlog_lt (hmoves.atWork h)
        (by rwa [hmoves.load_eq h.seated]) rfl
      obtain ⟨turns, hturns, hanswer⟩ := hrest
      refine ⟨x :: turns, fun y hy => ?_, hanswer⟩
      rcases List.mem_cons.mp hy with rfl | hy
      · exact hx
      · exact hturns y hy
    rcases h.exists_moves with ⟨i, htake | hcomplete⟩ | hrest
    · exact hmove (x := .take i) rfl htake
    · exact hmove (x := .complete i) rfl hcomplete
    · rw [hrest t] at hload
      exact ⟨[], by simp, List.countP_pos_iff.mp hload⟩

/-- A new system is at work if its behaviours always return. -/
lemma engaged_start {node : PeerId} {groups : List (String × Nat)} {config : CoordinatorConfig}
    {c : Coordinator} {log : List Log.Event}
    (h : Coordinator.create config (ChannelNetwork.build node groups : ChannelNetwork μ ε) =
      (.ok c, log))
    (actorConfig : ActorConfig) {behaviour : PeerId → Behaviour μ ε}
    (hreturns : ∀ peer calls, calls ≠ [] → (behaviour peer calls).isSome = true) :
    (start c (Pool.spawn actorConfig (ChannelNetwork.build node groups) behaviour).1).Engaged := by
  have hstaffed := staffed_start h actorConfig behaviour
  refine ⟨hstaffed, by simp [start, Faithful], ⟨hstaffed.seated, ⟨rfl, ?_, ?_⟩, ?_⟩,
    by simp [start]⟩
  · intro e he
    obtain ⟨g, -, i, rfl⟩ := ChannelNetwork.mem_build he
    rfl
  · intro e he c hc
    rw [build_commands node groups e he] at hc
    cases hc
  · intro a ha
    obtain ⟨e, -, rfl⟩ := List.mem_map.mp ha
    exact ⟨rfl, fun hbusy => Bool.noConfusion hbusy, hreturns e.id⟩

/-- Endpoints keep their names and roles, so the name of a peer of the coordinator stays one of its
role. -/
lemma run_role {node : PeerId} {groups : List (String × Nat)} {config : CoordinatorConfig}
    {c : Coordinator} {log : List Log.Event}
    (h : Coordinator.create config (ChannelNetwork.build node groups : ChannelNetwork μ ε) =
      (.ok c, log))
    (actorConfig : ActorConfig) (behaviour : PeerId → Behaviour μ ε) (steps : List (Step μ))
    {e : Endpoint μ}
    (he : e ∈ ((start c (Pool.spawn actorConfig (ChannelNetwork.build node groups)
      behaviour).1).run steps).pool.network.endpoints)
    (hpeer : e.id ∈ c.peers) : e.role = config.peerRole := by
  let n : ChannelNetwork μ ε := ChannelNetwork.build node groups
  let s₀ := start c (Pool.spawn actorConfig n behaviour).1
  obtain ⟨-, -, -, hmembers⟩ := Coordinator.create_ok h
  have hroster : (s₀.run steps).pool.network.roster = n.roster :=
    congrArg (fun x => x.2.2.2) (s₀.run_cast steps)
  have hpair : (e.id, e.role) ∈ (s₀.run steps).pool.network.roster.2 :=
    List.mem_map_of_mem he
  rw [hroster] at hpair
  obtain ⟨built, hbuilt, heq⟩ := List.mem_map.mp hpair
  obtain ⟨hid, hrole⟩ := Prod.mk.inj heq
  rw [← hmembers] at hpeer
  obtain ⟨member, hmember, hname⟩ := List.mem_map.mp hpeer
  obtain ⟨hmember, hmine⟩ := List.mem_filter.mp hmember
  rw [← hrole, ChannelNetwork.role_eq_of_build_id hbuilt hmember (hid.trans hname.symm)]
  exact of_decide_eq_true hmine

/-- In a system that was built with its coordinator, and whose behaviours always return, let the
coordinator work on any requests, the same ones again and again if it likes, but not tell its peers
to exit. As long as a round that requires no more results than there are peers is not over, one of
them has yet to be heard: its answer is in the inbox, or its actor has the instruction in hand. With
some more turns the actors put a result that the round wants in the inbox. -/
theorem progress_of_run {node : PeerId} {groups : List (String × Nat)} {config : CoordinatorConfig}
    {c : Coordinator} {log : List Log.Event}
    (h : Coordinator.create config (ChannelNetwork.build node groups : ChannelNetwork μ ε) =
      (.ok c, log))
    (actorConfig : ActorConfig) {behaviour : PeerId → Behaviour μ ε}
    (hreturns : ∀ peer calls, calls ≠ [] → (behaviour peer calls).isSome = true)
    {steps : List (Step μ)} (hsteps : .exit ∉ steps) :
    let n : ChannelNetwork μ ε := ChannelNetwork.build node groups
    let s := (start c (Pool.spawn actorConfig n behaviour).1).run steps
    ∀ k, s.rounds.head? = some k → k.round.isDone = false → k.round.required ≤ c.numPeers →
      (∃ peer ∈ c.peers, peer ∉ k.answered ∧
        ((∃ e ∈ s.pool.network.inbox, e.source = peer ∧ k.round.wants e = true) ∨
          s.pool.Holds config.peerRole ⟨peer, k.request.segment⟩)) ∧
      ∃ turns : List (Step μ), (∀ x ∈ turns, x.isTurn = true) ∧
        ∃ e ∈ (s.run turns).pool.network.inbox, k.round.wants e = true := by
  intro n s k hk hopen hle
  let s₀ := start c (Pool.spawn actorConfig n behaviour).1
  have hengaged : s.Engaged := (engaged_start h actorConfig hreturns).run hsteps
  have hpeers : s.coordinator.peers = c.peers := congrArg (fun x => x.2.1) (s₀.run_cast steps)
  have hfaithful := hengaged.faithful k (List.mem_of_mem_head? hk)
  rw [Coordinator.numPeers, hpeers] at hfaithful
  obtain ⟨-, -, -, hmembers⟩ := Coordinator.create_ok h
  have hnodup : c.peers.Nodup := by
    rw [← hmembers]
    exact ChannelNetwork.nodup_members_build_id node groups config.peerRole
  obtain ⟨peer, hpeer, hmissing⟩ := hfaithful.exists_unanswered hnodup hopen hle
  -- What the round has not handed out is still under way.
  have hload : 0 < s.pool.load ⟨peer, k.request.segment⟩ := by
    have howed := hengaged.owed k hk peer (hpeers ▸ hpeer)
    rwa [RoundRecord.handed, if_pos rfl, List.count_eq_zero.mpr hmissing, Nat.zero_add] at howed
  refine ⟨⟨peer, hpeer, hmissing, ?_⟩, ?_⟩
  · have hrole : ∀ e ∈ s.pool.network.endpoints, e.id = peer → e.role = config.peerRole :=
      fun e he hid => run_role h actorConfig behaviour steps he (hid ▸ hpeer)
    refine (hengaged.atWork.answered_or_holds hload hrole).imp_left ?_
    rintro ⟨e, he, hanswers⟩
    have hwants := hfaithful.wants_of_answers rfl hanswers
    simp only [Envelope.answers, decide_eq_true_eq] at hanswers
    exact ⟨e, he, hanswers.1, hwants⟩
  · obtain ⟨turns, hturns, e, he, hanswers⟩ := exists_answer hengaged.atWork hload
    exact ⟨turns, hturns, e, he, hfaithful.wants_of_answers rfl hanswers⟩

/-- The second round waits: one peer is at work on it, and the other has not even begun with the
first. -/
def waitingSteps : List (Step Unit) :=
  [.collect firstOfTwo, .take 0, .complete 0, .next, .collect bothAndStale, .take 0, .next]

def waitingSystem : System Unit Nat :=
  (start lateCoordinator
    (Pool.spawn {} (ChannelNetwork.build "learner" lateGroups) echo).1).run waitingSteps

theorem progress_of_waitingSystem :
    Coordinator.create lateConfig
        (ChannelNetwork.build "learner" lateGroups : ChannelNetwork Unit Nat) =
      (.ok lateCoordinator, [.coordinatorReady "learner" "group" 2 "actor"]) ∧
    (∀ peer calls, calls ≠ [] → (echo peer calls).isSome = true) ∧
    .exit ∉ waitingSteps ∧
    waitingSystem.pool.network.inbox = [] ∧
    ∃ k, waitingSystem.rounds.head? = some k ∧ k.round.isDone = false ∧
      k.round.required ≤ lateCoordinator.numPeers ∧
      (∃ peer ∈ lateCoordinator.peers, waitingSystem.pool.Holds "actor" ⟨peer, (7, 1)⟩) ∧
      ∃ turns : List (Step Unit), (∀ x ∈ turns, x.isTurn = true) ∧
        ∃ e ∈ (waitingSystem.run turns).pool.network.inbox, k.round.wants e = true := by
  have hcreate : Coordinator.create lateConfig
      (ChannelNetwork.build "learner" lateGroups : ChannelNetwork Unit Nat) =
      (.ok lateCoordinator, [.coordinatorReady "learner" "group" 2 "actor"]) := by rfl
  have hreturns (peer : PeerId) (calls : List (Instruction Unit)) (_ : calls ≠ []) :
      (echo peer calls).isSome = true := by rfl
  have hexit : .exit ∉ waitingSteps := by simp [waitingSteps]
  have hempty : waitingSystem.pool.network.inbox = [] := by rfl
  have hlength : 0 < waitingSystem.rounds.length := by decide
  have hhead : waitingSystem.rounds.head? = some waitingSystem.rounds[0] := by rfl
  have hopen : waitingSystem.rounds[0].round.isDone = false := by rfl
  have hrequired : waitingSystem.rounds[0].round.required ≤ lateCoordinator.numPeers :=
    Nat.le_refl 2
  obtain ⟨⟨peer, hpeer, -, hanswer⟩, hturns⟩ :=
    progress_of_run hcreate {} hreturns hexit _ hhead hopen hrequired
  refine ⟨hcreate, hreturns, hexit, hempty, _, hhead, hopen, hrequired, ⟨peer, hpeer, ?_⟩, hturns⟩
  -- Nothing is in the inbox, so it is in the hands of an actor.
  refine hanswer.resolve_left ?_
  rintro ⟨e, he, -⟩
  exact List.not_mem_nil he

end ExperienceCollection.System
