import ExperienceCollection.Proofs.Collection.Pull
import ExperienceCollection.Proofs.Network.Steps

/-!
# A coordinator on a channel network

What creating a coordinator, opening a round, one pull and telling the peers to exit come down to on
a channel network.
-/

namespace ExperienceCollection

variable {μ ε : Type}

lemma map_ok_injective {α : Type} : Function.Injective (List.map (Except.ok (ε := NetworkError)) :
    List α → List (Except NetworkError α)) :=
  List.map_injective_iff.mpr fun _ _ h => Except.ok.inj h

namespace Coordinator

/-- A coordinator is created with the peers of its role, as many as configured. -/
lemma create_ok {config : CoordinatorConfig} {n : ChannelNetwork μ ε} {c : Coordinator}
    {log : List Log.Event} (h : Coordinator.create config n = (.ok c, log)) :
    c.config = config ∧ config.peerRole ∈ n.roles ∧ c.peers.length = config.numPeers ∧
      (Wiring.members n.endpoints config.peerRole).map Endpoint.id = c.peers := by
  unfold create at h
  split at h
  · cases h
  · dsimp only [Network.peers] at h
    by_cases hrole : config.peerRole ∈ n.roles
    · rw [ChannelNetwork.peers_registered hrole] at h
      dsimp only at h
      split at h
      · cases h
      · rename_i hlength
        obtain ⟨hc, -⟩ := Prod.mk.inj h
        obtain rfl := Except.ok.inj hc
        exact ⟨rfl, hrole, not_not.mp hlength, rfl⟩
    · rw [ChannelNetwork.peers_unregistered hrole] at h
      cases h

lemma create_metrics {τ : Type} [Network τ μ ε] {config : CoordinatorConfig} {n : τ}
    {c : Coordinator} {log : List Log.Event} (h : Coordinator.create config n = (.ok c, log)) :
    c.metrics = {} := by
  unfold create at h
  split at h
  · cases h
  · split at h
    · cases h
    · split at h
      · cases h
      · obtain ⟨hc, -⟩ := Prod.mk.inj h
        obtain rfl := Except.ok.inj hc
        rfl

/-- The round that a coordinator opens for a request. -/
def opened (c : Coordinator) (q : Request μ) : Round where
  rolloutIndex := q.rolloutIndex
  segmentIndex := q.segmentIndex
  required := q.requiredFinishes.getD c.numPeers
  discardStale := q.discardStale

lemma collect_network (c : Coordinator) (n : ChannelNetwork μ ε) (q : Request μ) :
    (c.collect n q).network =
      (n.broadcast c.config.peerRole (.rollout q.toInstruction)).network := by
  unfold collect
  dsimp only [Network.broadcast]
  split <;> rfl

lemma collect_ok {τ : Type} [Network τ μ ε] {c : Coordinator} {n : τ} {q : Request μ} {r : Round}
    (h : (c.collect n q).outcome = .ok r) : r = c.opened q := by
  unfold collect at h
  cases ho : (Network.broadcast n c.config.peerRole (.rollout q.toInstruction)).outcome with
  | error e => simp [ho] at h
  | ok u =>
    simp only [ho, Except.ok.injEq] at h
    exact h.symm

lemma collect_registered {c : Coordinator} {n : ChannelNetwork μ ε}
    (h : c.config.peerRole ∈ n.roles) (q : Request μ) :
    (c.collect n q).outcome = .ok (c.opened q) := by
  have hok := ChannelNetwork.broadcast_outcome h (.rollout q.toInstruction)
  unfold collect
  dsimp only [Network.broadcast]
  rw [hok]
  rfl

/-- The three ways of a pull at a channel network: the round is over, the whole inbox is dropped,
or a result is accepted. -/
lemma next_cases (c : Coordinator) (r : Round) (n : ChannelNetwork μ ε) :
    let t := c.next r n
    (r.isDone = true ∧ t.outcome = .ended ∧ t.coordinator = c ∧ t.round = r ∧ t.network = n) ∨
      (r.isDone = false ∧ (∀ d ∈ n.inbox, r.accepts d = false) ∧
        t.outcome = (if n.isClosed then .failed .disconnected else .waiting) ∧
        t.coordinator = c ∧ t.round = { r with closed := n.isClosed } ∧
        t.network = { n with inbox := [] }) ∨
      (r.isDone = false ∧ ∃ dropped e rest,
        (∀ d ∈ dropped, r.accepts d = false) ∧ r.accepts e = true ∧
        n.inbox = dropped ++ e :: rest ∧ t.outcome = .batch e.batch ∧
        t.round = r.count e ∧ t.network = { n with inbox := rest }) := by
  have hpull := r.pull_pulls c.config.logEnvMetrics n.isClosed c.metrics (n.inbox.map .ok)
  dsimp only [next, Network.arrivals, Network.isClosed, Network.consume]
  rcases hp : r.pull c.config.logEnvMetrics n.isClosed c.metrics (n.inbox.map .ok) with
    ⟨outcome, round, metrics, log, consumed⟩
  rw [hp] at hpull
  cases hpull with
  | ended isDone houtcome hround hmetrics hconsumed =>
    dsimp only at houtcome hround hmetrics hconsumed
    subst houtcome hround hmetrics hconsumed
    exact .inl ⟨isDone, rfl, rfl, rfl, rfl⟩
  | batch dropped e rest isOpen drops accepts queue houtcome hround hmetrics hconsumed =>
    dsimp only at houtcome hround hmetrics hconsumed
    subst houtcome hround hmetrics hconsumed
    obtain ⟨front, back, hinbox, hfront, hback⟩ := List.map_eq_append_iff.mp queue
    obtain ⟨e', rest', rfl, he, hrest⟩ := List.map_eq_cons_iff.mp hback
    obtain rfl := map_ok_injective hfront
    obtain rfl := Except.ok.inj he
    refine .inr (.inr ⟨isOpen, front, e', rest', drops, accepts, hinbox, rfl, rfl, ?_⟩)
    simp [hinbox]
  | failed dropped error rest isOpen drops queue =>
    have hmem : (.error error : Arrival ε) ∈ n.inbox.map .ok := by simp [queue]
    simp at hmem
  | disconnected dropped isOpen drops queue isClosed houtcome hround hmetrics hconsumed =>
    dsimp only at houtcome hround hmetrics hconsumed
    subst houtcome hround hmetrics hconsumed
    obtain rfl := map_ok_injective queue
    exact .inr (.inl ⟨isOpen, drops, by simp [isClosed], rfl, by simp [isClosed], by simp⟩)
  | waiting dropped isOpen drops queue isClosed houtcome hround hmetrics hconsumed =>
    dsimp only at houtcome hround hmetrics hconsumed
    subst houtcome hround hmetrics hconsumed
    obtain rfl := map_ok_injective queue
    have hclosed : round.closed = false := by
      simp only [Round.isDone, Bool.or_eq_false_iff] at isOpen
      exact isOpen.1
    refine .inr (.inl ⟨isOpen, drops, by simp [isClosed], rfl, ?_, by simp⟩)
    simp [isClosed, ← hclosed]

/-- A pull changes no more of a round than its count and whether it is closed. -/
lemma next_round {τ : Type} [Network τ μ ε] (c : Coordinator) (r : Round) (n : τ) :
    ∃ finished closed, (c.next r n).round = { r with finished, closed } :=
  (r.pull_pulls c.config.logEnvMetrics (Network.isClosed n) c.metrics
    (Network.arrivals n)).round_eq

lemma exit_network (c : Coordinator) (n : ChannelNetwork μ ε) :
    (c.exit n).1 = (n.broadcast c.config.peerRole .exit).network := by
  unfold exit
  dsimp only [Network.broadcast]
  split <;> rfl

end Coordinator

end ExperienceCollection
