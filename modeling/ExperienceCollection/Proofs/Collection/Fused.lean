import ExperienceCollection.Proofs.Collection.Quorum
import ExperienceCollection.Proofs.Collection.Receive

/-!
# Rounds that are over

A round may be pulled at any number of times, with anything in the queue and any changes to it
between two pulls. Its count only grows, up to the number it requires. A failure is the last item
that it hands out. Once a pull has found the end of the round or has failed, no later pull receives
anything, whatever may have arrived.
-/

namespace ExperienceCollection

variable {τ μ ε : Type}

/-- Whether the round is over after a pull with this outcome. -/
def Pulled.isLast : Pulled ε → Bool
  | batch _ => false
  | failed _ => true
  | ended => true
  | waiting => false

/-- The ways of a pull: the round is over, it stays open, it fails, or it hands out a batch. -/
inductive Coordinator.Ways (c : Coordinator) (r : Round) : Turn τ ε → Prop where
  | ended (network : τ) (log : List Log.Event) (isDone : r.isDone = true) :
    Ways c r ⟨.ended, c, r, network, log⟩
  | waiting (network : τ) (log : List Log.Event) (undone : r.isDone = false) :
    Ways c r ⟨.waiting, c, r, network, log⟩
  | failed (network : τ) (log : List Log.Event) (e : NetworkError) (undone : r.isDone = false) :
    Ways c r ⟨.failed e, c, { r with closed := true }, network, log⟩
  | batch (coordinator : Coordinator) (network : τ) (log : List Log.Event)
    (e : Envelope (Result ε)) (undone : r.isDone = false) :
    Ways c r ⟨.batch e.batch, coordinator, r.count e, network, log⟩

lemma Coordinator.ways_next [Network τ μ ε] (c : Coordinator) (r : Round) (n : τ) :
    Ways c r (c.next r n) := by
  have hpull := r.pull_pulls c.config.logEnvMetrics (Network.isClosed n) c.metrics
    (Network.arrivals n)
  rw [next]
  cases hpull with
  | ended isDone outcome round metrics =>
    rw [outcome, round, metrics]
    exact .ended _ _ isDone
  | batch dropped e rest isOpen drops accepts queue outcome round =>
    rw [outcome, round]
    exact .batch _ _ _ e isOpen
  | failed dropped e rest isOpen drops queue outcome round metrics =>
    rw [outcome, round, metrics]
    exact .failed _ _ e isOpen
  | disconnected dropped isOpen drops queue isClosed outcome round metrics =>
    rw [outcome, round, metrics]
    exact .failed _ _ .disconnected isOpen
  | waiting dropped isOpen drops queue isClosed outcome round metrics =>
    rw [outcome, round, metrics]
    exact .waiting _ _ isOpen

namespace Round

lemma undone_iff {r : Round} : r.isDone = false ↔ r.closed = false ∧ r.finished < r.required := by
  simp [isDone]

/-- What holds of a round that requires so many results, after pulls with these outcomes: it has not
counted more of them, a failure is its last item, and it is over once a pull has found its end or
has failed. -/
structure Sound (quorum : Nat) (outcomes : List (Pulled ε)) (r : Round) : Prop where
  required : r.required = quorum
  finished : r.finished ≤ quorum
  batches : r.closed = false → ∃ batches : List (AcceptedBatch ε),
    outcomes.flatMap Pulled.items = batches.map .ok
  failure : r.closed = true → ∃ (batches : List (AcceptedBatch ε)) (e : NetworkError),
    outcomes.flatMap Pulled.items = batches.map .ok ++ [.error e]
  ended : outcomes.any Pulled.isLast = true → r.isDone = true

variable {quorum : Nat} {outcomes : List (Pulled ε)} {r : Round}

/-- A pull that hands out nothing and leaves the round as it is. -/
lemma Sound.of_idle (h : r.Sound quorum outcomes) {o : Pulled ε} (hitems : o.items = [])
    (hlast : o.isLast = true → r.isDone = true) : r.Sound quorum (outcomes ++ [o]) := by
  have hsame : (outcomes ++ [o]).flatMap Pulled.items = outcomes.flatMap Pulled.items := by
    rw [List.flatMap_append, List.flatMap_singleton, hitems, List.append_nil]
  refine ⟨h.required, h.finished, fun hc => hsame ▸ h.batches hc, fun hc => hsame ▸ h.failure hc,
    fun hended => ?_⟩
  rw [List.any_append, Bool.or_eq_true] at hended
  rcases hended with hended | hended
  · exact h.ended hended
  · exact hlast (by simpa using hended)

lemma Sound.next {c : Coordinator} {t : Turn τ ε} (h : r.Sound quorum outcomes)
    (ht : c.Ways r t) : t.round.Sound quorum (outcomes ++ [t.outcome]) := by
  cases ht with
  | ended network log isDone => exact h.of_idle rfl fun _ => isDone
  | waiting network log undone => exact h.of_idle rfl nofun
  | failed network log e undone =>
    obtain ⟨batches, hbatches⟩ := h.batches (undone_iff.mp undone).1
    refine ⟨h.required, h.finished, nofun, fun _ => ⟨batches, e, ?_⟩, fun _ => rfl⟩
    rw [List.flatMap_append, hbatches]
    rfl
  | batch coordinator network log e undone =>
    obtain ⟨hclosed, hlt⟩ := undone_iff.mp undone
    obtain ⟨batches, hbatches⟩ := h.batches hclosed
    refine ⟨h.required, ?_, fun _ => ⟨batches ++ [e.batch], ?_⟩, fun hc => ?_, fun hended => ?_⟩
    · have hrequired := h.required
      dsimp only [Round.count]
      split <;> omega
    · rw [List.flatMap_append, hbatches, List.map_append]
      rfl
    · exact absurd (hclosed.symm.trans hc) Bool.false_ne_true
    · rw [List.any_append, Bool.or_eq_true] at hended
      have hdone := h.ended (by simpa [Pulled.isLast] using hended)
      exact absurd (undone.symm.trans hdone) Bool.false_ne_true

end Round

namespace Campaign

variable [Network τ μ ε]

/-- Whether some pull has found the end of its round or has failed. -/
def hasEnded (s : Campaign τ μ ε) : Bool := s.outcomes.any Pulled.isLast

/-- How a round goes on: it counts no less, and once it is over nothing of it changes. -/
structure Continues (q : Request μ) (r : Round) (s s' : Campaign τ μ ε) (r' : Round) : Prop where
  current : s'.current = some (q, r')
  finished : r.finished ≤ r'.finished
  ended : r.isDone = true → r' = r ∧ s'.coordinator = s.coordinator ∧ s'.items = s.items

variable {ι : Type} {act : ι → τ → τ} {q : Request μ} {r : Round} {s : Campaign τ μ ε}

lemma Continues.next {s' : Campaign τ μ ε} {r' : Round} (h : Continues q r s s' r') :
    Continues q r s s'.next (s'.coordinator.next r' s'.network).round := by
  have hways := s'.coordinator.ways_next r' s'.network
  refine ⟨next_current h.current, ?_, fun hdone => ?_⟩
  · generalize s'.coordinator.next r' s'.network = t at hways
    cases hways with
    | batch coordinator network log e undone => exact h.finished.trans (Nat.le_add_right _ _)
    | _ => exact h.finished
  · obtain ⟨rfl, hcoordinator, hitems⟩ := h.ended hdone
    rw [next_coordinator h.current, next_items h.current, ← hcoordinator, ← hitems]
    generalize s'.coordinator.next r' s'.network = t at hways
    cases hways with
    | ended network log isDone => exact ⟨rfl, rfl, List.append_nil _⟩
    | waiting network log undone => exact absurd (undone.symm.trans hdone) Bool.false_ne_true
    | failed network log e undone => exact absurd (undone.symm.trans hdone) Bool.false_ne_true
    | batch coordinator network log e undone =>
      exact absurd (undone.symm.trans hdone) Bool.false_ne_true

lemma continues_run (h : s.current = some (q, r)) {steps : List (Step ι μ)}
    (hsteps : ∀ x ∈ steps, x.goesOn = true) : ∃ r', Continues q r s (s.run act steps) r' := by
  have hstart : Continues q r s s r := ⟨h, Nat.le_refl _, fun _ => ⟨rfl, rfl, rfl⟩⟩
  refine run_of_goesOn (P := fun s' => ∃ r', Continues q r s s' r') ?_ ?_ ⟨r, hstart⟩ hsteps
  · exact fun s' ⟨_, hs'⟩ => ⟨_, hs'.next⟩
  · exact fun s' move ⟨r', hs'⟩ => ⟨r', hs'.current, hs'.finished, hs'.ended⟩

lemma sound_run {quorum : Nat} (h : s.current = some (q, r)) (hr : r.Sound quorum s.outcomes)
    {steps : List (Step ι μ)} (hsteps : ∀ x ∈ steps, x.goesOn = true) :
    ∃ r', (s.run act steps).current = some (q, r') ∧
      r'.Sound quorum (s.run act steps).outcomes := by
  refine run_of_goesOn
    (P := fun s' => ∃ r', s'.current = some (q, r') ∧ r'.Sound quorum s'.outcomes) ?_ ?_
    ⟨r, h, hr⟩ hsteps
  · rintro s' ⟨r', hcurrent, hr'⟩
    refine ⟨_, next_current hcurrent, ?_⟩
    rw [next_outcomes hcurrent]
    exact hr'.next (s'.coordinator.ways_next r' s'.network)
  · exact fun s' move hs' => hs'

/-- A round may be pulled at any number of times, on a queue that holds anything and may change in
any way between two pulls. Its count does not go down and does not pass what it requires, and once
it is over it remains so. It hands out at most one failure, as its last item. After a pull that has
found its end or has failed, every pull ends at once: it receives nothing and leaves the queue, the
round and the coordinator with its totals as they are. -/
theorem fused_of_run [SteadyNetwork τ] {c : Coordinator} {n : τ} {q : Request μ} {r₀ : Round}
    (h : (c.collect n q).outcome = .ok r₀) {steps : List (Step (τ → τ) μ)}
    (hsteps : ∀ x ∈ steps, x.goesOn = true) :
    let s : Campaign τ μ ε := ((start c n).collect q).run id steps
    ∃ r, s.current = some (q, r) ∧ r.finished ≤ q.requiredFinishes.getD c.numPeers ∧
      (∃ batches : List (AcceptedBatch ε), s.items = batches.map .ok ∨
        ∃ e, s.items = batches.map .ok ++ [.error e]) ∧
      ∀ later : List (Step (τ → τ) μ), (∀ x ∈ later, x.goesOn = true) →
        let s' := s.run id later
        ∃ r', s'.current = some (q, r') ∧ r.finished ≤ r'.finished ∧
          (r.isDone = true → r'.isDone = true) ∧
          (s.hasEnded = true →
            r' = r ∧ s'.coordinator = s.coordinator ∧ s'.items = s.items ∧
              let t := s'.coordinator.next r' s'.network
              t.outcome = .ended ∧ t.round = r ∧ t.coordinator = s.coordinator ∧
                t.network = s'.network ∧
                ∀ calls, Coordinator.Receives s'.coordinator r' calls s'.network t ↔
                  calls = 0) := by
  intro s
  have hopened : ((start c n : Campaign τ μ ε).collect q).current = some (q, c.opened q) :=
    collect_of_ok h
  have hfresh : (c.opened q).Sound (q.requiredFinishes.getD c.numPeers) ([] : List (Pulled ε)) :=
    ⟨rfl, Nat.zero_le _, fun _ => ⟨[], rfl⟩, nofun, nofun⟩
  obtain ⟨r, hcurrent, hsound⟩ := sound_run hopened hfresh hsteps
  refine ⟨r, hcurrent, hsound.finished, ?_, fun later hlater => ?_⟩
  · cases hclosed : r.closed with
    | false =>
      obtain ⟨batches, hbatches⟩ := hsound.batches hclosed
      exact ⟨batches, .inl hbatches⟩
    | true =>
      obtain ⟨batches, e, hfailure⟩ := hsound.failure hclosed
      exact ⟨batches, .inr ⟨e, hfailure⟩⟩
  · intro s'
    obtain ⟨r', hcontinues⟩ := continues_run hcurrent hlater
    refine ⟨r', hcontinues.current, hcontinues.finished,
      fun hdone => (hcontinues.ended hdone).1 ▸ hdone, fun hended => ?_⟩
    have hdone := hsound.ended hended
    obtain ⟨rfl, hcoordinator, hitems⟩ := hcontinues.ended hdone
    refine ⟨rfl, hcoordinator, hitems, ?_⟩
    intro t
    have ht : t = ⟨.ended, s'.coordinator, r', s'.network, []⟩ :=
      s'.coordinator.next_of_isDone hdone s'.network
    refine ⟨by rw [ht], by rw [ht], by rw [ht]; exact hcoordinator, by rw [ht], fun calls => ?_⟩
    constructor
    · exact fun hcalls => hcalls.calls_eq_zero_iff.mpr hdone
    · rintro rfl
      exact ht ▸ .ended hdone

/-- The connection is lost between two wanted results. -/
def brokenNetwork : ScriptedNetwork Unit Nat where
  node := "learner"
  groups := .empty
  inbox :=
    [.ok (Result.envelope "actor.0" ⟨7, 1, 3, 3, false, none, 11, none⟩), .error .disconnected,
      .ok (Result.envelope "actor.1" ⟨7, 1, 1, 1, false, none, 12, none⟩)]

def pairRequest : Request Unit := { staleRequest with requiredFinishes := none }

/-- Two pulls at the round, the second of which fails. -/
def brokenCampaign : Campaign (ScriptedNetwork Unit Nat) Unit Nat :=
  ((start pairCoordinator brokenNetwork).collect pairRequest).run id [.next, .next]

/-- The same round after all results are there again and one more pull. -/
def mendedCampaign : Campaign (ScriptedNetwork Unit Nat) Unit Nat :=
  brokenCampaign.run id [.environment fun _ => brokenNetwork, .next]

/-- Both results are there again after the failure, but nothing is received any more. -/
theorem fused_of_brokenNetwork :
    (pairCoordinator.collect brokenNetwork pairRequest).outcome =
        .ok (pairCoordinator.opened pairRequest) ∧
      brokenCampaign.hasEnded = true ∧ brokenCampaign.items.length = 2 ∧
      ∃ r, brokenCampaign.current = some (pairRequest, r) ∧ r.finished = 1 ∧
        mendedCampaign.current = some (pairRequest, r) ∧
        mendedCampaign.items = brokenCampaign.items ∧ mendedCampaign.network.inbox.length = 3 ∧
        (mendedCampaign.coordinator.next r mendedCampaign.network).network =
          mendedCampaign.network := by
  have h : (pairCoordinator.collect brokenNetwork pairRequest).outcome =
      .ok (pairCoordinator.opened pairRequest) := rfl
  have hended : brokenCampaign.hasEnded = true := rfl
  have hround : brokenCampaign.current = some (pairRequest, ⟨7, 1, 2, false, 1, true⟩) := rfl
  have hpulls : ∀ x ∈ [(.next : Step (ScriptedNetwork Unit Nat → ScriptedNetwork Unit Nat) Unit),
      .next], x.goesOn = true := by simp [Step.goesOn]
  have hlater : ∀ x ∈ [.environment fun _ : ScriptedNetwork Unit Nat => brokenNetwork,
      (.next : Step _ Unit)], x.goesOn = true := by simp [Step.goesOn]
  obtain ⟨r, hcurrent, -, -, hover⟩ := fused_of_run h hpulls
  obtain ⟨r', hcurrent', -, -, hfused⟩ := hover _ hlater
  obtain ⟨rfl, -, hitems, -, -, -, hnetwork, -⟩ := hfused hended
  obtain ⟨-, rfl⟩ := Prod.mk.inj (Option.some.inj (hcurrent.symm.trans hround))
  exact ⟨h, hended, rfl, _, hround, rfl, hcurrent', hitems, rfl, hnetwork⟩

end Campaign

end ExperienceCollection
