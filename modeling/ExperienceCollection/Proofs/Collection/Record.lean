import ExperienceCollection.Proofs.Actor.Errands
import ExperienceCollection.Proofs.Collection.Coordinator
import Mathlib.Data.List.Perm.Subperm

/-!
# Records of rounds

A record keeps the request of a round and everything that the round has handed out. Among the items
the answers stand out, the batches of the requested segment: they are what the round counts.
-/

namespace ExperienceCollection

variable {μ ε : Type}

/-- A round of a system with the request it was opened for and the items it has handed out. -/
structure RoundRecord (μ ε : Type) where
  request : Request μ
  round : Round
  items : List (Except NetworkError (AcceptedBatch ε)) := []

/-- The record of a round after one more pull. -/
def RoundRecord.after {τ : Type} (k : RoundRecord μ ε) (t : Turn τ ε) : RoundRecord μ ε where
  request := k.request
  round := t.round
  items := k.items ++ t.outcome.items

namespace RoundRecord

/-- The batches of the requested segment that a round has handed out. -/
def answers (k : RoundRecord μ ε) : List (AcceptedBatch ε) :=
  (k.items.filterMap Except.toOption).filter fun b => b.segmentIndex = k.request.segmentIndex

/-- The peers they come from, in order. -/
def answered (k : RoundRecord μ ε) : List PeerId := k.answers.map AcceptedBatch.source

/-- How often a round has handed out the answer to an errand. -/
def handed (t : Errand) (k : RoundRecord μ ε) : Nat :=
  if k.request.segment = t.segment then k.answered.count t.peer else 0

/-- A record agrees with its round, opened by a coordinator with a number of peers. -/
structure Faithful (numPeers : Nat) (k : RoundRecord μ ε) : Prop where
  segment : (k.round.rolloutIndex, k.round.segmentIndex) = k.request.segment
  required : k.round.required = k.request.requiredFinishes.getD numPeers
  finished : k.round.finished = k.answers.length
  closed : k.round.closed = true → .error .disconnected ∈ k.items

@[simp] lemma after_request {τ : Type} (k : RoundRecord μ ε) (t : Turn τ ε) :
    (k.after t).request = k.request := rfl

lemma after_outcome_nil {τ : Type} (k : RoundRecord μ ε) {t : Turn τ ε}
    (h : ∀ b, t.outcome ≠ .batch b) : (k.after t).answers = k.answers := by
  have hitems : t.outcome.items.filterMap Except.toOption = [] := by
    cases ho : t.outcome with
    | batch b => exact (h b ho).elim
    | failed e => rfl
    | ended => rfl
    | waiting => rfl
  rw [answers, after, List.filterMap_append, hitems, List.append_nil]
  rfl

lemma after_batch {τ : Type} (k : RoundRecord μ ε) {t : Turn τ ε} {b : AcceptedBatch ε}
    (h : t.outcome = .batch b) :
    (k.after t).answers =
      k.answers ++ if b.segmentIndex = k.request.segmentIndex then [b] else [] := by
  have hitems : t.outcome.items.filterMap Except.toOption = [b] := by rw [h]; rfl
  rw [answers, after, List.filterMap_append, hitems, List.filter_append]
  by_cases hb : b.segmentIndex = k.request.segmentIndex <;> simp [answers, hb]

lemma outcome_ne_batch (closed : Bool) (b : AcceptedBatch ε) :
    (if closed then Pulled.failed .disconnected else .waiting) ≠ .batch b := by
  cases closed <;> simp

lemma Faithful.wants_iff {numPeers : Nat} {k : RoundRecord μ ε} (h : k.Faithful numPeers)
    {e : Envelope (Result ε)} (he : k.round.accepts e = true) :
    k.round.wants e = true ↔ e.batch.segmentIndex = k.request.segmentIndex := by
  have hsegment : k.round.segmentIndex = k.request.segmentIndex := congrArg Prod.snd h.segment
  simp only [Round.accepts, decide_eq_true_eq] at he
  simp only [Round.wants, decide_eq_true_eq, he.1, true_and, hsegment]
  rfl

lemma Faithful.next {numPeers : Nat} {k : RoundRecord μ ε} (h : k.Faithful numPeers)
    (c : Coordinator) (n : ChannelNetwork μ ε) :
    (k.after (c.next k.round n)).Faithful numPeers := by
  obtain ⟨finished, closed, hround⟩ := c.next_round k.round n
  refine ⟨?_, ?_, ?_, ?_⟩
  · rw [after, hround]
    exact h.segment
  · rw [after, hround]
    exact h.required
  · rcases c.next_cases k.round n with ⟨-, ho, -, hr, -⟩ | ⟨-, -, ho, -, hr, -⟩ |
      ⟨-, dropped, e, rest, -, he, -, ho, hr, -⟩
    · rw [k.after_outcome_nil (by simp [ho]), after, hr]
      exact h.finished
    · rw [k.after_outcome_nil (by rw [ho]; exact outcome_ne_batch _), after, hr]
      exact h.finished
    · rw [k.after_batch ho, after, hr, Round.count, List.length_append, h.finished]
      dsimp only
      by_cases hw : k.round.wants e = true
      · rw [if_pos hw, if_pos ((h.wants_iff he).mp hw), List.length_singleton]
      · rw [if_neg hw, if_neg fun hb => hw ((h.wants_iff he).mpr hb), List.length_nil]
  · rcases c.next_cases k.round n with ⟨-, -, -, hr, -⟩ | ⟨-, -, ho, -, hr, -⟩ |
      ⟨-, _, _, _, -, -, -, -, hr, -⟩
    · rw [after, hr]
      exact fun hc => List.mem_append_left _ (h.closed hc)
    · rw [after, hr, ho]
      intro hc
      have hclosed : n.isClosed = true := hc
      simp [hclosed, Pulled.items]
    · rw [after, hr]
      exact fun hc => List.mem_append_left _ (h.closed hc)

lemma handed_after_of_nil {τ : Type} (k : RoundRecord μ ε) {u : Turn τ ε}
    (h : ∀ b, u.outcome ≠ .batch b) (t : Errand) : (k.after u).handed t = k.handed t := by
  rw [handed, handed, answered, answered, k.after_outcome_nil h, after_request]

/-- An accepted result of the requested segment answers the errand of its sender. -/
lemma Faithful.answers_of_accepts {numPeers : Nat} {k : RoundRecord μ ε} (h : k.Faithful numPeers)
    {e : Envelope (Result ε)} (he : k.round.accepts e = true)
    (hsegment : e.batch.segmentIndex = k.request.segmentIndex) {t : Errand}
    (ht : k.request.segment = t.segment) (hpeer : e.source = t.peer) : e.answers t = true := by
  simp only [Round.accepts, decide_eq_true_eq] at he
  have hrollout : k.round.rolloutIndex = k.request.rolloutIndex := congrArg Prod.fst h.segment
  have hbody : e.body.segment = k.request.segment := Prod.ext (he.1.trans hrollout) hsegment
  rw [Envelope.answers, hbody, ht, hpeer]
  simp

lemma Faithful.handed_after_batch_le {τ : Type} {numPeers : Nat} {k : RoundRecord μ ε}
    (h : k.Faithful numPeers) {e : Envelope (Result ε)} (he : k.round.accepts e = true)
    {u : Turn τ ε} (hu : u.outcome = .batch e.batch) (t : Errand) :
    (k.after u).handed t ≤ k.handed t + if e.answers t then 1 else 0 := by
  unfold handed
  rw [answered, answered, k.after_batch hu, after_request]
  by_cases ht : k.request.segment = t.segment
  · rw [if_pos ht, if_pos ht]
    by_cases hsegment : e.batch.segmentIndex = k.request.segmentIndex
    · rw [if_pos hsegment, List.map_append, List.count_append, List.map_singleton,
        List.count_singleton]
      by_cases hpeer : e.source = t.peer
      · rw [h.answers_of_accepts he hsegment ht hpeer]
        simp [Envelope.batch, hpeer]
      · simp [Envelope.batch, hpeer]
    · rw [if_neg hsegment, List.append_nil]
      exact Nat.le_add_right _ _
  · rw [if_neg ht, if_neg ht]
    exact Nat.zero_le _

/-- An answer that a pull hands out has left the inbox. -/
lemma Faithful.handed_next_le {numPeers : Nat} {k : RoundRecord μ ε} (h : k.Faithful numPeers)
    (t : Errand) (c : Coordinator) (n : ChannelNetwork μ ε) :
    (k.after (c.next k.round n)).handed t + (c.next k.round n).network.load t ≤
      k.handed t + n.load t := by
  rcases c.next_cases k.round n with ⟨-, ho, -, -, hn⟩ | ⟨-, -, ho, -, -, hn⟩ |
    ⟨-, dropped, e, rest, -, he, hinbox, ho, -, hn⟩
  · have hhanded := k.handed_after_of_nil (u := c.next k.round n) (by simp [ho]) t
    exact Nat.le_of_eq (by rw [hhanded, hn])
  · have hhanded := k.handed_after_of_nil (u := c.next k.round n)
      (by rw [ho]; exact outcome_ne_batch _) t
    have hload := n.load_clear_inbox_le t
    rw [hhanded, hn]
    omega
  · have hhanded := h.handed_after_batch_le he ho t
    have hload := ChannelNetwork.load_receive_le t hinbox
    rw [hn]
    omega

lemma Faithful.wants_of_answers {numPeers : Nat} {k : RoundRecord μ ε} (h : k.Faithful numPeers)
    {e : Envelope (Result ε)} {t : Errand} (ht : k.request.segment = t.segment)
    (he : e.answers t = true) : k.round.wants e = true := by
  simp only [Envelope.answers, decide_eq_true_eq] at he
  obtain ⟨hrollout, hsegment⟩ := Prod.mk.inj (he.2.trans (ht.symm.trans h.segment.symm))
  simp only [Round.wants, decide_eq_true_eq]
  exact ⟨hrollout, hsegment⟩

/-- An accepted answer to the request of a round is handed out. -/
lemma Faithful.le_handed_after_batch {τ : Type} {numPeers : Nat} {k : RoundRecord μ ε}
    (h : k.Faithful numPeers) {e : Envelope (Result ε)} (he : k.round.accepts e = true)
    {u : Turn τ ε} (hu : u.outcome = .batch e.batch) {t : Errand}
    (ht : k.request.segment = t.segment) :
    k.handed t + (if e.answers t then 1 else 0) ≤ (k.after u).handed t := by
  unfold handed
  rw [answered, answered, k.after_batch hu, after_request, if_pos ht, if_pos ht, List.map_append,
    List.count_append]
  by_cases hanswers : e.answers t = true
  · have hsegment := (h.wants_iff he).mp (h.wants_of_answers ht hanswers)
    rw [if_pos hanswers, if_pos hsegment]
    simp only [Envelope.answers, decide_eq_true_eq] at hanswers
    simp [Envelope.batch, hanswers.1]
  · rw [if_neg hanswers]
    exact Nat.le_add_right _ _

/-- An answer to the request of a round that leaves the inbox is handed out. -/
lemma Faithful.le_handed_next {numPeers : Nat} {k : RoundRecord μ ε} (h : k.Faithful numPeers)
    {t : Errand} (ht : k.request.segment = t.segment) (c : Coordinator) (n : ChannelNetwork μ ε) :
    k.handed t + n.load t ≤
      (k.after (c.next k.round n)).handed t + (c.next k.round n).network.load t := by
  have hdropped {dropped : List (Envelope (Result ε))}
      (hdrops : ∀ d ∈ dropped, k.round.accepts d = false) :
      dropped.countP (Envelope.answers t) = 0 := by
    refine List.countP_eq_zero.mpr fun d hd hanswers => ?_
    have haccepts := Round.accepts_of_wants (h.wants_of_answers ht hanswers)
    rw [hdrops d hd] at haccepts
    cases haccepts
  rcases c.next_cases k.round n with ⟨-, ho, -, -, hn⟩ | ⟨-, hdrops, ho, -, -, hn⟩ |
    ⟨-, dropped, e, rest, hdrops, he, hinbox, ho, -, hn⟩
  · have hhanded := k.handed_after_of_nil (u := c.next k.round n) (by simp [ho]) t
    exact Nat.le_of_eq (by rw [hhanded, hn])
  · have hhanded := k.handed_after_of_nil (u := c.next k.round n)
      (by rw [ho]; exact outcome_ne_batch _) t
    have hempty : ({ n with inbox := [] } : ChannelNetwork μ ε).load t = n.load t := by
      rw [ChannelNetwork.load, ChannelNetwork.load, hdropped hdrops, List.countP_nil]
    exact Nat.le_of_eq (by rw [hhanded, hn, hempty])
  · have hhanded := h.le_handed_after_batch he ho ht
    rw [hn]
    unfold ChannelNetwork.load
    dsimp only
    rw [hinbox, List.countP_append, List.countP_cons, hdropped hdrops]
    omega

/-- An open round that requires no more results than there are peers has not heard from them all. -/
lemma Faithful.exists_unanswered {k : RoundRecord μ ε} {peers : List PeerId}
    (h : k.Faithful peers.length) (hnodup : peers.Nodup) (hopen : k.round.isDone = false)
    (hle : k.round.required ≤ peers.length) : ∃ peer ∈ peers, peer ∉ k.answered := by
  by_contra hnone
  push Not at hnone
  have hlength : peers.length ≤ k.answers.length := by
    have hsub := hnodup.length_le_of_subset hnone
    rwa [answered, List.length_map] at hsub
  simp only [Round.isDone, Bool.or_eq_false_iff, decide_eq_false_iff_not] at hopen
  rw [h.finished] at hopen
  omega

/-- A round that has counted as many results as there are peers has an answer from each of them,
if no peer answers twice. -/
lemma Faithful.perm_of_done {k : RoundRecord μ ε} {peers : List PeerId}
    (h : k.Faithful peers.length) (hsub : k.answered.Subperm peers)
    (hall : k.request.requiredFinishes = none) (hdone : k.round.isDone = true)
    (hclean : ∀ e, .error e ∉ k.items) : k.answered.Perm peers := by
  have hclosed : k.round.closed = false := by
    cases hc : k.round.closed with
    | true => exact (hclean _ (h.closed hc)).elim
    | false => rfl
  have hrequired : k.round.required = peers.length := by
    rw [h.required, hall, Option.getD_none]
  have hcount : k.round.required ≤ k.round.finished := by
    rw [Round.isDone, hclosed] at hdone
    simpa using hdone
  refine hsub.perm_of_length_le ?_
  rw [answered, List.length_map, ← h.finished, ← hrequired]
  exact hcount

end RoundRecord

end ExperienceCollection
