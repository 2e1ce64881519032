import ExperienceCollection.Proofs.Collection.Pull
import ExperienceCollection.Proofs.Network.Lawful

/-!
# A pull as a loop of receives

A pull takes what it needs off the queue at once. It may as well receive one arrival after another:
while its round is open it receives, drops what the round does not accept and goes on, and it stops
at the first result that is accepted, at an error, or when it has to wait.
-/

namespace ExperienceCollection

variable {τ μ ε : Type} [Network τ μ ε]

namespace Network

lemma receive_nil {n : τ} (h : arrivals n = []) :
    receive n = (if isClosed n then .arrival (.error .disconnected) else .waiting, n) := by
  rw [receive, h]

lemma receive_cons {n : τ} {a : Arrival ε} {rest : List (Arrival ε)} (h : arrivals n = a :: rest) :
    receive n = (.arrival a, consume n 1) := by
  rw [receive, h]

end Network

namespace Coordinator

/-- A pull that receives arrivals one after another, as many times as given first. -/
inductive Receives (c : Coordinator) (r : Round) : Nat → τ → Turn τ ε → Prop where
  | ended {n : τ} (done : r.isDone = true) : Receives c r 0 n ⟨.ended, c, r, n, []⟩
  | waits {n n' : τ} (undone : r.isDone = false) (received : Network.receive n = (.waiting, n')) :
    Receives c r 1 n ⟨.waiting, c, r, n', []⟩
  | fails {n n' : τ} {e : NetworkError} (undone : r.isDone = false)
    (received : Network.receive n = (.arrival (.error e), n')) :
    Receives c r 1 n
      ⟨.failed e, c, { r with closed := true }, n', [.roundBroken r.rolloutIndex r.segmentIndex e]⟩
  | accepts {n n' : τ} {e : Envelope (Result ε)} {b : AcceptedBatch ε} {r' : Round} {m : Metrics}
    {log : List Log.Event} (undone : r.isDone = false)
    (received : Network.receive n = (.arrival (.ok e), n'))
    (accepted : r.accept c.config.logEnvMetrics c.metrics e = (some (b, r', m), log)) :
    Receives c r 1 n ⟨.batch b, { c with metrics := m }, r', n', log⟩
  | drops {n n' : τ} {e : Envelope (Result ε)} {log : List Log.Event} {calls : Nat}
    {t : Turn τ ε} (undone : r.isDone = false)
    (received : Network.receive n = (.arrival (.ok e), n'))
    (dropped : r.accept c.config.logEnvMetrics c.metrics e = (none, log))
    (later : Receives c r calls n' t) :
    Receives c r (calls + 1) n { t with log := log ++ t.log }

variable {c : Coordinator} {r : Round} {n : τ}

/-- A pull receives nothing if and only if its round is over. -/
lemma Receives.calls_eq_zero_iff {calls : Nat} {t : Turn τ ε}
    (h : Receives c r calls n t) : calls = 0 ↔ r.isDone = true := by
  cases h <;> simp_all

/-- A pull at a coordinator, from the pull at its round. -/
lemma next_of_pull {p : Pull ε}
    (h : r.pull c.config.logEnvMetrics (Network.isClosed n) c.metrics (Network.arrivals n) = p) :
    c.next r n =
      ⟨p.outcome, { c with metrics := p.metrics }, p.round, Network.consume n p.consumed,
        p.log⟩ := by
  rw [← h]
  rfl

lemma next_of_error (c : Coordinator) {e : NetworkError} {rest : List (Arrival ε)}
    (h : r.isDone = false) (hn : Network.arrivals n = .error e :: rest) :
    c.next r n =
      ⟨.failed e, c, { r with closed := true }, Network.consume n 1,
        [.roundBroken r.rolloutIndex r.segmentIndex e]⟩ := by
  have hpull : r.pull c.config.logEnvMetrics (Network.isClosed n) c.metrics
      (Network.arrivals n) = _ := (congrArg _ hn).trans (r.pull_error _ _ _ h _ _)
  rw [next_of_pull hpull]
  rfl

lemma next_of_accepts {e : Envelope (Result ε)} {rest : List (Arrival ε)} {b : AcceptedBatch ε}
    {r' : Round} {m : Metrics} {log : List Log.Event} (h : r.isDone = false)
    (hn : Network.arrivals n = .ok e :: rest)
    (he : r.accept c.config.logEnvMetrics c.metrics e = (some (b, r', m), log)) :
    c.next r n = ⟨.batch b, { c with metrics := m }, r', Network.consume n 1, log⟩ := by
  have hpull : r.pull c.config.logEnvMetrics (Network.isClosed n) c.metrics
      (Network.arrivals n) = ⟨.batch b, r', m, log, 1⟩ := by
    rw [hn, Round.pull, if_neg (by simp [h])]
    dsimp only
    rw [he]
  rw [next_of_pull hpull]

variable [SteadyNetwork τ]

lemma next_of_isDone (c : Coordinator) (h : r.isDone = true) (n : τ) :
    c.next r n = ⟨.ended, c, r, n, []⟩ := by
  rw [next_of_pull (r.pull_of_isDone _ _ _ h _), SteadyNetwork.consume_zero]

lemma next_of_nil (c : Coordinator) (h : r.isDone = false) (hn : Network.arrivals n = []) :
    c.next r n =
      if Network.isClosed n then
        ⟨.failed .disconnected, c, { r with closed := true }, n,
          [.roundBroken r.rolloutIndex r.segmentIndex .disconnected]⟩
      else ⟨.waiting, c, r, n, []⟩ := by
  have hpull : r.pull c.config.logEnvMetrics (Network.isClosed n) c.metrics
      (Network.arrivals n) = _ := (congrArg _ hn).trans (r.pull_nil _ _ _ h)
  rw [next_of_pull hpull]
  split
  · dsimp only [Round.fail]
    rw [SteadyNetwork.consume_zero]
  · rw [SteadyNetwork.consume_zero]

/-- Behind a result that is dropped, a pull goes on as one that begins there. -/
lemma next_of_drops {e : Envelope (Result ε)} {rest : List (Arrival ε)} {log : List Log.Event}
    (h : r.isDone = false) (hn : Network.arrivals n = .ok e :: rest)
    (he : r.accept c.config.logEnvMetrics c.metrics e = (none, log)) :
    c.next r n =
      let t := c.next r (Network.consume n 1)
      { t with log := log ++ t.log } := by
  have hrest : Network.arrivals (Network.consume n 1) = rest := by
    rw [LawfulNetwork.arrivals_consume, hn, List.drop_one, List.tail_cons]
  unfold next
  rw [hn, hrest, SteadyNetwork.isClosed_consume, Round.pull, if_neg (by simp [h])]
  dsimp only
  rw [he, SteadyNetwork.consume_succ]

/-- A pull is a loop of receives. -/
theorem receives_next (c : Coordinator) (r : Round) (n : τ) :
    ∃ calls, Receives c r calls n (c.next r n) := by
  cases hdone : r.isDone with
  | true =>
    rw [c.next_of_isDone hdone]
    exact ⟨0, .ended hdone⟩
  | false =>
    generalize harrivals : Network.arrivals n = arrivals
    induction arrivals generalizing n with
    | nil =>
      have hreceive := Network.receive_nil harrivals
      rw [c.next_of_nil hdone harrivals]
      cases hclosed : Network.isClosed n with
      | true => exact ⟨1, .fails hdone (by rwa [hclosed] at hreceive)⟩
      | false => exact ⟨1, .waits hdone (by rwa [hclosed] at hreceive)⟩
    | cons a rest ih =>
      have hreceive := Network.receive_cons harrivals
      cases a with
      | error e =>
        rw [c.next_of_error hdone harrivals]
        exact ⟨1, .fails hdone hreceive⟩
      | ok e =>
        rcases he : r.accept c.config.logEnvMetrics c.metrics e with ⟨_ | ⟨b, r', m⟩, log⟩
        · have hrest : Network.arrivals (Network.consume n 1) = rest := by
            rw [LawfulNetwork.arrivals_consume, harrivals, List.drop_one, List.tail_cons]
          obtain ⟨calls, hlater⟩ := ih _ hrest
          rw [next_of_drops hdone harrivals he]
          exact ⟨calls + 1, .drops hdone hreceive he hlater⟩
        · rw [next_of_accepts hdone harrivals he]
          exact ⟨1, .accepts hdone hreceive he⟩

end Coordinator

end ExperienceCollection
