import ExperienceCollection.Collection.Coordinator
import Mathlib.Data.List.Basic
import Mathlib.Tactic.Lemma

/-!
# One pull at a round

A pull passes over the results that the round drops. It stops at the first result that the round
accepts, at a failure of the network, or at the end of the queue, and it takes nothing when the
round is over. What arrives during a pull joins the end of the queue, so it may as well arrive
before the pull, or after it when the pull has to wait: `pull_append_of_ne_waiting` and
`pull_append_of_waiting`.
-/

namespace ExperienceCollection

variable {μ ε : Type}

/-- The batch that a round hands out for a result. -/
def Envelope.batch (e : Envelope (Result ε)) : AcceptedBatch ε where
  experiences := e.body.experiences
  envEnd := e.body.envEnd
  source := e.source
  segmentIndex := e.body.segmentIndex
  envMetrics := e.body.envMetrics

/-- The items that a pull gives to the caller. -/
def Pulled.items : Pulled ε → List (Except NetworkError (AcceptedBatch ε))
  | batch b => [.ok b]
  | failed e => [.error e]
  | ended => []
  | waiting => []

namespace Round

/-- Whether a result counts towards the end of the round. -/
def wants (r : Round) (e : Envelope (Result ε)) : Bool :=
  e.body.rolloutIndex = r.rolloutIndex ∧ e.body.segmentIndex = r.segmentIndex

/-- Whether a result is handed out. -/
def accepts (r : Round) (e : Envelope (Result ε)) : Bool :=
  e.body.rolloutIndex = r.rolloutIndex ∧
    (e.body.segmentIndex = r.segmentIndex ∨ r.discardStale = false)

/-- The round after a result that it accepts. -/
def count (r : Round) (e : Envelope (Result ε)) : Round :=
  { r with finished := r.finished + if r.wants e then 1 else 0 }

lemma accepts_of_wants {r : Round} {e : Envelope (Result ε)} (h : r.wants e = true) :
    r.accepts e = true := by
  simp only [wants, accepts, decide_eq_true_eq] at h ⊢
  exact ⟨h.1, .inl h.2⟩

lemma accept_of_accepts (logMetrics : Bool) {r : Round} (m : Metrics) {e : Envelope (Result ε)}
    (h : r.accepts e = true) :
    (r.accept logMetrics m e).1 = some (e.batch, r.count e, (m.accept e.source e.body).1) := by
  simp only [accepts, decide_eq_true_eq] at h
  have hsegment : ¬(e.body.segmentIndex ≠ r.segmentIndex ∧ r.discardStale = true) := by
    rcases h.2 with h | h <;> simp [h]
  unfold accept
  rw [if_neg (not_not_intro h.1)]
  dsimp only
  rw [if_neg hsegment]
  by_cases hs : e.body.segmentIndex = r.segmentIndex <;>
    simp [Envelope.batch, count, wants, h.1, hs]

lemma accept_of_not_accepts (logMetrics : Bool) {r : Round} (m : Metrics)
    {e : Envelope (Result ε)} (h : r.accepts e = false) : (r.accept logMetrics m e).1 = none := by
  simp only [accepts, decide_eq_false_iff_not, not_and, not_or] at h
  unfold accept
  dsimp only
  by_cases hrollout : e.body.rolloutIndex = r.rolloutIndex
  · have hstale := h hrollout
    rw [if_neg (not_not_intro hrollout), if_pos ⟨hstale.1, by simpa using hstale.2⟩]
  · rw [if_pos hrollout]

lemma pull_of_isDone (logMetrics closed : Bool) {r : Round} (m : Metrics)
    (h : r.isDone = true) (arrivals : List (Arrival ε)) :
    r.pull logMetrics closed m arrivals = { outcome := .ended, round := r, metrics := m } := by
  unfold pull
  split
  · rw [if_pos h]
  · rw [if_pos h]

lemma pull_nil (logMetrics closed : Bool) {r : Round} (m : Metrics) (h : r.isDone = false) :
    (r.pull logMetrics closed m [] : Pull ε) =
      if closed then r.fail m .disconnected
      else { outcome := .waiting, round := r, metrics := m } := by
  simp [pull, h]

lemma pull_error (logMetrics closed : Bool) {r : Round} (m : Metrics) (h : r.isDone = false)
    (e : NetworkError) (arrivals : List (Arrival ε)) :
    r.pull logMetrics closed m (.error e :: arrivals) = { r.fail m e with consumed := 1 } := by
  simp [pull, h]

lemma pull_accepted (logMetrics closed : Bool) {r : Round} (m : Metrics) (h : r.isDone = false)
    {e : Envelope (Result ε)} (he : r.accepts e = true) (arrivals : List (Arrival ε)) :
    r.pull logMetrics closed m (.ok e :: arrivals) =
      { outcome := .batch e.batch
        round := r.count e
        metrics := (m.accept e.source e.body).1
        log := (r.accept logMetrics m e).2
        consumed := 1 } := by
  have ha := accept_of_accepts logMetrics m he
  unfold pull
  rcases hacc : r.accept logMetrics m e with ⟨given, log⟩
  rw [hacc] at ha
  dsimp only at ha
  subst ha
  simp [h, hacc]

lemma pull_dropped (logMetrics closed : Bool) {r : Round} (m : Metrics) (h : r.isDone = false)
    {e : Envelope (Result ε)} (he : r.accepts e = false) (arrivals : List (Arrival ε)) :
    r.pull logMetrics closed m (.ok e :: arrivals) =
      let p := r.pull logMetrics closed m arrivals
      { p with log := (r.accept logMetrics m e).2 ++ p.log, consumed := p.consumed + 1 } := by
  have ha := accept_of_not_accepts logMetrics m he
  rcases hacc : r.accept logMetrics m e with ⟨given, log⟩
  rw [hacc] at ha
  dsimp only at ha
  subst ha
  rw [pull.eq_def]
  simp [h, hacc]

/-- What a pull does with the arrivals in the queue. -/
inductive Pulls (r : Round) (closed : Bool) (m : Metrics) (arrivals : List (Arrival ε))
    (p : Pull ε) : Prop where
  | ended (isDone : r.isDone = true) (outcome : p.outcome = .ended) (round : p.round = r)
      (metrics : p.metrics = m) (consumed : p.consumed = 0)
  | batch (dropped : List (Envelope (Result ε))) (e : Envelope (Result ε))
      (rest : List (Arrival ε)) (isOpen : r.isDone = false)
      (drops : ∀ d ∈ dropped, r.accepts d = false) (accepts : r.accepts e = true)
      (queue : arrivals = dropped.map .ok ++ .ok e :: rest) (outcome : p.outcome = .batch e.batch)
      (round : p.round = r.count e) (metrics : p.metrics = (m.accept e.source e.body).1)
      (consumed : p.consumed = dropped.length + 1)
  | failed (dropped : List (Envelope (Result ε))) (error : NetworkError)
      (rest : List (Arrival ε)) (isOpen : r.isDone = false)
      (drops : ∀ d ∈ dropped, r.accepts d = false)
      (queue : arrivals = dropped.map .ok ++ .error error :: rest)
      (outcome : p.outcome = .failed error) (round : p.round = { r with closed := true })
      (metrics : p.metrics = m) (consumed : p.consumed = dropped.length + 1)
  | disconnected (dropped : List (Envelope (Result ε))) (isOpen : r.isDone = false)
      (drops : ∀ d ∈ dropped, r.accepts d = false) (queue : arrivals = dropped.map .ok)
      (isClosed : closed = true) (outcome : p.outcome = .failed .disconnected)
      (round : p.round = { r with closed := true }) (metrics : p.metrics = m)
      (consumed : p.consumed = dropped.length)
  | waiting (dropped : List (Envelope (Result ε))) (isOpen : r.isDone = false)
      (drops : ∀ d ∈ dropped, r.accepts d = false) (queue : arrivals = dropped.map .ok)
      (isClosed : closed = false) (outcome : p.outcome = .waiting) (round : p.round = r)
      (metrics : p.metrics = m) (consumed : p.consumed = dropped.length)

/-- A result that is dropped goes in front of what the rest of the pull drops. -/
lemma Pulls.cons {r : Round} {closed : Bool} {m : Metrics} {arrivals : List (Arrival ε)}
    {p : Pull ε} {e : Envelope (Result ε)} (log : List Log.Event) (hopen : r.isDone = false)
    (he : r.accepts e = false) (h : Pulls r closed m arrivals p) :
    Pulls r closed m (.ok e :: arrivals)
      { p with log := log ++ p.log, consumed := p.consumed + 1 } := by
  have hcons {dropped : List (Envelope (Result ε))} (hd : ∀ d ∈ dropped, r.accepts d = false) :
      ∀ d ∈ e :: dropped, r.accepts d = false := by
    intro d hm
    rcases List.mem_cons.mp hm with rfl | hm
    · exact he
    · exact hd d hm
  cases h with
  | ended isDone => simp [hopen] at isDone
  | batch dropped d rest isOpen drops accepts queue outcome round metrics consumed =>
    exact .batch (e :: dropped) d rest isOpen (hcons drops) accepts (by simp [queue]) outcome round
      metrics (by simp [consumed])
  | failed dropped error rest isOpen drops queue outcome round metrics consumed =>
    exact .failed (e :: dropped) error rest isOpen (hcons drops) (by simp [queue]) outcome round
      metrics (by simp [consumed])
  | disconnected dropped isOpen drops queue isClosed outcome round metrics consumed =>
    exact .disconnected (e :: dropped) isOpen (hcons drops) (by simp [queue]) isClosed outcome round
      metrics (by simp [consumed])
  | waiting dropped isOpen drops queue isClosed outcome round metrics consumed =>
    exact .waiting (e :: dropped) isOpen (hcons drops) (by simp [queue]) isClosed outcome round
      metrics (by simp [consumed])

theorem pull_pulls (logMetrics closed : Bool) (r : Round) (m : Metrics)
    (arrivals : List (Arrival ε)) :
    Pulls r closed m arrivals (r.pull logMetrics closed m arrivals) := by
  cases hdone : r.isDone with
  | true =>
    rw [pull_of_isDone _ _ _ hdone]
    exact .ended hdone rfl rfl rfl rfl
  | false =>
    induction arrivals with
    | nil =>
      rw [pull_nil _ _ _ hdone]
      cases closed with
      | true => exact .disconnected [] hdone (by simp) rfl rfl rfl rfl rfl rfl
      | false => exact .waiting [] hdone (by simp) rfl rfl rfl rfl rfl rfl
    | cons arrival arrivals ih =>
      cases arrival with
      | error e =>
        rw [pull_error _ _ _ hdone]
        exact .failed [] e arrivals hdone (by simp) rfl rfl rfl rfl rfl
      | ok e =>
        cases he : r.accepts e with
        | true =>
          rw [pull_accepted _ _ _ hdone he]
          exact .batch [] e arrivals hdone (by simp) he rfl rfl rfl rfl rfl
        | false =>
          rw [pull_dropped _ _ _ hdone he]
          exact ih.cons _ hdone he

/-- A pull changes no more of a round than its count and whether it is closed. -/
lemma Pulls.round_eq {r : Round} {closed : Bool} {m : Metrics} {arrivals : List (Arrival ε)}
    {p : Pull ε} (h : Pulls r closed m arrivals p) :
    ∃ finished closed, p.round = { r with finished, closed } := by
  cases h with
  | ended _ _ round => exact ⟨_, _, round⟩
  | batch _ _ _ _ _ _ _ _ round => exact ⟨_, _, round⟩
  | failed _ _ _ _ _ _ _ round => exact ⟨_, _, round⟩
  | disconnected _ _ _ _ _ _ round => exact ⟨_, _, round⟩
  | waiting _ _ _ _ _ _ round => exact ⟨_, _, round⟩

/-- Arrivals behind a pull that does not come to wait for them make no difference to it. -/
theorem pull_append_of_ne_waiting (logMetrics closed : Bool) (r : Round) (m : Metrics)
    (arrivals later : List (Arrival ε))
    (h : (r.pull logMetrics false m arrivals).outcome ≠ .waiting) :
    r.pull logMetrics closed m (arrivals ++ later) = r.pull logMetrics false m arrivals := by
  cases hdone : r.isDone with
  | true => rw [pull_of_isDone _ _ _ hdone, pull_of_isDone _ _ _ hdone]
  | false =>
    induction arrivals with
    | nil =>
      rw [pull_nil _ _ _ hdone] at h
      exact (h rfl).elim
    | cons arrival arrivals ih =>
      rw [List.cons_append]
      cases arrival with
      | error e => rw [pull_error _ _ _ hdone, pull_error _ _ _ hdone]
      | ok e =>
        cases he : r.accepts e with
        | true => rw [pull_accepted _ _ _ hdone he, pull_accepted _ _ _ hdone he]
        | false =>
          rw [pull_dropped _ _ _ hdone he] at h
          rw [pull_dropped _ _ _ hdone he, pull_dropped _ _ _ hdone he, ih h]

/-- A pull that waits goes on with what arrives later as if it had been there before. -/
theorem pull_append_of_waiting (logMetrics closed : Bool) (r : Round) (m : Metrics)
    (arrivals later : List (Arrival ε))
    (h : (r.pull logMetrics false m arrivals).outcome = .waiting) :
    r.pull logMetrics closed m (arrivals ++ later) =
      let p := r.pull logMetrics closed m later
      { p with
        log := (r.pull logMetrics false m arrivals).log ++ p.log
        consumed := p.consumed + arrivals.length } := by
  cases hdone : r.isDone with
  | true =>
    rw [pull_of_isDone _ _ _ hdone] at h
    cases h
  | false =>
    induction arrivals with
    | nil =>
      rw [pull_nil _ _ _ hdone]
      rfl
    | cons arrival arrivals ih =>
      rw [List.cons_append]
      cases arrival with
      | error e =>
        rw [pull_error _ _ _ hdone] at h
        cases h
      | ok e =>
        cases he : r.accepts e with
        | true =>
          rw [pull_accepted _ _ _ hdone he] at h
          cases h
        | false =>
          rw [pull_dropped _ _ _ hdone he] at h
          rw [pull_dropped _ _ _ hdone he, pull_dropped _ _ _ hdone he, ih h]
          simp [Nat.add_assoc]

end Round

end ExperienceCollection
