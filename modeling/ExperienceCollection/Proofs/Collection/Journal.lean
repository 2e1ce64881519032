import ExperienceCollection.Proofs.Collection.Totals

/-!
# What a coordinator logs

A coordinator may log the metrics of environments. It then writes a line for every result of the
rollout it collects that carries metrics, also for those it drops as stale, in the order in which it
takes them off the queue. Apart from its log nothing depends on that setting: two coordinators that
differ in it alone hand out the same items, send the same commands and leave the same arrivals
behind.
-/

namespace ExperienceCollection

variable {τ μ ε : Type}

/-- A network that keeps a record of the commands broadcast on it, each with its role. -/
structure RecordedNetwork (τ μ : Type) where
  network : τ
  sent : List (String × Command μ) := []

namespace RecordedNetwork

variable [Network τ μ ε]

instance : Network (RecordedNetwork τ μ) μ ε where
  node n := Network.node n.network
  peers n role := Network.peers n.network role
  broadcast n role command :=
    let d := Network.broadcast n.network role command
    { outcome := d.outcome, network := ⟨d.network, n.sent ++ [(role, command)]⟩, log := d.log }
  arrivals n := Network.arrivals n.network
  isClosed n := Network.isClosed n.network
  consume n k := { n with network := Network.consume n.network k }

instance [LawfulNetwork τ] : LawfulNetwork (RecordedNetwork τ μ) where
  arrivals_consume n k := LawfulNetwork.arrivals_consume n.network k

/-- A change of the network below the record. -/
def below (change : τ → τ) (n : RecordedNetwork τ μ) : RecordedNetwork τ μ :=
  { n with network := change n.network }

end RecordedNetwork

namespace Log

def Event.isEnvMetrics : Event → Bool
  | envMetrics .. => true
  | _ => false

/-- The lines of a log about metrics of environments. -/
def metricsLines (log : List Event) : List Event := log.filter Event.isEnvMetrics

lemma metricsLines_append (log later : List Event) :
    metricsLines (log ++ later) = metricsLines log ++ metricsLines later :=
  List.filter_append log later

end Log

open Log (metricsLines metricsLines_append)

/-- The line for an arrival that is a result of a rollout and carries metrics. -/
def metricsLine? (rollout : Nat) : Arrival ε → Option Log.Event
  | .error _ => none
  | .ok e =>
    if e.body.rolloutIndex = rollout then
      e.body.envMetrics.map (.envMetrics e.source e.body.rolloutIndex e.body.segmentIndex)
    else none

/-- The lines for several arrivals, unless metrics are not to be logged. -/
def metricsNotes (logMetrics : Bool) (rollout : Nat) (arrivals : List (Arrival ε)) :
    List Log.Event :=
  if logMetrics then arrivals.filterMap (metricsLine? rollout) else []

lemma metricsNotes_append (logMetrics : Bool) (rollout : Nat) (arrivals later : List (Arrival ε)) :
    metricsNotes logMetrics rollout (arrivals ++ later) =
      metricsNotes logMetrics rollout arrivals ++ metricsNotes logMetrics rollout later := by
  cases logMetrics with
  | true => exact List.filterMap_append
  | false => rfl

/-- Counting a result logs no metrics of its environment. -/
lemma Metrics.metricsLines_accept (m : Metrics) (source : PeerId) (r : Result ε) :
    metricsLines (m.accept source r).2 = [] := by
  unfold accept
  split
  · rfl
  · rfl

namespace Round

/-- Whether metrics are logged makes a difference to the log of a pull only. -/
lemma pull_logMetrics (logMetrics logMetrics' closed : Bool) (r : Round) (m : Metrics)
    (arrivals : List (Arrival ε)) :
    ∃ log, r.pull logMetrics closed m arrivals =
      { r.pull logMetrics' closed m arrivals with log } := by
  cases hdone : r.isDone with
  | true =>
    rw [pull_of_isDone _ _ _ hdone, pull_of_isDone _ _ _ hdone]
    exact ⟨_, rfl⟩
  | false =>
    induction arrivals with
    | nil =>
      rw [pull_nil _ _ _ hdone, pull_nil _ _ _ hdone]
      exact ⟨_, rfl⟩
    | cons arrival arrivals ih =>
      cases arrival with
      | error e =>
        rw [pull_error _ _ _ hdone, pull_error _ _ _ hdone]
        exact ⟨_, rfl⟩
      | ok e =>
        cases he : r.accepts e with
        | true =>
          rw [pull_accepted _ _ _ hdone he, pull_accepted _ _ _ hdone he]
          exact ⟨_, rfl⟩
        | false =>
          obtain ⟨log, h⟩ := ih
          rw [pull_dropped _ _ _ hdone he, pull_dropped _ _ _ hdone he, h]
          exact ⟨_, rfl⟩

lemma metricsLines_note (logMetrics : Bool) {rollout : Nat} {e : Envelope (Result ε)}
    (h : e.body.rolloutIndex = rollout) :
    metricsLines (metricsNote logMetrics e.source e.body) =
      metricsNotes logMetrics rollout [.ok e] := by
  cases logMetrics with
  | false => rfl
  | true =>
    cases hmetrics : e.body.envMetrics <;>
      simp [metricsNote, metricsNotes, metricsLine?, metricsLines, Log.Event.isEnvMetrics, h,
        hmetrics]

/-- A result leaves its line whether it is handed out or dropped as stale. -/
lemma metricsLines_accept (logMetrics : Bool) (r : Round) (m : Metrics)
    (e : Envelope (Result ε)) :
    metricsLines (r.accept logMetrics m e).2 = metricsNotes logMetrics r.rolloutIndex [.ok e] := by
  unfold accept
  by_cases hrollout : e.body.rolloutIndex = r.rolloutIndex
  · rw [if_neg (not_not_intro hrollout), ← metricsLines_note logMetrics hrollout]
    dsimp only
    split
    · rw [metricsLines_append]
      exact List.append_nil _
    · rw [metricsLines_append, Metrics.metricsLines_accept, List.append_nil]
  · rw [if_pos hrollout]
    cases logMetrics <;>
      simp [metricsNotes, metricsLine?, metricsLines, Log.Event.isEnvMetrics, hrollout]

/-- A pull leaves the lines for the arrivals that it consumes. -/
lemma metricsLines_pull (logMetrics closed : Bool) (r : Round) (m : Metrics)
    (arrivals : List (Arrival ε)) :
    let p := r.pull logMetrics closed m arrivals
    metricsLines p.log = metricsNotes logMetrics r.rolloutIndex (arrivals.take p.consumed) := by
  have hnil : ([] : List Log.Event) =
      metricsNotes logMetrics r.rolloutIndex ([] : List (Arrival ε)) := by
    cases logMetrics <;> rfl
  cases hdone : r.isDone with
  | true =>
    rw [pull_of_isDone _ _ _ hdone]
    exact hnil
  | false =>
    induction arrivals with
    | nil =>
      rw [pull_nil _ _ _ hdone]
      dsimp only
      rw [List.take_nil, ← hnil]
      split <;> rfl
    | cons arrival arrivals ih =>
      cases arrival with
      | error e =>
        rw [pull_error _ _ _ hdone]
        cases logMetrics <;> rfl
      | ok e =>
        have haccept := r.metricsLines_accept logMetrics m e
        cases he : r.accepts e with
        | true =>
          rw [pull_accepted _ _ _ hdone he]
          exact haccept
        | false =>
          rw [pull_dropped _ _ _ hdone he]
          dsimp only at ih ⊢
          rw [metricsLines_append, haccept, ih, List.take_succ_cons, ← metricsNotes_append]
          rfl

/-- A pull takes arrivals off the front of the queue and leaves their lines. -/
lemma takes_pull (logMetrics closed : Bool) (r : Round) (m : Metrics)
    (arrivals : List (Arrival ε)) :
    let p := r.pull logMetrics closed m arrivals
    ∃ taken rest, arrivals = taken ++ rest ∧ p.consumed = taken.length ∧
      metricsLines p.log = metricsNotes logMetrics r.rolloutIndex taken := by
  intro p
  obtain ⟨taken, rest, hqueue, hconsumed, -⟩ := (r.pull_pulls logMetrics closed m arrivals).takes
  refine ⟨taken, rest, hqueue, hconsumed, ?_⟩
  have htake : arrivals.take p.consumed = taken := by rw [hconsumed, hqueue, List.take_left]
  exact htake ▸ r.metricsLines_pull logMetrics closed m arrivals

end Round

namespace Coordinator

variable [Network τ μ ε]

/-- A coordinator that logs metrics of environments, or one that does not. -/
def withLogging (c : Coordinator) (logMetrics : Bool) : Coordinator :=
  { c with config := { c.config with logEnvMetrics := logMetrics } }

lemma collect_withLogging (c : Coordinator) (logMetrics : Bool) (n : τ) (q : Request μ) :
    ∃ log, (c.withLogging logMetrics).collect n q = { c.collect n q with log } := by
  unfold collect
  dsimp only [withLogging]
  split
  · exact ⟨_, rfl⟩
  · exact ⟨_, rfl⟩

lemma next_withLogging (c : Coordinator) (logMetrics : Bool) (r : Round) (n : τ) :
    ∃ log, (c.withLogging logMetrics).next r n =
      let t := c.next r n
      { t with coordinator := t.coordinator.withLogging logMetrics, log } := by
  obtain ⟨log, h⟩ := r.pull_logMetrics logMetrics c.config.logEnvMetrics (Network.isClosed n)
    c.metrics (Network.arrivals n)
  unfold next
  dsimp only [withLogging]
  rw [h]
  exact ⟨log, rfl⟩

/-- Opening a round logs no metrics, unless its broadcast does. -/
lemma metricsLines_collect (c : Coordinator) (n : τ) (q : Request μ) :
    metricsLines (c.collect n q).log =
      metricsLines (Network.broadcast n c.config.peerRole (.rollout q.toInstruction)).log := by
  have hheader : metricsLines
      (if c.config.logEnvMetrics then
        [.roundOpened q.rolloutIndex q.segmentIndex q.numSteps q.explorationParams]
      else []) = [] := by
    split <;> rfl
  unfold collect
  dsimp only
  split
  · rw [metricsLines_append, hheader]
    rfl
  · rw [metricsLines_append, metricsLines_append, hheader]
    exact List.append_nil _

lemma metricsLines_exit (c : Coordinator) (n : τ) :
    metricsLines (c.exit n).2 =
      metricsLines (Network.broadcast n c.config.peerRole .exit).log := by
  unfold exit
  dsimp only
  split <;> exact (metricsLines_append _ _).trans (List.append_nil _)

end Coordinator

namespace Campaign

variable {ι : Type} [Network τ μ ε] {act : ι → τ → τ}

/-- The same campaign, of a coordinator that may log otherwise. -/
def withLogging (s : Campaign τ μ ε) (logMetrics : Bool) (log : List Log.Event) :
    Campaign τ μ ε :=
  { s with coordinator := s.coordinator.withLogging logMetrics, log }

lemma step_withLogging (act : ι → τ → τ) (s : Campaign τ μ ε) (logMetrics : Bool)
    (log : List Log.Event) (x : Step ι μ) :
    ∃ log', step act (s.withLogging logMetrics log) x =
      (step act s x).withLogging logMetrics log' := by
  cases x with
  | collect q =>
    obtain ⟨own, h⟩ := s.coordinator.collect_withLogging logMetrics s.network q
    refine ⟨log ++ own, ?_⟩
    simp only [step, collect, withLogging, h]
  | next =>
    cases hcurrent : s.current with
    | none =>
      refine ⟨log, ?_⟩
      simp only [step, next, withLogging, hcurrent]
    | some current =>
      obtain ⟨own, h⟩ := s.coordinator.next_withLogging logMetrics current.2 s.network
      refine ⟨log ++ own, ?_⟩
      simp only [step, next, withLogging, hcurrent, h]
  | exit => exact ⟨_, rfl⟩
  | environment move => exact ⟨_, rfl⟩

/-- Campaigns of coordinators that differ in their logging differ in their logs alone. -/
lemma run_withLogging (act : ι → τ → τ) (s : Campaign τ μ ε) (logMetrics : Bool)
    (log : List Log.Event) (steps : List (Step ι μ)) :
    ∃ log', (s.withLogging logMetrics log).run act steps =
      (s.run act steps).withLogging logMetrics log' := by
  induction steps generalizing s log with
  | nil => exact ⟨log, rfl⟩
  | cons x steps ih =>
    obtain ⟨log', h⟩ := step_withLogging act s logMetrics log x
    obtain ⟨log'', h'⟩ := ih (step act s x) log'
    exact ⟨log'', (congrArg (run act · steps) h).trans h'⟩

/-- The lines about metrics are those for the arrivals taken, unless they are not to be logged. -/
structure Noted (logMetrics : Bool) (s : Campaign τ μ ε) : Prop where
  logging : s.coordinator.config.logEnvMetrics = logMetrics
  rollout : ∀ q r, s.current = some (q, r) → r.rolloutIndex = q.rolloutIndex
  lines : metricsLines s.log =
    if logMetrics then s.taken.filterMap fun x => metricsLine? x.1.rolloutIndex x.2 else []

variable {s : Campaign τ μ ε} {logMetrics : Bool}

lemma Noted.collect (h : s.Noted logMetrics)
    (quiet : ∀ (n : τ) role command, metricsLines (Network.broadcast n role command).log = [])
    (q : Request μ) : (s.collect q).Noted logMetrics := by
  refine ⟨h.logging, fun q' r hcurrent => ?_, ?_⟩
  · obtain ⟨rfl, rfl⟩ := collect_current hcurrent
    rfl
  · have hquiet := (s.coordinator.metricsLines_collect s.network q).trans (quiet _ _ _)
    rw [Campaign.collect, metricsLines_append, h.lines, hquiet]
    exact List.append_nil _

lemma Noted.exit (h : s.Noted logMetrics)
    (quiet : ∀ (n : τ) role command, metricsLines (Network.broadcast n role command).log = []) :
    s.exit.Noted logMetrics := by
  refine ⟨h.logging, h.rollout, ?_⟩
  have hquiet := (s.coordinator.metricsLines_exit s.network).trans (quiet _ _ _)
  rw [Campaign.exit, metricsLines_append, h.lines, hquiet]
  exact List.append_nil _

lemma Noted.next [LawfulNetwork τ] (h : s.Noted logMetrics) : s.next.Noted logMetrics := by
  cases hcurrent : s.current with
  | none => rwa [next_of_none hcurrent]
  | some current =>
    obtain ⟨q, r⟩ := current
    obtain ⟨taken, rest, hqueue, hconsumed, hlines⟩ := r.takes_pull
      s.coordinator.config.logEnvMetrics (Network.isClosed s.network) s.coordinator.metrics
      (Network.arrivals s.network)
    have hnew : metricsLines (s.coordinator.next r s.network).log = _ := hlines
    refine ⟨?_, fun q' r' hcurrent' => ?_, ?_⟩
    · rw [next_coordinator hcurrent]
      exact h.logging
    · rw [next_current hcurrent] at hcurrent'
      obtain ⟨rfl, rfl⟩ := Prod.mk.inj (Option.some.inj hcurrent')
      obtain ⟨finished, closed, hsame⟩ := s.coordinator.next_round r s.network
      rw [hsame]
      exact h.rollout q r hcurrent
    · rw [next_log hcurrent, next_taken hcurrent hqueue hconsumed, metricsLines_append, h.lines,
        hnew, h.logging, h.rollout q r hcurrent]
      cases logMetrics with
      | false => rfl
      | true =>
        rw [if_pos rfl, if_pos rfl, List.filterMap_append, List.filterMap_map]
        rfl

lemma Noted.step [LawfulNetwork τ] (h : s.Noted logMetrics)
    (quiet : ∀ (n : τ) role command, metricsLines (Network.broadcast n role command).log = [])
    (x : Step ι μ) : (step act s x).Noted logMetrics := by
  cases x with
  | collect q => exact h.collect quiet q
  | next => exact h.next
  | exit => exact h.exit quiet
  | environment move => exact ⟨h.logging, h.rollout, h.lines⟩

/-- Over any rounds, finished or given up, with any changes of the network in between, two
coordinators that differ in the logging of metrics alone hand out the same items, have the same
counts and totals, send the same commands, and leave the same network with the same arrivals behind.
If the network itself logs no metrics, the lines about metrics are, in the order in which arrivals
are taken, those for the results of the rollout in question that carry metrics, whether or not they
are handed out, and none if they are not to be logged. -/
theorem journal_of_run [LawfulNetwork τ] (c : Coordinator) (n : τ) (logMetrics : Bool)
    (steps : List (Step (τ → τ) μ)) :
    let s : Campaign (RecordedNetwork τ μ) μ ε := (start c ⟨n, []⟩).run RecordedNetwork.below steps
    let s' : Campaign (RecordedNetwork τ μ) μ ε :=
      (start (c.withLogging logMetrics) ⟨n, []⟩).run RecordedNetwork.below steps
    s'.outcomes = s.outcomes ∧ s'.current = s.current ∧
      s'.coordinator.metrics = s.coordinator.metrics ∧ s'.taken = s.taken ∧
      s'.network.sent = s.network.sent ∧ s'.network.network = s.network.network ∧
      ((∀ (n : τ) role command, metricsLines (Network.broadcast n role command).log = []) →
        metricsLines s.log =
          if c.config.logEnvMetrics then
            s.taken.filterMap fun x => metricsLine? x.1.rolloutIndex x.2
          else []) := by
  intro s s'
  let s₀ : Campaign (RecordedNetwork τ μ) μ ε := start c ⟨n, []⟩
  obtain ⟨log, h⟩ := run_withLogging RecordedNetwork.below s₀ logMetrics [] steps
  have hs' : s' = s.withLogging logMetrics log := h
  have hstart : s₀.Noted c.config.logEnvMetrics := by
    refine ⟨rfl, nofun, ?_⟩
    split <;> rfl
  rw [hs']
  refine ⟨rfl, rfl, rfl, rfl, rfl, rfl, fun quiet => ?_⟩
  have hnoted : s.Noted c.config.logEnvMetrics :=
    run_of_step (fun _ x hs => hs.step (fun n => quiet n.network) x) hstart steps
  exact hnoted.lines

/-- Results of an earlier rollout, of an earlier segment, and two that are wanted, one of them
without metrics. -/
def measuredInbox : List (Envelope (Result Nat)) :=
  [Result.envelope "actor.0" ⟨6, 2, 3, 3, false, none, 10, some .empty⟩,
    Result.envelope "actor.1" ⟨7, 1, 2, 2, false, none, 11, some (KeyMap.empty.insert "speed" 2.0)⟩,
    Result.envelope "actor.0" ⟨7, 2, 2, 2, false, none, 12, none⟩,
    Result.envelope "actor.1" ⟨7, 2, 1, 1, false, none, 13, some .empty⟩]

def measuredSteps : List (Step (ChannelNetwork Unit Nat → ChannelNetwork Unit Nat) Unit) :=
  [.collect followUp, .next,
    .environment fun n => { n with inbox := n.inbox ++ measuredInbox }, .next, .next, .next, .exit]

/-- The campaign of a coordinator that logs metrics, or of one that does not. -/
def measured (logMetrics : Bool) :
    Campaign (RecordedNetwork (ChannelNetwork Unit Nat) Unit) Unit Nat :=
  (start (pairCoordinator.withLogging logMetrics) ⟨pairNetwork, []⟩).run RecordedNetwork.below
    measuredSteps

theorem journal_of_measuredSteps :
    (measured false).outcomes = (measured true).outcomes ∧
      (measured false).network.sent = (measured true).network.sent ∧
      (measured true).network.sent.length = 2 ∧ metricsLines (measured false).log = [] ∧
      metricsLines (measured true).log =
        [.envMetrics "actor.1" 7 1 (KeyMap.empty.insert "speed" 2.0),
          .envMetrics "actor.1" 7 2 .empty] := by
  have quiet (n : ChannelNetwork Unit Nat) (role : String) (command : Command Unit) :
      metricsLines (Network.broadcast n role command).log = [] := by
    dsimp only [Network.broadcast, ChannelNetwork.broadcast]
    split
    · refine List.filter_eq_nil_iff.mpr fun event hevent => ?_
      obtain ⟨e, -, rfl⟩ := List.mem_map.mp hevent
      exact Bool.false_ne_true
    · rfl
  obtain ⟨houtcomes, -, -, -, hsent, -, hlines⟩ :=
    journal_of_run (pairCoordinator.withLogging true) pairNetwork false measuredSteps
  obtain ⟨-, -, -, -, -, -, hnone⟩ :=
    journal_of_run (pairCoordinator.withLogging false) pairNetwork true measuredSteps
  exact ⟨houtcomes, hsent, rfl, hnone quiet, hlines quiet⟩

end Campaign

end ExperienceCollection
