import ExperienceCollection.Proofs.Actor.Steps
import ExperienceCollection.Proofs.Counter

/-!
# Service records

The statistics of an actor are those of the rollouts it has served, and every report it has filed on
the way is the statistics of an earlier moment. An actor that stops adds a last report, if there is
room for it, and changes no more.
-/

namespace ExperienceCollection

variable {μ ε : Type}

/-- What a behaviour makes of a list of calls, one after another. -/
def Behaviour.outcomes (b : Behaviour μ ε) (calls : List (Instruction μ)) : List (Outcome ε) :=
  (List.range calls.length).filterMap fun k => b (calls.take (k + 1))

lemma Behaviour.outcomes_concat (b : Behaviour μ ε) (calls : List (Instruction μ))
    (i : Instruction μ) :
    b.outcomes (calls ++ [i]) = b.outcomes calls ++ (b (calls ++ [i])).toList := by
  unfold outcomes
  rw [List.length_append, List.length_singleton, List.range_succ, List.filterMap_append]
  congr 1
  · apply List.filterMap_congr
    intro k hk
    rw [List.take_append_of_le_length (List.mem_range.mp hk)]
  · have hall : (calls ++ [i]).take (calls.length + 1) = calls ++ [i] :=
      List.take_of_length_le (by simp)
    rw [List.filterMap_cons, hall, List.filterMap_nil]
    cases b (calls ++ [i]) <;> rfl

/-- An episode is counted when it has ended with a reward. -/
def Outcome.isEpisode (o : Outcome ε) : Bool := o.envEnd && o.totalReward.isSome

namespace Stats

def record (s : Stats) (o : Outcome ε) : Stats :=
  let counted := s.recordRollout o.numSteps o.numExperiences
  match o.envEnd, o.totalReward with
  | true, some reward => counted.recordEpisode reward
  | _, _ => counted

/-- The statistics of a peer over the calls of its behaviour. -/
def ofCalls (peer : PeerId) (b : Behaviour μ ε) (calls : List (Instruction μ)) : Stats :=
  (b.outcomes calls).foldl record { peer }

/-- What one outcome adds to the counters. -/
lemma record_eq (s : Stats) (o : Outcome ε) :
    ∃ valid filtered avg recent, s.record o =
      { s with
        rollouts := Counter.add s.rollouts 1
        steps := Counter.add s.steps o.numSteps
        experiences := Counter.add s.experiences o.numExperiences
        episodes := if o.isEpisode then Counter.next s.episodes else s.episodes
        validEpisodes := valid
        filteredEpisodes := filtered
        avgEpisodeReward := avg
        recentEpisodeReward := recent } := by
  obtain ⟨experiences, numExperiences, numSteps, envEnd, totalReward, envMetrics⟩ := o
  cases envEnd with
  | false => exact ⟨_, _, _, _, rfl⟩
  | true =>
    cases totalReward with
    | none => exact ⟨_, _, _, _, rfl⟩
    | some reward =>
      unfold record recordEpisode
      dsimp only
      split
      · exact ⟨_, _, _, _, rfl⟩
      · exact ⟨_, _, _, _, rfl⟩

lemma record_rollouts (s : Stats) (o : Outcome ε) :
    (s.record o).rollouts = Counter.add s.rollouts 1 := by
  obtain ⟨_, _, _, _, h⟩ := s.record_eq o
  rw [h]

lemma record_steps (s : Stats) (o : Outcome ε) :
    (s.record o).steps = Counter.add s.steps o.numSteps := by
  obtain ⟨_, _, _, _, h⟩ := s.record_eq o
  rw [h]

lemma record_experiences (s : Stats) (o : Outcome ε) :
    (s.record o).experiences = Counter.add s.experiences o.numExperiences := by
  obtain ⟨_, _, _, _, h⟩ := s.record_eq o
  rw [h]

lemma record_episodes (s : Stats) (o : Outcome ε) :
    (s.record o).episodes = if o.isEpisode then Counter.next s.episodes else s.episodes := by
  obtain ⟨_, _, _, _, h⟩ := s.record_eq o
  rw [h]

lemma ofCalls_concat (peer : PeerId) {b : Behaviour μ ε} {calls : List (Instruction μ)}
    {i : Instruction μ} {o : Outcome ε} (h : b (calls ++ [i]) = some o) :
    ofCalls peer b (calls ++ [i]) = (ofCalls peer b calls).record o := by
  rw [ofCalls, b.outcomes_concat, h, Option.toList_some, List.foldl_append, ← ofCalls]
  rfl

/-- A counter that every outcome adds to holds the sum, up to `top`. -/
lemma ofCalls_added {field : Stats → Nat} {amount : Outcome ε → Nat}
    (hrecord : ∀ s o, field (s.record o) = Counter.add (field s) (amount o)) {peer : PeerId}
    (hzero : field { peer } = 0) (b : Behaviour μ ε) (calls : List (Instruction μ)) :
    field (ofCalls peer b calls) = min Counter.top ((b.outcomes calls).map amount).sum :=
  Counter.foldl_total hrecord hzero (b.outcomes calls)

lemma ofCalls_rollouts (peer : PeerId) (b : Behaviour μ ε) (calls : List (Instruction μ)) :
    (ofCalls peer b calls).rollouts = min Counter.top (b.outcomes calls).length := by
  rw [ofCalls_added record_rollouts rfl, List.map_const', List.sum_replicate_nat, Nat.mul_one]

/-- Episodes are counted one by one, so few enough outcomes are counted without a turn. -/
lemma ofCalls_episodes (peer : PeerId) (b : Behaviour μ ε) {calls : List (Instruction μ)}
    (h : (b.outcomes calls).length ≤ Counter.top) :
    (ofCalls peer b calls).episodes = (b.outcomes calls).countP Outcome.isEpisode := by
  have hfew : ({ peer } : Stats).episodes + (b.outcomes calls).length ≤ Counter.top := by
    simpa using h
  have hcount := Counter.foldl_count record_episodes hfew
  rwa [Nat.zero_add] at hcount

end Stats

namespace Actor

/-- The calls an actor is done with. Of an actor at work, or broken down, the last one is not. -/
def served (a : Actor μ ε) : List (Instruction μ) :=
  if a.task.isSome ∨ a.phase = .crashed then a.calls.dropLast else a.calls

lemma served_of_free {a : Actor μ ε} (free : a.task = none) (h : a.phase ≠ .crashed) :
    a.served = a.calls := by
  apply if_neg
  rw [free, Option.isSome_none]
  simpa using h

lemma served_of_running {a : Actor μ ε} (free : a.task = none) (h : a.phase = .running) :
    a.served = a.calls :=
  served_of_free free (by rw [h]; exact nofun)

lemma served_of_task {a : Actor μ ε} {i : Instruction μ} (task : a.task = some i) :
    a.served = a.calls.dropLast :=
  if_pos (.inl (by rw [task]; rfl))

/-- The reports of an actor once one more was filed. -/
def filed (config : ActorConfig) (a : Actor μ ε) : List Stats :=
  if a.reports.length < max config.statsCapacity 1 then a.reports ++ [a.stats] else a.reports

lemma report_eq (config : ActorConfig) (a : Actor μ ε) :
    a.report config = { a with reports := a.filed config } := by
  unfold report filed
  split <;> rfl

lemma mem_filed {config : ActorConfig} {a : Actor μ ε} {r : Stats} (h : r ∈ a.filed config) :
    r ∈ a.reports ∨ r = a.stats := by
  unfold filed at h
  split at h
  · exact (List.mem_append.mp h).imp_right List.mem_singleton.mp
  · exact .inl h

lemma stop_eq (config : ActorConfig) (a : Actor μ ε) (reason : Log.Event) :
    ∃ log, a.stop config reason =
      { a with phase := .stopped, reports := a.filed config, log } :=
  ⟨_, report_eq config _⟩

lemma stop_phase (config : ActorConfig) (a : Actor μ ε) (reason : Log.Event) :
    (a.stop config reason).phase = .stopped := by
  obtain ⟨log, hstop⟩ := stop_eq config a reason
  rw [hstop]

/-- An actor that has sent its result goes on, or stops with a last report. -/
lemma sent_eq (config : ActorConfig) (a : Actor μ ε) (outcome : Except NetworkError Unit) :
    (∃ reports, a.sent config outcome = { a with reports }) ∨
      ∃ log, a.sent config outcome =
        { a with phase := .stopped, reports := a.filed config, log } := by
  cases outcome with
  | error e => exact .inr (stop_eq config a _)
  | ok u => exact .inl (sent_ok_eq config a)

lemma count_stats (a : Actor μ ε) (o : Outcome ε) :
    a.count o = { a with stats := a.stats.record o } := by
  obtain ⟨experiences, numExperiences, numSteps, envEnd, totalReward, envMetrics⟩ := o
  cases envEnd <;> cases totalReward <;> rfl

lemma readReport_eq (a : Actor μ ε) : a.readReport.2 = { a with reports := a.reports.drop 1 } := by
  unfold readReport
  split
  · rename_i h
    rw [h, List.drop_nil, ← h]
  · rename_i h
    rw [h, List.drop_one, List.tail_cons]

lemma readReports_eq (a : Actor μ ε) :
    a.readReports.2 = { a with reports := a.reports.drop a.reports.length } := by
  rw [List.drop_length]
  rfl

/-- A turn of an actor, or of its owner, who may read some of its reports. -/
inductive Turn (config : ActorConfig) (a : Actor μ ε) : Bool → Actor μ ε → Prop where
  | rests (read : Bool) : Turn config a read a
  | begins (read : Bool) (i : Instruction μ) (running : a.phase = .running)
      (free : a.task = none) : Turn config a read (a.begin i)
  | leaves (read : Bool) (reason : Log.Event) (running : a.phase = .running)
      (free : a.task = none) : Turn config a read (a.stop config reason)
  | breaks (read : Bool) (i : Instruction μ) (task : a.task = some i)
      (behaviour : a.behaviour a.calls = none) :
      Turn config a read { a with task := none, phase := .crashed }
  | serves (read : Bool) (i : Instruction μ) (o : Outcome ε) (sent : Except NetworkError Unit)
      (task : a.task = some i) (behaviour : a.behaviour a.calls = some o) :
      Turn config a read (({ a with task := none }.count o).sent config sent)
  | reads (k : Nat) : Turn config a true { a with reports := a.reports.drop k }

lemma Turn.of_quiet {config : ActorConfig} {a b : Actor μ ε} (h : Turn config a false b)
    (read : Bool) : Turn config a read b := by
  cases h with
  | rests => exact .rests read
  | begins _ i running free => exact .begins read i running free
  | leaves _ reason running free => exact .leaves read reason running free
  | breaks _ i task behaviour => exact .breaks read i task behaviour
  | serves _ i o sent task behaviour => exact .serves read i o sent task behaviour

/-- A report that was due after some of the calls. -/
def Periodic (config : ActorConfig) (peer : PeerId) (b : Behaviour μ ε)
    (calls : List (Instruction μ)) (r : Stats) : Prop :=
  0 < config.statsInterval ∧ r.rollouts % config.statsInterval = 0 ∧
    ∃ k, 0 < k ∧ k ≤ calls.length ∧ r = Stats.ofCalls peer b (calls.take k)

lemma Periodic.append {config : ActorConfig} {peer : PeerId} {b : Behaviour μ ε}
    {calls : List (Instruction μ)} {r : Stats} (h : Periodic config peer b calls r)
    (more : List (Instruction μ)) : Periodic config peer b (calls ++ more) r := by
  obtain ⟨hinterval, hdue, k, hpos, hk, hr⟩ := h
  refine ⟨hinterval, hdue, k, hpos, ?_, ?_⟩
  · rw [List.length_append]
    omega
  · rw [List.take_append_of_le_length hk]
    exact hr

/-- The statistics and the reports of an actor are those of its calls. -/
structure Recorded (config : ActorConfig) (a : Actor μ ε) : Prop where
  busy : a.task.isSome = true → a.phase = .running ∧ a.calls ≠ []
  crashed : a.phase = .crashed → a.behaviour a.calls = none
  stats : a.stats = Stats.ofCalls a.peer a.behaviour a.served
  outcomes : (a.behaviour.outcomes a.served).length = a.served.length
  reports : a.phase = .running → ∀ r ∈ a.reports, Periodic config a.peer a.behaviour a.served r

variable {config : ActorConfig} {a b : Actor μ ε} {read : Bool}

lemma recorded_start (config : ActorConfig) (peer : PeerId) (b : Behaviour μ ε) :
    (start peer b).Recorded config :=
  ⟨fun h => Bool.noConfusion h, nofun, rfl, rfl, fun _ _ h => (List.not_mem_nil h).elim⟩

/-- The call that an actor works on is the last one. -/
lemma Recorded.calls_eq (h : a.Recorded config) {i : Instruction μ} (task : a.task = some i) :
    ∃ call, a.calls = a.served ++ [call] := by
  have hcalls := (h.busy (by rw [task]; rfl)).2
  rw [served_of_task task]
  exact ⟨_, (List.dropLast_concat_getLast hcalls).symm⟩

/-- An actor that has stopped is done with all its calls. -/
lemma Recorded.served_of_stopped (h : a.Recorded config) (stopped : a.phase = .stopped) :
    a.served = a.calls := by
  have free : a.task = none := by
    cases htask : a.task with
    | none => rfl
    | some i =>
      have running := (h.busy (by rw [htask]; rfl)).1
      cases stopped.symm.trans running
  exact served_of_free free (by rw [stopped]; nofun)

/-- A turn that serves no call leaves the record as it is. -/
lemma Recorded.of_served_eq (h : a.Recorded config) (hpeer : b.peer = a.peer)
    (hbehaviour : b.behaviour = a.behaviour) (hstats : b.stats = a.stats)
    (hserved : b.served = a.served)
    (hbusy : b.task.isSome = true → b.phase = .running ∧ b.calls ≠ [])
    (hcrashed : b.phase = .crashed → b.behaviour b.calls = none)
    (hreports : b.phase = .running → a.phase = .running ∧ b.reports ⊆ a.reports) :
    b.Recorded config := by
  refine ⟨hbusy, hcrashed, ?_, ?_, ?_⟩
  · rw [hstats, hpeer, hbehaviour, hserved]
    exact h.stats
  · rw [hbehaviour, hserved]
    exact h.outcomes
  · intro hrunning r hr
    rw [hpeer, hbehaviour, hserved]
    exact h.reports (hreports hrunning).1 r ((hreports hrunning).2 hr)

lemma Recorded.stop (h : a.Recorded config) (free : a.task = none) (running : a.phase = .running)
    (reason : Log.Event) : (a.stop config reason).Recorded config := by
  obtain ⟨log, hstop⟩ := stop_eq config a reason
  rw [hstop]
  refine h.of_served_eq rfl rfl rfl ?_ ?_ ?_ ?_
  · rw [served_of_running free running]
    exact served_of_free free nofun
  · intro hbusy
    rw [free] at hbusy
    cases hbusy
  · exact nofun
  · exact nofun

lemma Recorded.count (h : a.Recorded config) {i : Instruction μ} {o : Outcome ε}
    (task : a.task = some i) (behaviour : a.behaviour a.calls = some o) :
    ({ a with task := none }.count o).Recorded config := by
  obtain ⟨call, hcalls⟩ := h.calls_eq task
  have hrunning := (h.busy (by rw [task]; rfl)).1
  rw [count_stats]
  have hserved : Actor.served { a with task := none, stats := a.stats.record o } =
      a.served ++ [call] := by
    rw [← hcalls]
    exact served_of_running rfl hrunning
  have hbehaviour : a.behaviour (a.served ++ [call]) = some o := hcalls ▸ behaviour
  refine ⟨fun hbusy => Bool.noConfusion hbusy, ?_, ?_, ?_, ?_⟩
  · intro hcrashed
    simp [hrunning] at hcrashed
  · rw [hserved, Stats.ofCalls_concat _ hbehaviour, ← h.stats]
  · rw [hserved, Behaviour.outcomes_concat, hbehaviour, Option.toList_some, List.length_append,
      List.length_append, h.outcomes]
    rfl
  · intro _ r hr
    rw [hserved]
    exact (h.reports hrunning r hr).append [call]

/-- A report that is due after a rollout is periodic. -/
lemma Recorded.sent (h : a.Recorded config) (free : a.task = none) (running : a.phase = .running)
    (hcalls : a.calls ≠ []) (outcome : Except NetworkError Unit) :
    (a.sent config outcome).Recorded config := by
  have hserved := served_of_running free running
  cases outcome with
  | error e => exact h.stop free running _
  | ok u =>
    rw [Actor.sent]
    split
    · rename_i hdue
      rw [report_eq]
      refine ⟨h.busy, h.crashed, h.stats, h.outcomes, ?_⟩
      intro _ r hr
      rcases mem_filed hr with hr | rfl
      · exact h.reports running r hr
      · -- The report that is due now covers all calls so far.
        refine ⟨hdue.1, hdue.2, a.served.length, ?_, Nat.le_refl _, ?_⟩
        · rw [hserved]
          exact List.length_pos_of_ne_nil hcalls
        · have hall : a.served.take a.served.length = a.served := List.take_length
          exact h.stats.trans (congrArg (Stats.ofCalls a.peer a.behaviour) hall.symm)
    · exact h

theorem Turn.recorded (h : Turn config a read b) (ha : a.Recorded config) :
    b.Recorded config := by
  cases h with
  | rests => exact ha
  | begins _ i running free =>
    refine ha.of_served_eq rfl rfl rfl ?_ ?_ ?_ ?_
    · rw [served_of_running free running, served_of_task rfl]
      exact List.dropLast_concat
    · exact fun _ => ⟨running, List.concat_ne_nil _ _⟩
    · intro hcrashed
      exact absurd (hcrashed.symm.trans running) (by simp)
    · exact fun _ => ⟨running, List.Subset.refl _⟩
  | leaves _ reason running free => exact ha.stop free running reason
  | breaks _ i task behaviour =>
    refine ha.of_served_eq rfl rfl rfl ?_ ?_ ?_ ?_
    · rw [served_of_task task]
      exact if_pos (.inr rfl)
    · exact nofun
    · exact fun _ => behaviour
    · exact nofun
  | serves _ i o outcome task behaviour =>
    obtain ⟨hrunning, hcalls⟩ := ha.busy (by rw [task]; rfl)
    have hcount := ha.count task behaviour
    rw [count_stats] at hcount ⊢
    exact hcount.sent rfl hrunning hcalls outcome
  | reads k =>
    refine ha.of_served_eq rfl rfl rfl rfl ha.busy ha.crashed ?_
    exact fun running => ⟨running, List.drop_subset k _⟩

/-- A turn changes neither the peer of an actor nor its behaviour. -/
lemma Turn.same (h : Turn config a read b) : b.peer = a.peer ∧ b.behaviour = a.behaviour := by
  cases h with
  | rests => exact ⟨rfl, rfl⟩
  | begins => exact ⟨rfl, rfl⟩
  | leaves _ reason =>
    obtain ⟨log, hstop⟩ := stop_eq config a reason
    rw [hstop]
    exact ⟨rfl, rfl⟩
  | breaks => exact ⟨rfl, rfl⟩
  | serves _ i o outcome =>
    rw [count_stats]
    rcases sent_eq config { a with task := none, stats := a.stats.record o } outcome with
      ⟨reports, hsent⟩ | ⟨log, hsent⟩
    · rw [hsent]
      exact ⟨rfl, rfl⟩
    · rw [hsent]
      exact ⟨rfl, rfl⟩
  | reads => exact ⟨rfl, rfl⟩

lemma Turn.phase_eq_of_done (h : Turn config a read b) (ha : a.Recorded config)
    (hdone : a.phase ≠ .running) : b.phase = a.phase := by
  cases h with
  | rests => rfl
  | begins _ i running => exact absurd running hdone
  | leaves _ reason running => exact absurd running hdone
  | breaks _ i task => exact absurd (ha.busy (by rw [task]; rfl)).1 hdone
  | serves _ i o outcome task => exact absurd (ha.busy (by rw [task]; rfl)).1 hdone
  | reads => rfl

/-- An actor that is done stays as it is until its reports are read. -/
lemma Turn.eq_of_done (h : Turn config a false b) (ha : a.Recorded config)
    (hdone : a.phase ≠ .running) : b = a := by
  cases h with
  | rests => rfl
  | begins _ i running => exact absurd running hdone
  | leaves _ reason running => exact absurd running hdone
  | breaks _ i task => exact absurd (ha.busy (by rw [task]; rfl)).1 hdone
  | serves _ i o outcome task => exact absurd (ha.busy (by rw [task]; rfl)).1 hdone

/-- The turn in which an actor stops files the statistics of all its calls, if there is room. -/
lemma Turn.reports_of_stops (h : Turn config a read b)
    (running : a.phase = .running) (stopped : b.phase = .stopped) :
    b.reports =
        (if a.reports.length < max config.statsCapacity 1 then a.reports ++ [b.stats]
          else a.reports) ∧
      b.served = b.calls ∧ a.served <+: b.calls := by
  cases h with
  | rests => exact absurd (running.symm.trans stopped) (by simp)
  | begins => exact absurd (running.symm.trans stopped) (by simp)
  | leaves _ reason _ free =>
    obtain ⟨log, hstop⟩ := stop_eq config a reason
    rw [hstop]
    exact ⟨rfl, served_of_free free nofun, served_of_running free running ▸ List.prefix_rfl⟩
  | breaks => cases stopped
  | serves _ i o outcome task =>
    rw [count_stats] at stopped ⊢
    rcases sent_eq config { a with task := none, stats := a.stats.record o } outcome with
      ⟨reports, hsent⟩ | ⟨log, hsent⟩
    · rw [hsent] at stopped
      exact absurd (running.symm.trans stopped) (by simp)
    · rw [hsent]
      refine ⟨rfl, served_of_free rfl nofun, ?_⟩
      rw [served_of_task task]
      exact List.dropLast_prefix _
  | reads => exact absurd (running.symm.trans stopped) (by simp)

/-- What an actor leaves when it stops: the statistics of all its calls, or, if the file is full,
the last periodic report in it. -/
theorem Turn.farewell_of_stops (h : Turn config a read b) (ha : a.Recorded config)
    (running : a.phase = .running) (stopped : b.phase = .stopped) :
    ∃ s, b.farewell = .report (some s) ∧
      (a.reports.length < max config.statsCapacity 1 →
        s = Stats.ofCalls b.peer b.behaviour b.calls) ∧
      (max config.statsCapacity 1 ≤ a.reports.length →
        a.reports.getLast? = some s ∧ Periodic config b.peer b.behaviour b.calls s) := by
  have hb := h.recorded ha
  obtain ⟨hreports, hserved, hprefix⟩ := h.reports_of_stops running stopped
  obtain ⟨hpeer, hbehaviour⟩ := h.same
  have hfarewell : b.farewell = .report b.reports.getLast? := by
    rw [farewell, stopped]
    rfl
  by_cases hroom : a.reports.length < max config.statsCapacity 1
  · refine ⟨b.stats, ?_, ?_, ?_⟩
    · rw [hfarewell, hreports, if_pos hroom, List.getLast?_concat]
    · intro _
      rw [← hserved]
      exact hb.stats
    · intro hfull
      omega
  · have hne : a.reports ≠ [] := by
      intro hnil
      rw [hnil] at hroom
      simp at hroom
    have hlast := List.getLast?_eq_some_getLast hne
    refine ⟨a.reports.getLast hne, ?_, ?_, ?_⟩
    · rw [hfarewell, hreports, if_neg hroom, hlast]
    · intro hfits
      exact absurd hfits hroom
    · intro _
      obtain ⟨rest, hrest⟩ := hprefix
      refine ⟨hlast, ?_⟩
      rw [hpeer, hbehaviour, ← hrest]
      exact (ha.reports running _ (List.getLast_mem hne)).append rest

end Actor

end ExperienceCollection
