import ExperienceCollection.Proofs.Actor.Service
import Mathlib.Data.List.Induction

/-!
# Attempts to report

An actor tries to file a report when an answer completes an interval, and once more when it stops. A
report that finds the file full is lost. Turn by turn, `Actor.Accounted` keeps what was tried equal
to the statistics that are due after the calls so far.
-/

namespace ExperienceCollection

variable {μ ε : Type}

lemma Behaviour.outcomes_append (b : Behaviour μ ε) (calls more : List (Instruction μ)) :
    ∃ rest, b.outcomes (calls ++ more) = b.outcomes calls ++ rest := by
  induction more using List.reverseRecOn with
  | nil => exact ⟨[], by rw [List.append_nil, List.append_nil]⟩
  | append_singleton more i ih =>
    obtain ⟨rest, hrest⟩ := ih
    refine ⟨rest ++ (b (calls ++ more ++ [i])).toList, ?_⟩
    rw [← List.append_assoc, b.outcomes_concat, hrest, List.append_assoc]

lemma Behaviour.outcomes_length_le (b : Behaviour μ ε) (calls : List (Instruction μ)) :
    (b.outcomes calls).length ≤ calls.length := by
  have hle := List.length_filterMap_le (fun k => b (calls.take (k + 1))) (List.range calls.length)
  rwa [List.length_range] at hle

namespace Stats

/-- Statistics of an earlier moment: no count is larger. -/
structure Precedes (s t : Stats) : Prop where
  rollouts : s.rollouts ≤ t.rollouts
  steps : s.steps ≤ t.steps
  experiences : s.experiences ≤ t.experiences
  episodes : s.episodes ≤ t.episodes

lemma ofCalls_precedes (peer : PeerId) (b : Behaviour μ ε) {calls more : List (Instruction μ)}
    (few : (calls ++ more).length < 2 ^ 64) :
    (ofCalls peer b calls).Precedes (ofCalls peer b (calls ++ more)) := by
  obtain ⟨rest, hrest⟩ := b.outcomes_append calls more
  have hfew : (b.outcomes calls ++ rest).length ≤ Counter.top := by
    rw [← hrest]
    exact Nat.le_trans (b.outcomes_length_le _) (Nat.le_of_lt_succ few)
  have hadded {field : Stats → Nat} {amount : Outcome ε → Nat}
      (hrecord : ∀ s o, field (s.record o) = Counter.add (field s) (amount o))
      (hzero : field { peer } = 0) :
      field (ofCalls peer b calls) ≤ field (ofCalls peer b (calls ++ more)) := by
    rw [ofCalls_added hrecord hzero, ofCalls_added hrecord hzero, hrest, List.map_append,
      List.sum_append]
    omega
  refine ⟨hadded record_rollouts rfl, hadded record_steps rfl, hadded record_experiences rfl, ?_⟩
  have hless : (b.outcomes calls).length ≤ Counter.top := by
    rw [List.length_append] at hfew
    omega
  rw [ofCalls_episodes peer b hless, ofCalls_episodes peer b (by rwa [hrest]), hrest,
    List.countP_append]
  exact Nat.le_add_right _ _

lemma ofCalls_peer (peer : PeerId) (b : Behaviour μ ε) (calls : List (Instruction μ)) :
    (ofCalls peer b calls).peer = peer := by
  have hfold (outcomes : List (Outcome ε)) (s : Stats) :
      (outcomes.foldl record s).peer = s.peer := by
    induction outcomes generalizing s with
    | nil => rfl
    | cons o outcomes ih =>
      obtain ⟨_, _, _, _, hrecord⟩ := s.record_eq o
      rw [List.foldl_cons, ih, hrecord]
  exact hfold _ _

/-- The statistics after every `interval` calls; none if the interval is zero. -/
def due (interval : Nat) (peer : PeerId) (b : Behaviour μ ε) (calls : List (Instruction μ)) :
    List Stats :=
  (List.range (calls.length / interval)).map fun m =>
    ofCalls peer b (calls.take ((m + 1) * interval))

/-- One more call makes one more report due if it completes an interval. -/
lemma due_concat (interval : Nat) (peer : PeerId) (b : Behaviour μ ε)
    (calls : List (Instruction μ)) (i : Instruction μ) :
    due interval peer b (calls ++ [i]) = due interval peer b calls ++
      if interval ∣ calls.length + 1 then [ofCalls peer b (calls ++ [i])] else [] := by
  have hold : ((List.range (calls.length / interval)).map fun m =>
      ofCalls peer b ((calls ++ [i]).take ((m + 1) * interval))) = due interval peer b calls := by
    apply List.map_congr_left
    intro m hm
    have hle : (m + 1) * interval ≤ calls.length :=
      Nat.le_trans (Nat.mul_le_mul_right interval (List.mem_range.mp hm))
        (Nat.div_mul_le_self _ _)
    rw [List.take_append_of_le_length hle]
  unfold due at hold ⊢
  rw [List.length_append, List.length_singleton]
  by_cases hdvd : interval ∣ calls.length + 1
  · have hall : (calls.length / interval + 1) * interval = (calls ++ [i]).length := by
      rw [← Nat.succ_div_of_dvd hdvd, Nat.div_mul_cancel hdvd, List.length_append,
        List.length_singleton]
    rw [if_pos hdvd, Nat.succ_div_of_dvd hdvd, List.range_succ, List.map_append, hold,
      List.map_singleton, hall, List.take_length]
  · rw [if_neg hdvd, Nat.succ_div_of_not_dvd hdvd, hold, List.append_nil]

lemma mem_due {interval : Nat} {peer : PeerId} {b : Behaviour μ ε} {calls : List (Instruction μ)}
    {r : Stats} (h : r ∈ due interval peer b calls) :
    ∃ m, 1 ≤ m ∧ 0 < interval ∧ m * interval ≤ calls.length ∧
      r = ofCalls peer b (calls.take (m * interval)) := by
  obtain ⟨m, hm, rfl⟩ := List.mem_map.mp h
  have hlt := List.mem_range.mp hm
  have hpos : 0 < interval := by
    apply Nat.pos_of_ne_zero
    rintro rfl
    rw [Nat.div_zero] at hlt
    exact Nat.not_lt_zero m hlt
  refine ⟨m + 1, Nat.succ_pos m, hpos, ?_, rfl⟩
  exact Nat.le_trans (Nat.mul_le_mul_right interval hlt) (Nat.div_mul_le_self _ _)

/-- A prefix of calls has the earlier statistics. -/
lemma take_precedes (peer : PeerId) (b : Behaviour μ ε) {calls : List (Instruction μ)}
    (few : calls.length < 2 ^ 64) {j k : Nat} (hjk : j ≤ k) :
    (ofCalls peer b (calls.take j)).Precedes (ofCalls peer b (calls.take k)) := by
  have hsplit : calls.take k = calls.take j ++ (calls.take k).drop j := by
    conv_lhs => rw [← List.take_append_drop j (calls.take k), List.take_take, Nat.min_eq_left hjk]
  rw [hsplit]
  apply ofCalls_precedes
  rw [← hsplit]
  exact Nat.lt_of_le_of_lt (List.length_take_le' k calls) few

lemma due_pairwise (interval : Nat) (peer : PeerId) (b : Behaviour μ ε)
    {calls : List (Instruction μ)} (few : calls.length < 2 ^ 64) :
    (due interval peer b calls).Pairwise Precedes := by
  refine List.pairwise_map.mpr (List.pairwise_lt_range.imp fun {m m'} hlt => ?_)
  apply take_precedes peer b few
  exact Nat.mul_le_mul_right interval (Nat.succ_le_succ (Nat.le_of_lt hlt))

end Stats

/-- A report that an actor tries to file, with the number of unread reports that it finds. -/
structure Attempt where
  stats : Stats
  unread : Nat

/-- The reports that find room in the file. -/
def ActorConfig.kept (config : ActorConfig) (attempts : List Attempt) : List Stats :=
  (attempts.filter fun t => t.unread < max config.statsCapacity 1).map Attempt.stats

lemma ActorConfig.kept_append (config : ActorConfig) (attempts more : List Attempt) :
    config.kept (attempts ++ more) = config.kept attempts ++ config.kept more := by
  rw [kept, List.filter_append, List.map_append, kept, kept]

lemma ActorConfig.kept_singleton (config : ActorConfig) (stats : Stats) (unread : Nat) :
    config.kept [⟨stats, unread⟩] =
      if unread < max config.statsCapacity 1 then [stats] else [] := by
  rw [kept, List.filter_singleton]
  split
  · rename_i hroom
    rw [decide_eq_true hroom]
    rfl
  · rename_i hfull
    rw [decide_eq_false hfull]
    rfl

namespace Actor

/-- Whether a turn answers a call: it completes a task, and the actor goes on. -/
def answers (a b : Actor μ ε) : Bool :=
  a.task.isSome && b.task.isNone && decide (b.phase = .running)

/-- What an actor tries to file in a turn: a last report if it stops, or a periodic one if its
answer makes it due. -/
def attempts (config : ActorConfig) (a b : Actor μ ε) : List Attempt :=
  if a.phase = .running ∧ b.phase = .stopped ∨
      a.answers b = true ∧ 0 < config.statsInterval ∧
        b.stats.rollouts % config.statsInterval = 0 then
    [⟨b.stats, a.reports.length⟩]
  else []

variable {config : ActorConfig} {a b : Actor μ ε} {read : Bool}

lemma answers_of_free (free : a.task = none) : a.answers b = false := by
  rw [answers, free]
  rfl

lemma answers_of_task_eq (task : b.task = a.task) : a.answers b = false := by
  rw [answers, task]
  cases a.task <;> rfl

lemma answers_of_done (done : b.phase ≠ .running) : a.answers b = false := by
  rw [answers, decide_eq_false done, Bool.and_false]

lemma attempts_of_quiet (phase : b.phase = .stopped → a.phase = .stopped)
    (silent : a.answers b = false) : a.attempts config b = [] := by
  apply if_neg
  rintro (⟨running, stopped⟩ | ⟨answers, -⟩)
  · cases running.symm.trans (phase stopped)
  · cases silent.symm.trans answers

lemma attempts_of_stop (running : a.phase = .running) (stopped : b.phase = .stopped) :
    a.attempts config b = [⟨b.stats, a.reports.length⟩] :=
  if_pos (.inl ⟨running, stopped⟩)

lemma answers_iff :
    a.answers b = true ↔ a.task.isSome = true ∧ b.task = none ∧ b.phase = .running := by
  simp [answers, and_assoc]

lemma attempts_of_answer (answers : a.answers b = true) :
    a.attempts config b =
      if 0 < config.statsInterval ∧ b.stats.rollouts % config.statsInterval = 0 then
        [⟨b.stats, a.reports.length⟩]
      else [] := by
  have running := (answers_iff.mp answers).2.2
  unfold attempts
  simp [answers, running]

/-- Reading its reports makes an actor attempt nothing. -/
lemma attempts_read (config : ActorConfig) (a : Actor μ ε) (reports : List Stats) :
    a.attempts config { a with reports } = [] :=
  attempts_of_quiet id (answers_of_task_eq rfl)

lemma filed_eq (config : ActorConfig) (a : Actor μ ε) :
    a.filed config = a.reports ++ config.kept [⟨a.stats, a.reports.length⟩] := by
  rw [filed, ActorConfig.kept_singleton]
  split
  · rfl
  · exact (List.append_nil _).symm

/-- A turn without an attempt only takes reports out of the file. -/
lemma reports_of_quiet {k : Nat} (phase : b.phase = .stopped → a.phase = .stopped)
    (silent : a.answers b = false) (reports : b.reports = a.reports.drop k) :
    b.reports = a.reports.drop k ++ config.kept (a.attempts config b) := by
  rw [attempts_of_quiet phase silent, reports]
  exact (List.append_nil _).symm

/-- Nothing but what is read leaves the file, and nothing but an attempted report enters it. -/
theorem Turn.reports_eq (h : Turn config a read b) (ha : a.Recorded config) :
    ∃ k, (read = false → k = 0) ∧
      b.reports = a.reports.drop k ++ config.kept (a.attempts config b) := by
  cases h with
  | rests => exact ⟨0, fun _ => rfl, reports_of_quiet id (answers_of_task_eq rfl) rfl⟩
  | begins _ i running free =>
    exact ⟨0, fun _ => rfl, reports_of_quiet id (answers_of_free free) rfl⟩
  | leaves _ reason running free =>
    obtain ⟨log, hstop⟩ := stop_eq config a reason
    refine ⟨0, fun _ => rfl, ?_⟩
    rw [hstop, attempts_of_stop running rfl]
    exact filed_eq config a
  | breaks _ i task behaviour =>
    refine ⟨0, fun _ => rfl, reports_of_quiet ?_ (answers_of_done ?_) rfl⟩
    · intro stopped
      cases stopped
    · intro running
      cases running
  | serves _ i o outcome task behaviour =>
    have running := (ha.busy (by rw [task]; rfl)).1
    refine ⟨0, fun _ => rfl, ?_⟩
    rw [count_stats]
    cases outcome with
    | error e =>
      obtain ⟨log, hstop⟩ := stop_eq config { a with task := none, stats := a.stats.record o }
        (.sendFailed a.peer e)
      rw [Actor.sent, hstop, attempts_of_stop running rfl]
      exact filed_eq config { a with task := none, stats := a.stats.record o }
    | ok u =>
      have hattempts (reports : List Stats) :
          a.attempts config { a with task := none, stats := a.stats.record o, reports } =
            if 0 < config.statsInterval ∧
                (a.stats.record o).rollouts % config.statsInterval = 0 then
              [⟨a.stats.record o, a.reports.length⟩]
            else [] := by
        apply attempts_of_answer
        rw [answers_iff, task]
        exact ⟨rfl, rfl, running⟩
      rw [Actor.sent]
      split
      · rename_i hdue
        rw [report_eq, hattempts, if_pos hdue]
        exact filed_eq config { a with task := none, stats := a.stats.record o }
      · rename_i hnot
        rw [hattempts, if_neg hnot]
        exact (List.append_nil _).symm
  | reads k =>
    refine ⟨k, ?_, reports_of_quiet id (answers_of_task_eq rfl) rfl⟩
    intro quiet
    cases quiet

/-- How the attempts of an actor stand to the calls that it has answered. -/
structure Accounted (config : ActorConfig) (a : Actor μ ε) (answered : Nat)
    (attempts : List Attempt) : Prop where
  answered_le : answered ≤ a.calls.length
  running : a.phase = .running → answered = a.served.length
  attempted : a.calls.length < 2 ^ 64 → attempts.map Attempt.stats =
    Stats.due config.statsInterval a.peer a.behaviour (a.calls.take answered) ++
      if a.phase = .stopped then [a.stats] else []

lemma accounted_start (config : ActorConfig) (peer : PeerId) (b : Behaviour μ ε) :
    (start peer b).Accounted config 0 [] := by
  refine ⟨Nat.zero_le _, fun _ => rfl, fun _ => ?_⟩
  simp [start, Stats.due]

section

variable {answered : Nat} {attempts : List Attempt}

/-- A turn without an answer or a stop leaves the account as it is. -/
lemma Accounted.of_quiet (h : a.Accounted config answered attempts)
    (same : b.peer = a.peer ∧ b.behaviour = a.behaviour) {more : List (Instruction μ)}
    (calls : b.calls = a.calls ++ more) (stats : b.stats = a.stats)
    (running : b.phase = .running → a.phase = .running ∧ b.served.length = a.served.length)
    (phase : b.phase = .stopped ↔ a.phase = .stopped) (silent : a.answers b = false) :
    b.Accounted config (answered + if a.answers b then 1 else 0)
      (attempts ++ a.attempts config b) := by
  obtain ⟨hle, hrunning, hattempted⟩ := h
  rw [attempts_of_quiet phase.mp silent, silent, List.append_nil]
  refine ⟨?_, ?_, ?_⟩
  · rw [calls, List.length_append]
    exact Nat.le_add_right_of_le hle
  · intro hb
    rw [(running hb).2]
    exact hrunning (running hb).1
  · intro few
    rw [calls, List.length_append] at few
    have htake : b.calls.take answered = a.calls.take answered := by
      rw [calls, List.take_append_of_le_length hle]
    rw [hattempted (by omega), same.1, same.2, stats]
    simp only [Bool.false_eq_true, if_false, Nat.add_zero, htake, phase]

/-- An actor that stops attempts a last report. -/
lemma Accounted.of_stop (h : a.Accounted config answered attempts)
    (same : b.peer = a.peer ∧ b.behaviour = a.behaviour) (calls : b.calls = a.calls)
    (running : a.phase = .running) (stopped : b.phase = .stopped) :
    b.Accounted config (answered + if a.answers b then 1 else 0)
      (attempts ++ a.attempts config b) := by
  have silent : a.answers b = false := answers_of_done (by rw [stopped]; nofun)
  rw [attempts_of_stop running stopped, silent]
  refine ⟨?_, ?_, ?_⟩
  · rw [calls]
    exact h.answered_le
  · intro hb
    cases stopped.symm.trans hb
  · intro few
    rw [calls] at few
    rw [List.map_append, h.attempted few, if_neg (by rw [running]; nofun), if_pos stopped,
      List.append_nil, same.1, same.2, calls]
    rfl

/-- In terms of what was served: a report is attempted if the answer completes an interval. -/
lemma attempts_stats_of_answer (hb : b.Recorded config) (answers : a.answers b = true)
    (nonempty : 0 < b.served.length) (few : b.served.length < 2 ^ 64) :
    (a.attempts config b).map Attempt.stats =
      if config.statsInterval ∣ b.served.length then [b.stats] else [] := by
  have hrollouts : b.stats.rollouts = b.served.length := by
    rw [hb.stats, Stats.ofCalls_rollouts, hb.outcomes]
    exact Nat.min_eq_right (Nat.le_of_lt_succ few)
  have hdvd : config.statsInterval ∣ b.served.length ↔
      0 < config.statsInterval ∧ b.stats.rollouts % config.statsInterval = 0 := by
    rw [hrollouts]
    refine ⟨fun h => ⟨Nat.pos_of_dvd_of_pos h nonempty, Nat.mod_eq_zero_of_dvd h⟩, ?_⟩
    exact fun h => Nat.dvd_of_mod_eq_zero h.2
  rw [attempts_of_answer answers]
  by_cases hdue : config.statsInterval ∣ b.served.length
  · rw [if_pos hdue, if_pos (hdvd.mp hdue)]
    rfl
  · rw [if_neg hdue, if_neg fun h => hdue (hdvd.mpr h)]
    rfl

/-- An answer makes a report due if it completes an interval. -/
lemma Accounted.of_answer (h : a.Accounted config answered attempts) (hb : b.Recorded config)
    (same : b.peer = a.peer ∧ b.behaviour = a.behaviour) (calls : b.calls = a.calls)
    {call : Instruction μ} (split : a.calls = a.served ++ [call]) (running : a.phase = .running)
    (answers : a.answers b = true) :
    b.Accounted config (answered + if a.answers b then 1 else 0)
      (attempts ++ a.attempts config b) := by
  obtain ⟨-, free, going⟩ := answers_iff.mp answers
  have hserved : b.served = a.served ++ [call] := by
    rw [served_of_running free going, calls, split]
  have hlength : b.served.length = a.served.length + 1 := by
    rw [hserved, List.length_append]
    rfl
  have hcalls : b.calls = b.served := (served_of_running free going).symm
  rw [answers, if_pos rfl, h.running running]
  refine ⟨?_, ?_, ?_⟩
  · rw [hcalls]
    exact Nat.le_of_eq hlength.symm
  · intro _
    exact hlength.symm
  · intro few
    rw [hcalls] at few ⊢
    have hbefore : a.calls.take a.served.length = a.served := by
      rw [split, List.take_left]
    have hold := h.attempted (by rw [← calls, hcalls]; exact few)
    rw [h.running running, hbefore, if_neg (by rw [running]; nofun), List.append_nil] at hold
    have hnew := attempts_stats_of_answer hb answers (by omega) few
    have hgoing : ¬b.phase = .stopped := by rw [going]; nofun
    rw [List.map_append, hold, hnew, ← hlength, List.take_length, if_neg hgoing, List.append_nil,
      hb.stats, hlength, hserved, same.1, same.2, Stats.due_concat]

/-- Every turn keeps the account of an actor. -/
theorem Accounted.turn (h : a.Accounted config answered attempts) (ha : a.Recorded config)
    (ht : Turn config a read b) :
    b.Accounted config (answered + if a.answers b then 1 else 0)
      (attempts ++ a.attempts config b) := by
  have hb := ht.recorded ha
  have hsame := ht.same
  cases ht with
  | rests =>
    exact h.of_quiet hsame (List.append_nil _).symm rfl (fun h => ⟨h, rfl⟩) Iff.rfl
      (answers_of_task_eq rfl)
  | begins _ i running free =>
    refine h.of_quiet hsame rfl rfl (fun h => ⟨running, ?_⟩) Iff.rfl (answers_of_free free)
    rw [served_of_running free running, served_of_task (a := a.begin i) rfl, begin,
      List.dropLast_concat]
  | leaves _ reason running free =>
    obtain ⟨log, hstop⟩ := stop_eq config a reason
    rw [hstop] at hsame ⊢
    exact h.of_stop hsame rfl running rfl
  | breaks _ i task behaviour =>
    have running := (ha.busy (by rw [task]; rfl)).1
    refine h.of_quiet hsame (List.append_nil _).symm rfl ?_ ?_ (answers_of_done ?_)
    · intro going
      cases going
    · rw [running]
      exact ⟨nofun, nofun⟩
    · intro going
      cases going
  | serves _ i o outcome task behaviour =>
    have running := (ha.busy (by rw [task]; rfl)).1
    obtain ⟨call, hsplit⟩ := ha.calls_eq task
    rw [count_stats] at hb hsame ⊢
    rcases sent_eq config { a with task := none, stats := a.stats.record o } outcome with
      ⟨reports, hsent⟩ | ⟨log, hsent⟩
    · rw [hsent] at hb hsame ⊢
      exact h.of_answer hb hsame rfl hsplit running
        (answers_iff.mpr ⟨by rw [task]; rfl, rfl, running⟩)
    · rw [hsent] at hsame ⊢
      exact h.of_stop hsame rfl running rfl
  | reads k =>
    exact h.of_quiet hsame (List.append_nil _).symm rfl (fun h => ⟨h, rfl⟩) Iff.rfl
      (answers_of_task_eq rfl)

/-- A report that was attempted is the statistics after a number of answers that completes an
interval, or those at the stop. -/
lemma Accounted.mem (h : a.Accounted config answered attempts) (few : a.calls.length < 2 ^ 64)
    {r : Stats} (hr : r ∈ attempts.map Attempt.stats) :
    (∃ m, 1 ≤ m ∧ 0 < config.statsInterval ∧ m * config.statsInterval ≤ answered ∧
        r = Stats.ofCalls a.peer a.behaviour (a.calls.take (m * config.statsInterval))) ∨
      a.phase = .stopped ∧ r = a.stats := by
  rw [h.attempted few] at hr
  rcases List.mem_append.mp hr with hdue | hlast
  · obtain ⟨m, hm, hinterval, hle, rfl⟩ := Stats.mem_due hdue
    have hanswered := Nat.le_trans hle (List.length_take_le answered a.calls)
    refine .inl ⟨m, hm, hinterval, hanswered, ?_⟩
    rw [List.take_take, Nat.min_eq_left hanswered]
  · split at hlast
    · rename_i stopped
      exact .inr ⟨stopped, List.mem_singleton.mp hlast⟩
    · cases hlast

/-- No count goes back from one attempt to the next. -/
lemma Accounted.pairwise (h : a.Accounted config answered attempts) (ha : a.Recorded config)
    (few : a.calls.length < 2 ^ 64) :
    (attempts.map Attempt.stats).Pairwise Stats.Precedes := by
  have hfew : (a.calls.take answered).length < 2 ^ 64 :=
    Nat.lt_of_le_of_lt (List.length_take_le' answered a.calls) few
  rw [h.attempted few, List.pairwise_append]
  refine ⟨Stats.due_pairwise _ _ _ hfew, ?_, ?_⟩
  · split
    · exact List.pairwise_singleton _ _
    · exact List.Pairwise.nil
  · intro r hr last hlast
    split at hlast
    · rename_i stopped
      obtain rfl := List.mem_singleton.mp hlast
      obtain ⟨m, -, -, -, rfl⟩ := Stats.mem_due hr
      have hle : min (m * config.statsInterval) answered ≤ a.calls.length :=
        Nat.le_trans (Nat.min_le_right _ _) h.answered_le
      have hprecedes := Stats.take_precedes a.peer a.behaviour few hle
      rw [ha.stats, ha.served_of_stopped stopped, List.take_take]
      rwa [List.take_length] at hprecedes
    · cases hlast

end

/-- The reports of an actor bear its name. -/
def Signed (a : Actor μ ε) : Prop := ∀ r ∈ a.reports, r.peer = a.peer

lemma mem_attempts {t : Attempt} (h : t ∈ a.attempts config b) :
    t = ⟨b.stats, a.reports.length⟩ := by
  unfold attempts at h
  split at h
  · exact List.mem_singleton.mp h
  · cases h

lemma Turn.signed (h : Turn config a read b) (ha : a.Recorded config) (hsigned : a.Signed) :
    b.Signed := by
  obtain ⟨k, -, hreports⟩ := h.reports_eq ha
  intro r hr
  rw [hreports] at hr
  rcases List.mem_append.mp hr with hold | hnew
  · rw [h.same.1]
    exact hsigned r (List.mem_of_mem_drop hold)
  · obtain ⟨t, ht, rfl⟩ := List.mem_map.mp hnew
    rw [mem_attempts (List.mem_of_mem_filter ht), (h.recorded ha).stats]
    exact Stats.ofCalls_peer b.peer b.behaviour b.served

lemma length_kept_attempts_le (config : ActorConfig) (a b : Actor μ ε) :
    (config.kept (a.attempts config b)).length ≤
      max config.statsCapacity 1 - a.reports.length := by
  unfold attempts
  split
  · rw [ActorConfig.kept_singleton]
    split
    · rename_i hroom
      exact Nat.sub_pos_of_lt hroom
    · exact Nat.zero_le _
  · exact Nat.zero_le _

end Actor

end ExperienceCollection
