import ExperienceCollection.Proofs.Actor.Exchange
import ExperienceCollection.Proofs.Actor.Farewell

/-!
# The course of an actor

An actor is called with the instructions of its role, in the order in which they were broadcast and
once each. It goes on until it meets an exit, until it finds its queue empty and the coordinator
gone, or until a result cannot be sent. Every call puts one result in the inbox, except a last one
that cannot be sent, and the statistics of the actor count that call as well.
-/

namespace ExperienceCollection

variable {μ ε : Type}

/-- A result names its instruction and carries an outcome. Metrics are there only if the instruction
asks for them. -/
structure Result.Answers (r : Result ε) (i : Instruction μ) (o : Outcome ε) : Prop where
  rolloutIndex : r.rolloutIndex = i.rolloutIndex
  segmentIndex : r.segmentIndex = i.segmentIndex
  numExperiences : r.numExperiences = o.numExperiences
  numSteps : r.numSteps = o.numSteps
  envEnd : r.envEnd = o.envEnd
  totalReward : r.totalReward = o.totalReward
  experiences : r.experiences = o.experiences
  metrics_asked : i.returnEnvMetrics = true → r.envMetrics = o.envMetrics
  metrics_unasked : i.returnEnvMetrics = false → r.envMetrics = none

lemma Outcome.result_answers (o : Outcome ε) (i : Instruction μ) : (o.result i).Answers i o :=
  ⟨rfl, rfl, rfl, rfl, rfl, rfl, rfl, fun h => if_pos h, fun h => if_neg (by rw [h]; nofun)⟩

/-- Each call has an outcome, and each outcome a result, in the order of the calls. -/
structure Behaviour.Answered (b : Behaviour μ ε) (calls : List (Instruction μ))
    (results : List (Result ε)) : Prop where
  length : results.length = calls.length
  answer : ∀ k i, calls[k]? = some i → ∃ o r, b (calls.take (k + 1)) = some o ∧
    results[k]? = some r ∧ r.Answers i o

lemma Behaviour.answered_nil (b : Behaviour μ ε) : b.Answered [] [] := ⟨rfl, nofun⟩

lemma Behaviour.Answered.concat {b : Behaviour μ ε} {calls : List (Instruction μ)}
    {results : List (Result ε)} (h : b.Answered calls results) {i : Instruction μ} {o : Outcome ε}
    (ho : b (calls ++ [i]) = some o) : b.Answered (calls ++ [i]) (results ++ [o.result i]) where
  length := by rw [List.length_append, List.length_append, h.length]; rfl
  answer := by
    intro k j hk
    have hle := (List.getElem?_eq_some_iff.mp hk).1
    rw [List.length_append, List.length_singleton] at hle
    by_cases hlt : k < calls.length
    · rw [List.getElem?_append_left hlt] at hk
      obtain ⟨o', r, hcall, hr, hanswers⟩ := h.answer k j hk
      refine ⟨o', r, ?_, ?_, hanswers⟩
      · rw [List.take_append_of_le_length hlt]
        exact hcall
      · rw [List.getElem?_append_left (h.length ▸ hlt)]
        exact hr
    · obtain rfl : k = calls.length := by omega
      rw [List.getElem?_concat_length] at hk
      obtain rfl := Option.some.inj hk
      refine ⟨o, o.result i, ?_, ?_, o.result_answers i⟩
      · rw [List.take_of_length_le (by simp)]
        exact ho
      · rw [← h.length, List.getElem?_concat_length]

/-- Once it has stopped, the statistics of an actor count all its calls. -/
lemma Actor.Recorded.counters_of_stopped {config : ActorConfig} {a : Actor μ ε}
    (h : a.Recorded config) (stopped : a.phase = .stopped) :
    let outcomes := a.behaviour.outcomes a.calls
    outcomes.length = a.calls.length ∧
      (a.calls.length < 2 ^ 64 → a.stats.rollouts = a.calls.length ∧
        a.stats.episodes = outcomes.countP Outcome.isEpisode) ∧
      a.stats.steps = min Counter.top (outcomes.map Outcome.numSteps).sum ∧
      a.stats.experiences = min Counter.top (outcomes.map Outcome.numExperiences).sum := by
  intro outcomes
  have hserved := h.served_of_stopped stopped
  have hlength : outcomes.length = a.calls.length := by
    have hserves := h.outcomes
    rwa [hserved] at hserves
  rw [h.stats, hserved]
  refine ⟨hlength, fun hfew => ⟨?_, ?_⟩, ?_, ?_⟩
  · rw [Stats.ofCalls_rollouts, hlength]
    exact Nat.min_eq_right (Nat.le_of_lt_succ hfew)
  · exact Stats.ofCalls_episodes a.peer a.behaviour (hlength ▸ Nat.le_of_lt_succ hfew)
  · exact Stats.ofCalls_added Stats.record_steps rfl a.behaviour a.calls
  · exact Stats.ofCalls_added Stats.record_experiences rfl a.behaviour a.calls

namespace Pool

/-- How far an actor of a role has come after some steps of a session, with the commands in its
queue and the results that it has posted. -/
inductive Course (role : String) (steps : List (Step μ)) (queue : List (Command μ))
    (results : List (Result ε)) (a : Actor μ ε) : Prop where
  | waits (running : a.phase = .running) (free : a.task = none)
      (commands : commandsTo role steps = a.calls.map .rollout ++ queue)
      (answered : a.behaviour.Answered a.calls results)
  | works (calls : List (Instruction μ)) (i : Instruction μ) (running : a.phase = .running)
      (task : a.task = some i) (split : a.calls = calls ++ [i])
      (commands : commandsTo role steps = a.calls.map .rollout ++ queue)
      (answered : a.behaviour.Answered calls results)
  | exits (rest : List (Command μ)) (stopped : a.phase = .stopped)
      (commands : commandsTo role steps = a.calls.map .rollout ++ .exit :: rest)
      (answered : a.behaviour.Answered a.calls results)
  | disconnects (before after : List (Step μ)) (stopped : a.phase = .stopped)
      (split : steps = before ++ after) (gone : .detach ∈ before)
      (commands : commandsTo role before = a.calls.map .rollout)
      (answered : a.behaviour.Answered a.calls results)
  | fails (calls : List (Instruction μ)) (unsent : Instruction μ) (o : Outcome ε)
      (rest : List (Command μ)) (stopped : a.phase = .stopped) (gone : .detach ∈ steps)
      (split : a.calls = calls ++ [unsent])
      (commands : commandsTo role steps = a.calls.map .rollout ++ rest)
      (outcome : a.behaviour a.calls = some o) (answered : a.behaviour.Answered calls results)
  | breaks (calls : List (Instruction μ)) (last : Instruction μ) (rest : List (Command μ))
      (crashed : a.phase = .crashed) (split : a.calls = calls ++ [last])
      (commands : commandsTo role steps = a.calls.map .rollout ++ rest)
      (outcome : a.behaviour a.calls = none) (answered : a.behaviour.Answered calls results)

section

variable {role : String} {steps : List (Step μ)} {queue left : List (Command μ)}
  {results new : List (Result ε)} {a b : Actor μ ε} {x : Step μ} {attached : Bool}

/-- An actor that is done has run its course, whatever is still sent. -/
lemma Course.of_done (h : Course role steps queue results a) (done : a.phase ≠ .running)
    (reports : List Stats) :
    Course role (steps ++ [x]) left results { a with reports } := by
  have hall := commandsTo_append role steps [x]
  cases h with
  | waits running => exact absurd running done
  | works calls i running => exact absurd running done
  | exits rest stopped commands answered =>
    refine .exits (rest ++ commandsTo role [x]) stopped ?_ answered
    rw [hall, commands, List.append_assoc]
    rfl
  | disconnects before after stopped split gone commands answered =>
    refine .disconnects before (after ++ [x]) stopped ?_ gone commands answered
    rw [split, List.append_assoc]
  | fails calls unsent o rest stopped gone split commands outcome answered =>
    refine .fails calls unsent o (rest ++ commandsTo role [x]) stopped
      (List.mem_append_left _ gone) split ?_ outcome answered
    rw [hall, commands, List.append_assoc]
  | breaks calls last rest crashed split commands outcome answered =>
    refine .breaks calls last (rest ++ commandsTo role [x]) crashed split ?_ outcome answered
    rw [hall, commands, List.append_assoc]

/-- Every exchange takes an actor further in its course. -/
theorem Course.step (h : Course role steps queue results a)
    (hx : Exchange attached (commandsTo role [x]) a queue b left new)
    (hgone : attached = false → .detach ∈ steps) :
    Course role (steps ++ [x]) left (results ++ new) b := by
  by_cases running : a.phase = .running
  swap
  · obtain ⟨rfl, reports, rfl⟩ := hx.of_done running
    rw [List.append_nil]
    exact h.of_done running reports
  have hall := commandsTo_append role steps [x]
  generalize commandsTo role [x] = told at hx hall
  cases h with
  | waits _ free commands answered =>
    cases hx with
    | hears reports =>
      refine .waits running free ?_ (by rwa [List.append_nil])
      rw [hall, commands, List.append_assoc]
    | begins i rest silent _ _ next =>
      refine .works a.calls i running rfl rfl ?_ (by rwa [List.append_nil])
      rw [hall, commands, silent, next]
      simp [Actor.begin]
    | exits rest left reports log silent _ _ next =>
      refine .exits rest rfl ?_ (by rwa [List.append_nil])
      rw [hall, commands, silent, next, List.append_nil]
    | disconnects left reports log silent _ _ empty gone =>
      refine .disconnects steps [x] rfl rfl (hgone gone) ?_ (by rwa [List.append_nil])
      rw [commands, empty, List.append_nil]
    | breaks i left silent _ task => cases free.symm.trans task
    | sends i o stats reports silent _ task => cases free.symm.trans task
    | fails i o left stats reports log silent _ task => cases free.symm.trans task
    | rests left reports done => exact absurd running done
  | works calls i _ task split commands answered =>
    have hsame {j : Instruction μ} (htask : a.task = some j) : i = j :=
      Option.some.inj (task.symm.trans htask)
    cases hx with
    | hears reports =>
      refine .works calls i running task split ?_ (by rwa [List.append_nil])
      rw [hall, commands, List.append_assoc]
    | begins j rest silent _ free => cases free.symm.trans task
    | exits rest left reports log silent _ free => cases free.symm.trans task
    | disconnects left reports log silent _ free => cases free.symm.trans task
    | breaks j left silent _ _ behaviour =>
      refine .breaks calls i queue rfl split ?_ behaviour (by rwa [List.append_nil])
      rw [hall, commands, silent, List.append_nil]
    | sends j o stats reports silent _ htask behaviour there =>
      obtain rfl := hsame htask
      refine .waits running rfl ?_ ?_
      · rw [hall, commands, silent, List.append_nil]
      · rw [split] at behaviour ⊢
        exact answered.concat behaviour
    | fails j o left stats reports log silent _ _ behaviour gone =>
      refine .fails calls i o queue rfl (List.mem_append_left _ (hgone gone)) split ?_ behaviour
        (by rwa [List.append_nil])
      rw [hall, commands, silent, List.append_nil]
    | rests left reports done => exact absurd running done
  | exits rest stopped => cases stopped.symm.trans running
  | disconnects before after stopped => cases stopped.symm.trans running
  | fails calls unsent o rest stopped => cases stopped.symm.trans running
  | breaks calls last rest crashed => cases crashed.symm.trans running

/-- An exit that a running actor was sent is still in its queue. -/
lemma Course.exit_mem (h : Course role steps queue results a) (running : a.phase = .running)
    (hexit : .exit ∈ commandsTo role steps) : .exit ∈ queue := by
  have hcalls : Command.exit ∉ a.calls.map .rollout := by
    intro hmem
    obtain ⟨i, -, hi⟩ := List.mem_map.mp hmem
    cases hi
  cases h with
  | waits _ _ commands =>
    rw [commands] at hexit
    exact (List.mem_append.mp hexit).resolve_left hcalls
  | works calls i _ _ _ commands =>
    rw [commands] at hexit
    exact (List.mem_append.mp hexit).resolve_left hcalls
  | exits rest stopped => cases stopped.symm.trans running
  | disconnects before after stopped => cases stopped.symm.trans running
  | fails calls unsent o rest stopped => cases stopped.symm.trans running
  | breaks calls last rest crashed => cases crashed.symm.trans running

end

variable {p : Pool μ ε} {behaviour : PeerId → Behaviour μ ε} {i : Nat} {a : Actor μ ε}
  {e : Endpoint μ}

/-- Throughout a session an actor keeps to its course. -/
lemma InOrder.course_run (hp : p.InOrder behaviour) (hattached : p.network.attached = true)
    (hids : (p.network.endpoints.map Endpoint.id).Nodup)
    (ha : p.actors[i]? = some a) (he : p.network.endpoints[i]? = some e)
    (hstart : Course e.role [] (e.commands.map Envelope.body) [] a) (steps : List (Step μ)) :
    ∃ b e' results, (p.run steps).actors[i]? = some b ∧
      (p.run steps).network.endpoints[i]? = some e' ∧ b.peer = a.peer ∧
      (p.posted steps).filter (fun r => r.source = e.id) = results.map (Result.envelope e.id) ∧
      Course e.role steps (e'.commands.map Envelope.body) results b := by
  induction steps using List.reverseRecOn with
  | nil => exact ⟨a, e, [], ha, he, rfl, rfl, hstart⟩
  | append_singleton steps x ih =>
    obtain ⟨b, e', results, hb, he', hpeer, hposted, hcourse⟩ := ih
    obtain ⟨hid, hrole, c, e'', new, hc, he'', hposts, hx⟩ :=
      hp.exchanges_run hids he hb he' x
    rw [hid] at hposts
    rw [hrole] at hx
    rw [run_concat, posted_concat]
    refine ⟨c, e'', results ++ new, hc, he'', hx.peer_eq.trans hpeer, ?_, ?_⟩
    · rw [List.filter_append, hposted, hposts, List.map_append]
    · exact hcourse.step hx (run_attached hattached steps).mp

/-- In every session, each actor is called with the instructions broadcast to its role, in order and
once each: those before the first exit, or all of them if the coordinator goes away without one, or
those up to the first whose result cannot be sent. It posts the results of its calls, in order and
one each, except for the one that cannot be sent; what comes after an exit is not handled. At its
stop its statistics count all its calls. And once an exit was broadcast to its role, or the
coordinator is gone, its own turns bring it to its end. -/
theorem course_of_run (config : ActorConfig) (node : PeerId) (groups : List (String × Nat))
    (behaviour : PeerId → Behaviour μ ε) :
    let n : ChannelNetwork μ ε := .build node groups
    let p := (spawn config n behaviour).1
    ∀ i e, n.endpoints[i]? = some e →
      (∀ steps, ∃ a e' results, (p.run steps).actors[i]? = some a ∧
        (p.run steps).network.endpoints[i]? = some e' ∧
        a.peer = e.id ∧ a.behaviour = behaviour e.id ∧
        (p.posted steps).filter (fun r => r.source = e.id) = results.map (Result.envelope e.id) ∧
        Course e.role steps (e'.commands.map Envelope.body) results a ∧
        (a.phase = .stopped →
          let outcomes := a.behaviour.outcomes a.calls
          outcomes.length = a.calls.length ∧
            (a.calls.length < 2 ^ 64 → a.stats.rollouts = a.calls.length ∧
              a.stats.episodes = outcomes.countP Outcome.isEpisode) ∧
            a.stats.steps = min Counter.top (outcomes.map Outcome.numSteps).sum ∧
            a.stats.experiences = min Counter.top (outcomes.map Outcome.numExperiences).sum)) ∧
      ∀ steps, .exit ∈ commandsTo e.role steps ∨ .detach ∈ steps →
        ∃ more, (∀ x ∈ more, x = .complete i ∨ x = .take i) ∧
          ∀ a, (p.run (steps ++ more)).actors[i]? = some a → a.phase ≠ .running := by
  intro n p i e he
  have hp : p.InOrder behaviour := inOrder_spawn config node groups behaviour
  have ha : p.actors[i]? = some (Actor.start e.id (behaviour e.id)) := by
    change (n.endpoints.map _)[i]? = _
    rw [List.getElem?_map, he, Option.map_some]
  have hcommands : e.commands = [] := by
    obtain ⟨g, -, k, rfl⟩ := ChannelNetwork.mem_build (List.mem_of_getElem? he)
    rfl
  have hstart : Course e.role [] (e.commands.map Envelope.body) []
      (Actor.start e.id (behaviour e.id) : Actor μ ε) :=
    .waits rfl rfl (by rw [hcommands]; rfl) (behaviour e.id).answered_nil
  have hrun := hp.course_run rfl (ChannelNetwork.nodup_build_id node groups) ha he hstart
  refine ⟨fun steps => ?_, fun steps hleaves => ?_⟩
  · obtain ⟨a, e', results, hactor, hendpoint, hpeer, hposted, hcourse⟩ := hrun steps
    obtain ⟨hrecorded, hbehaviour⟩ := (hp.run steps).recorded a (List.mem_of_getElem? hactor)
    rw [hpeer] at hbehaviour
    exact ⟨a, e', results, hactor, hendpoint, hpeer, hbehaviour, hposted, hcourse,
      hrecorded.counters_of_stopped⟩
  · obtain ⟨a, e', results, hactor, hendpoint, -, -, hcourse⟩ := hrun steps
    have hleaving : (p.run steps).Leaving i := by
      by_cases running : a.phase = .running
      · rcases hleaves with hexit | hdetach
        · obtain ⟨c, hc, hbody⟩ := List.mem_map.mp (hcourse.exit_mem running hexit)
          exact .inr (.inr ⟨e', hendpoint, c, hc, hbody⟩)
        · exact .inr (.inl ((run_attached rfl steps).mpr hdetach))
      · exact .inl (Done.of_stopped hactor running)
    have hdone := hleaving.done_of_work (hp.run steps) (Nat.lt_succ_self _)
    refine ⟨turns i ((p.run steps).queued i + 1), ?_, ?_⟩
    · intro x hx
      obtain ⟨turn, hturn, hx⟩ := List.mem_flatten.mp hx
      rw [List.eq_of_mem_replicate hturn] at hx
      exact List.mem_pair.mp hx
    · rwa [run_append, ← work_eq_run]

/-- The coordinator goes away while the actor works on its second instruction. -/
def interruptedSteps : List (Step Unit) :=
  [.broadcast "actor" (.rollout fourSteps), .take 0, .complete 0,
    .broadcast "actor" (.rollout fourSteps), .take 0, .detach, .complete 0]

/-- An instruction is broadcast after an exit. -/
def dismissedSteps : List (Step Unit) :=
  [.broadcast "actor" (.rollout fourSteps), .broadcast "actor" .exit,
    .broadcast "actor" (.rollout fourSteps), .take 0, .complete 0, .take 0, .take 0]

/-- The second result of the first session cannot be sent, but its call is counted. In the second
session the instruction after the exit is not handled. -/
theorem course_of_brokenSessions :
    (∃ (a : Actor Unit Unit) (results : List (Result Unit)),
      (crampedPool.run interruptedSteps).actors[0]? = some a ∧
      Course "actor" interruptedSteps [] results a ∧ results.length = 1 ∧ a.calls.length = 2 ∧
      a.stats.rollouts = 2 ∧ a.stats.steps = 8) ∧
    ∃ (a : Actor Unit Unit) (results : List (Result Unit)),
      (crampedPool.run dismissedSteps).actors[0]? = some a ∧
      Course "actor" dismissedSteps [] results a ∧ results.length = 1 ∧ a.calls.length = 1 ∧
      a.stats.rollouts = 1 ∧ a.stats.steps = 4 := by
  obtain ⟨hcourse, -⟩ := course_of_run ⟨1, 1⟩ "learner" [("actor", 1)] diligent 0 _ rfl
  refine ⟨?_, ?_⟩
  · obtain ⟨a, e, results, ha, he, -, -, hposted, hran, hcounters⟩ := hcourse interruptedSteps
    obtain rfl := Option.some.inj (ha.symm.trans rfl)
    obtain rfl := Option.some.inj (he.symm.trans rfl)
    have hlength := congrArg List.length hposted
    rw [List.length_map] at hlength
    obtain ⟨-, hfew, hsteps, -⟩ := hcounters rfl
    exact ⟨_, results, ha, hran, hlength.symm, rfl, (hfew (by decide)).1, hsteps⟩
  · obtain ⟨a, e, results, ha, he, -, -, hposted, hran, hcounters⟩ := hcourse dismissedSteps
    obtain rfl := Option.some.inj (ha.symm.trans rfl)
    obtain rfl := Option.some.inj (he.symm.trans rfl)
    have hlength := congrArg List.length hposted
    rw [List.length_map] at hlength
    obtain ⟨-, hfew, hsteps, -⟩ := hcounters rfl
    exact ⟨_, results, ha, hran, hlength.symm, rfl, (hfew (by decide)).1, hsteps⟩

end Pool

end ExperienceCollection
