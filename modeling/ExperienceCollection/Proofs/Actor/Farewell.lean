import ExperienceCollection.Proofs.Actor.Session
import Mathlib.Data.List.Induction

/-!
# Farewells

What is left of the actors of a session when it is over. Once an actor is told to exit, or the
coordinator is gone, a turn brings it to its end or nearer to it, so waiting for it comes to an end.
An actor that stops leaves the statistics of all its calls, if its reports were read often enough to
leave room for them.
-/

namespace ExperienceCollection.Pool

variable {μ ε : Type} {p q : Pool μ ε} {i : Nat} {behaviour : PeerId → Behaviour μ ε}

/-- The actor at a position is running, and a step stops it. -/
structure Ends (p : Pool μ ε) (i : Nat) (before : List (Step μ)) (x : Step μ)
    (a b : Actor μ ε) : Prop where
  actor : (p.run before).actors[i]? = some a
  running : a.phase = .running
  after : (p.run (before ++ [x])).actors[i]? = some b
  stopped : b.phase = .stopped

lemma Ends.turn {before : List (Step μ)} {x : Step μ} {a b : Actor μ ε}
    (h : p.Ends i before x a b) : Actor.Turn p.config a (x.reads i) b := by
  obtain ⟨b', hb', hturn⟩ := step_turn h.actor x
  have hafter := h.after
  rw [run_concat] at hafter
  obtain rfl := Option.some.inj (hb'.symm.trans hafter)
  rwa [run_config] at hturn

/-- An actor that has stopped was stopped by one of the steps. -/
lemma exists_ends (hp : p.InOrder behaviour) {a b : Actor μ ε} (ha : p.actors[i]? = some a)
    (running : a.phase = .running) {steps : List (Step μ)}
    (hb : (p.run steps).actors[i]? = some b) (stopped : b.phase = .stopped) :
    ∃ before x after a b, steps = before ++ x :: after ∧ p.Ends i before x a b := by
  induction steps using List.reverseRecOn generalizing b with
  | nil =>
    obtain rfl := Option.some.inj (ha.symm.trans hb)
    exact absurd (running.symm.trans stopped) (by simp)
  | append_singleton steps x ih =>
    have hlt : i < (p.run steps).actors.length := by
      rw [run_length]
      exact (List.getElem?_eq_some_iff.mp ha).1
    have hc := List.getElem?_eq_getElem hlt
    by_cases hrunning : (p.run steps).actors[i].phase = .running
    · exact ⟨steps, x, [], _, b, rfl, hc, hrunning, hb, stopped⟩
    · -- An actor that was done before the last step has not been stopped by it.
      obtain ⟨b', hb', hturn⟩ := step_turn hc x
      have hrecorded := ((hp.run steps).recorded _ (List.getElem_mem hlt)).1
      have hphase := hturn.phase_eq_of_done hrecorded hrunning
      rw [run_concat] at hb
      obtain rfl := Option.some.inj (hb'.symm.trans hb)
      obtain ⟨before, y, after, a', b, hsteps, hends⟩ := ih hc (hphase.symm.trans stopped)
      exact ⟨before, y, after ++ [x], a', b, by rw [hsteps]; simp, hends⟩

def Done (p : Pool μ ε) (i : Nat) : Prop := ∀ a, p.actors[i]? = some a → a.phase ≠ .running

/-- The actor at a position is done, or will be: the coordinator is gone or an exit is queued. -/
def Leaving (p : Pool μ ε) (i : Nat) : Prop :=
  p.Done i ∨ p.network.attached = false ∨
    ∃ e, p.network.endpoints[i]? = some e ∧ ∃ c ∈ e.commands, c.body = .exit

/-- How many commands are waiting for the actor at a position. -/
def queued (p : Pool μ ε) (i : Nat) : Nat :=
  (((p.network.endpoint? i).map Endpoint.commands).getD []).length

lemma Done.of_stopped {b : Actor μ ε} (hb : q.actors[i]? = some b) (h : b.phase ≠ .running) :
    q.Done i := by
  intro c hc
  obtain rfl := Option.some.inj (hb.symm.trans hc)
  exact h

lemma Done.run (h : p.Done i) (hp : p.InOrder behaviour) (steps : List (Step μ)) :
    (p.run steps).Done i := by
  induction steps generalizing p with
  | nil => exact h
  | cons x steps ih =>
    apply ih _ (hp.step x)
    intro b hb
    obtain ⟨hlt, -⟩ := List.getElem?_eq_some_iff.mp hb
    rw [step_length] at hlt
    have ha := List.getElem?_eq_getElem hlt
    obtain ⟨b', hb', hturn⟩ := step_turn ha x
    obtain rfl := Option.some.inj (hb'.symm.trans hb)
    rw [hturn.phase_eq_of_done (hp.recorded _ (List.getElem_mem hlt)).1 (h _ ha)]
    exact h _ ha

lemma queued_of_alive {e : Endpoint μ} (he : p.network.endpoints[i]? = some e)
    (halive : e.alive = true) : p.queued i = e.commands.length := by
  have hthere : p.network.endpoint? i = some e := Wiring.endpoint?_eq_some.mpr ⟨he, halive⟩
  rw [queued, hthere]
  rfl

/-- Whatever becomes of one actor, the others go on leaving. -/
lemma Leaving.store (h : p.Leaving i) {j : Nat} {a b : Actor μ ε} {n : ChannelNetwork μ ε}
    (actor : p.actors[j]? = some a) (running : b.phase = .running → a.phase = .running)
    (attached : n.attached = p.network.attached)
    (queue : ∀ e, p.network.endpoints[i]? = some e → (∃ c ∈ e.commands, c.body = .exit) →
      (i = j → b.phase = .running) →
        ∃ e', n.endpoints[i]? = some e' ∧ ∃ c ∈ e'.commands, c.body = .exit) :
    (p.store j b n).Leaving i := by
  obtain ⟨hj, -⟩ := List.getElem?_eq_some_iff.mp actor
  by_cases hij : i = j
  · subst hij
    by_cases hb : b.phase = .running
    · rcases h with hdone | hdetached | ⟨e, he, hexit⟩
      · exact absurd (running hb) (hdone a actor)
      · refine .inr (.inl ?_)
        rw [Pool.store, if_pos hb, attached]
        exact hdetached
      · refine .inr (.inr ?_)
        rw [Pool.store, if_pos hb]
        exact queue e he hexit fun _ => hb
    · exact .inl (Done.of_stopped (List.getElem?_set_self hj) hb)
  · rcases h with hdone | hdetached | ⟨e, he, hexit⟩
    · refine .inl ?_
      rw [Done, Pool.store, List.getElem?_set_ne (Ne.symm hij)]
      exact hdone
    · refine .inr (.inl ?_)
      rw [Pool.store, ← hdetached, ← attached]
      split <;> rfl
    · obtain ⟨e', he', hexit'⟩ := queue e he hexit fun heq => absurd heq hij
      refine .inr (.inr ⟨e', ?_, hexit'⟩)
      rw [Pool.store]
      dsimp only
      split
      · exact he'
      · rw [n.dropEndpoint_getElem?_ne hij]
        exact he'

lemma Leaving.take (h : p.Leaving i) (j : Nat) : (p.take j).Leaving i := by
  have hattached := p.network.takeCommand_attached j
  have hstop (a : Actor μ ε) (actor : p.actors[j]? = some a) (running : a.phase = .running)
      (reason : Log.Event) :
      (p.store j (a.stop p.config reason) (p.network.takeCommand j).2).Leaving i := by
    refine h.store actor (fun _ => running) hattached ?_
    intro e he hexit hstays
    have hij : i ≠ j := by
      intro hij
      have hphase := (Actor.stop_phase p.config a reason).symm.trans (hstays hij)
      cases hphase
    rw [ChannelNetwork.takeCommand_endpoints_ne _ hij]
    exact ⟨e, he, hexit⟩
  have htakes := p.take_takes j
  generalize p.take j = q at htakes ⊢
  cases htakes with
  | idle => exact h
  | disconnected a actor running => exact hstop a actor running _
  | exit a c actor running => exact hstop a actor running _
  | begins a c instruction actor running free order body =>
    refine h.store actor (fun _ => running) hattached ?_
    intro e he hexit _
    by_cases hij : i = j
    · subst hij
      obtain ⟨e', rest, he', hcommands, hn⟩ := ChannelNetwork.takeCommand_eq_command order
      obtain rfl := Option.some.inj (he'.symm.trans he)
      obtain ⟨c', hc', hbody⟩ := hexit
      rw [hcommands] at hc'
      rw [hn]
      refine ⟨_, ChannelNetwork.setQueue_getElem? he rest, c', ?_, hbody⟩
      -- The command that is taken is an instruction, so the exit is behind it.
      rcases List.mem_cons.mp hc' with rfl | hc'
      · rw [body] at hbody
        cases hbody
      · exact hc'
    · rw [ChannelNetwork.takeCommand_endpoints_ne _ hij]
      exact ⟨e, he, hexit⟩

lemma Leaving.complete (h : p.Leaving i) (hp : p.InOrder behaviour) (j : Nat) :
    (p.complete j).Leaving i := by
  have hcompletes := p.complete_completes j
  generalize p.complete j = q at hcompletes ⊢
  cases hcompletes with
  | idle => exact h
  | crashes a instruction actor => exact h.store actor nofun rfl fun e he hexit _ => ⟨e, he, hexit⟩
  | sends a instruction o actor task =>
    obtain ⟨inbox, hn⟩ := p.network.send_network j (o.result instruction)
    have hrunning := ((hp.recorded a (List.mem_of_getElem? actor)).1.busy (by rw [task]; rfl)).1
    rw [hn]
    exact h.store actor (fun _ => hrunning) rfl fun e he hexit _ => ⟨e, he, hexit⟩

/-- A free actor that is leaving ends, or takes a command off its queue. -/
lemma Leaving.take_of_free (h : p.Leaving i) (hp : p.InOrder behaviour)
    (hfree : p.task? i = none) : (p.take i).Done i ∨ (p.take i).queued i < p.queued i := by
  have hstop (a : Actor μ ε) (actor : p.actors[i]? = some a) (reason : Log.Event) :
      (p.store i (a.stop p.config reason) (p.network.takeCommand i).2).Done i := by
    obtain ⟨hi, -⟩ := List.getElem?_eq_some_iff.mp actor
    apply Done.of_stopped (List.getElem?_set_self hi)
    rw [Actor.stop_phase]
    exact nofun
  have htakes := p.take_takes i
  generalize p.take i = q at htakes ⊢
  cases htakes with
  | idle waits =>
    refine .inl ?_
    intro a ha running
    have hwaiting := waits a ha running (by simpa [task?, ha] using hfree)
    rcases h with hdone | hdetached | ⟨e, he, c, hc, -⟩
    · exact hdone a ha running
    · rcases p.network.takeCommand_cases i with hn | ⟨e, c, rest, -, -, -, hn⟩
      · rw [hn, hdetached] at hwaiting
        cases hwaiting
      · rw [hn] at hwaiting
        cases hwaiting
    · have halive := (hp.alive_iff ha he).mpr running
      obtain ⟨first, rest, hcommands⟩ := List.exists_cons_of_ne_nil (List.ne_nil_of_mem hc)
      rw [ChannelNetwork.takeCommand_of_cons he halive hcommands] at hwaiting
      cases hwaiting
  | disconnected a actor => exact .inl (hstop a actor _)
  | exit a c actor => exact .inl (hstop a actor _)
  | begins a c instruction actor running free order =>
    obtain ⟨e, rest, he, hcommands, hn⟩ := ChannelNetwork.takeCommand_eq_command order
    have halive := (hp.alive_iff actor he).mpr running
    have hbegun : (a.begin instruction).phase = .running := running
    refine .inr ?_
    have hrest := ChannelNetwork.setQueue_getElem? he rest
    rw [queued_of_alive he halive, hcommands, Pool.store, if_pos hbegun, hn,
      queued_of_alive (e := { e with commands := rest }) hrest halive]
    exact Nat.lt_succ_self _

/-- An actor that is leaving ends with its turn, or there is less for it to do. -/
lemma Leaving.turn (h : p.Leaving i) (hp : p.InOrder behaviour) :
    ((p.complete i).take i).Done i ∨ ((p.complete i).take i).queued i < p.queued i := by
  have hfree : (p.complete i).Done i ∨
      (p.complete i).task? i = none ∧ (p.complete i).queued i = p.queued i := by
    have hcompletes := p.complete_completes i
    generalize p.complete i = q at hcompletes ⊢
    cases hcompletes with
    | idle waits => exact .inr ⟨waits, rfl⟩
    | crashes a instruction actor =>
      obtain ⟨hi, -⟩ := List.getElem?_eq_some_iff.mp actor
      exact .inl (Done.of_stopped (List.getElem?_set_self hi) nofun)
    | sends a instruction o actor =>
      obtain ⟨hi, -⟩ := List.getElem?_eq_some_iff.mp actor
      obtain ⟨inbox, hn⟩ := p.network.send_network i (o.result instruction)
      rw [hn]
      by_cases running : (({ a with task := none }.count o).sent p.config
          (p.network.send i (o.result instruction)).1).phase = .running
      · rw [Pool.store, if_pos running]
        refine .inr ⟨?_, rfl⟩
        rw [task?, List.getElem?_set_self hi, Option.bind_some, Actor.sent_task, Actor.count_task]
      · exact .inl (Done.of_stopped (List.getElem?_set_self hi) running)
  rcases hfree with hdone | ⟨hnone, hqueued⟩
  · exact .inl (hdone.run (hp.step (.complete i)) [.take i])
  · rw [← hqueued]
    exact (h.complete hp i).take_of_free (hp.step (.complete i)) hnone

def turns (i n : Nat) : List (Step μ) := (List.replicate n [.complete i, .take i]).flatten

lemma work_eq_run (i n : Nat) (p : Pool μ ε) : work i n p = p.run (turns i n) := by
  induction n generalizing p with
  | zero => rfl
  | succ n ih => exact ih _

lemma Leaving.work (h : p.Leaving i) (hp : p.InOrder behaviour) (j n : Nat) :
    (work j n p).Leaving i := by
  induction n generalizing p with
  | zero => exact h
  | succ n ih => exact ih ((h.complete hp j).take j) (hp.run [.complete j, .take j])

lemma Leaving.done_of_work (h : p.Leaving i) (hp : p.InOrder behaviour) {n : Nat}
    (hn : p.queued i < n) : (Pool.work i n p).Done i := by
  -- Every turn ends the actor or shortens its queue, so more turns than commands are enough.
  induction n generalizing p with
  | zero => exact absurd hn (Nat.not_lt_zero _)
  | succ n ih =>
    have hturn := hp.run [.complete i, .take i]
    rcases h.turn hp with hdone | hless
    · rw [Pool.work, work_eq_run]
      exact hdone.run hturn _
    · exact ih ((h.complete hp i).take i) hturn (by omega)

/-- A pool is reached by steps of which none reads a report. -/
def Reaches (p q : Pool μ ε) : Prop :=
  ∃ steps : List (Step μ), (∀ x ∈ steps, ∀ i, x.reads i = false) ∧ q = p.run steps

lemma Reaches.trans {r : Pool μ ε} (h : p.Reaches q) (h' : q.Reaches r) : p.Reaches r := by
  obtain ⟨steps, hreads, rfl⟩ := h
  obtain ⟨more, hmore, rfl⟩ := h'
  refine ⟨steps ++ more, ?_, (p.run_append steps more).symm⟩
  intro x hx
  exact (List.mem_append.mp hx).elim (hreads x) (hmore x)

lemma reaches_work (i n : Nat) (p : Pool μ ε) : p.Reaches (work i n p) := by
  refine ⟨turns i n, ?_, work_eq_run i n p⟩
  intro x hx j
  obtain ⟨turn, hturn, hx⟩ := List.mem_flatten.mp hx
  rw [List.eq_of_mem_replicate hturn] at hx
  rcases List.mem_pair.mp hx with rfl | rfl
  · rfl
  · rfl

lemma InOrder.reaches (h : p.InOrder behaviour) (hq : p.Reaches q) : q.InOrder behaviour := by
  obtain ⟨steps, -, rfl⟩ := hq
  exact h.run steps

lemma Done.isDone (h : p.Done i) : p.isDone i = true := by
  unfold Pool.isDone
  cases ha : p.actors[i]? with
  | none => rfl
  | some a => simpa using h a ha

/-- Who waits for an actor that is leaving waits until it is done. -/
lemma Leaving.await (h : p.Leaving i) (hp : p.InOrder behaviour) :
    ∃ q, p.await i = some q ∧ (∃ n, q = Pool.work i n p) ∧ q.Done i := by
  have hdone := h.done_of_work hp (Nat.lt_succ_self _)
  exact ⟨_, if_pos hdone.isDone, ⟨_, rfl⟩, hdone⟩

/-- Actors that are leaving come to their end one after another. -/
lemma foldlM_await (hp : p.InOrder behaviour) {l : List Nat} (h : ∀ i ∈ l, p.Leaving i) :
    ∃ q, l.foldlM Pool.await p = some q ∧ p.Reaches q ∧ ∀ i ∈ l, q.Done i := by
  induction l generalizing p with
  | nil => exact ⟨p, rfl, ⟨[], nofun, rfl⟩, nofun⟩
  | cons j l ih =>
    obtain ⟨r, hr, ⟨n, hn⟩, hdone⟩ := (h j List.mem_cons_self).await hp
    have hreaches : p.Reaches r := hn ▸ reaches_work j n p
    have horder := hp.reaches hreaches
    have hleaving : ∀ i ∈ l, r.Leaving i := by
      intro i hi
      rw [hn]
      exact (h i (List.mem_cons_of_mem j hi)).work hp j n
    obtain ⟨q, hq, hrest, hall⟩ := ih horder hleaving
    refine ⟨q, ?_, hreaches.trans hrest, ?_⟩
    · rw [List.foldlM_cons, hr]
      exact hq
    · intro i hi
      rcases List.mem_cons.mp hi with rfl | hi
      · obtain ⟨steps, -, rfl⟩ := hrest
        exact hdone.run horder steps
      · exact hall i hi

/-- An actor that is told to exit, or gone, is leaving. -/
lemma InOrder.leaving_of_isDismissed (hp : p.InOrder behaviour) (h : p.isDismissed i = true) :
    p.Leaving i := by
  unfold isDismissed at h
  split at h
  · rename_i hgone
    refine .inl ?_
    intro a ha running
    obtain ⟨e, he⟩ := hp.exists_endpoint ha
    have hthere : p.network.endpoint? i = some e :=
      Wiring.endpoint?_eq_some.mpr ⟨he, (hp.alive_iff ha he).mpr running⟩
    rw [hgone] at hthere
    cases hthere
  · rename_i e hthere
    obtain ⟨he, -⟩ := Wiring.endpoint?_eq_some.mp hthere
    obtain ⟨c, hc, htag⟩ := List.any_eq_true.mp h
    refine .inr (.inr ⟨e, he, c, hc, ?_⟩)
    rw [decide_eq_true_eq, hp.tagged e (List.mem_of_getElem? he) c hc] at htag
    cases hbody : c.body with
    | rollout instruction =>
      rw [hbody] at htag
      cases htag
    | exit => rfl

/-- The session is over for the actor at a position: it was told to exit, or the coordinator is
gone. -/
def Over (p : Pool μ ε) (i : Nat) : Prop := p.isDismissed i = true ∨ p.network.attached = false

lemma InOrder.leaving_of_over (hp : p.InOrder behaviour) (h : p.Over i) : p.Leaving i :=
  h.elim hp.leaving_of_isDismissed fun hdetached => .inr (.inl hdetached)

/-- The actor at a position was stopped by one of the steps, unless its behaviour broke down. -/
def Departs (behaviour : PeerId → Behaviour μ ε) (p : Pool μ ε) (steps : List (Step μ)) (i : Nat) :
    Prop :=
  (∃ b, (p.run steps).actors[i]? = some b ∧ b.farewell = .crashed ∧
    behaviour b.peer b.calls = none) ∨
  ∃ before x after a b, steps = before ++ x :: after ∧ p.Ends i before x a b

lemma InOrder.departs_of_done (hp : p.InOrder behaviour)
    (running : ∀ a ∈ p.actors, a.phase = .running) {steps : List (Step μ)} (hi : i < p.size)
    (hdone : (p.run steps).Done i) : Departs behaviour p steps i := by
  have hfirst : i < p.actors.length := hi
  have hlt : i < (p.run steps).actors.length := by
    rw [run_length]
    exact hi
  have hlast := List.getElem?_eq_getElem hlt
  obtain ⟨hb, hbehaviour⟩ := (hp.run steps).recorded _ (List.getElem_mem hlt)
  cases hphase : (p.run steps).actors[i].phase with
  | running => exact absurd hphase (hdone _ hlast)
  | stopped =>
    have hrunning := running _ (List.getElem_mem hfirst)
    exact .inr (exists_ends hp (List.getElem?_eq_getElem hfirst) hrunning hlast hphase)
  | crashed =>
    refine .inl ⟨_, hlast, if_pos hphase, ?_⟩
    rw [← hbehaviour]
    exact hb.crashed hphase

/-- What an actor leaves is settled when it stops, and stays until its reports are read. -/
theorem InOrder.farewell_of_ends (hp : p.InOrder behaviour) {before after : List (Step μ)}
    {x : Step μ} {a b : Actor μ ε} (hends : p.Ends i before x a b)
    (hafter : ∀ y ∈ after, y.reads i = false) :
    let final := Stats.ofCalls b.peer (behaviour b.peer) b.calls
    final.rollouts = min Counter.top b.calls.length ∧
      ∃ s, (p.run (before ++ x :: after)).farewells[i]? = some (.report (some s)) ∧
        (a.reports.length < max p.config.statsCapacity 1 → s = final) ∧
        (max p.config.statsCapacity 1 ≤ a.reports.length →
          a.reports.getLast? = some s ∧
            Actor.Periodic p.config b.peer (behaviour b.peer) b.calls s) := by
  have hturn := hends.turn
  have ha := ((hp.run before).recorded a (List.mem_of_getElem? hends.actor)).1
  rw [run_config] at ha
  have horder := hp.run (before ++ [x])
  obtain ⟨hb, hbehaviour⟩ := horder.recorded b (List.mem_of_getElem? hends.after)
  obtain ⟨-, hserved, -⟩ := hturn.reports_of_stops hends.running hends.stopped
  obtain ⟨s, hs, hroom, hfull⟩ := hturn.farewell_of_stops ha hends.running hends.stopped
  rw [hbehaviour] at hroom hfull
  refine ⟨?_, s, ?_, hroom, hfull⟩
  · have hserves := hb.outcomes
    rw [hserved, hbehaviour] at hserves
    rw [Stats.ofCalls_rollouts, hserves]
  · have hdone : b.phase ≠ .running := by
      rw [hends.stopped]
      exact nofun
    have hlast := horder.run_of_done hends.after hdone hafter
    have hsplit : before ++ x :: after = before ++ [x] ++ after := by simp
    rw [← run_append, ← hsplit] at hlast
    rw [farewells, List.getElem?_map, hlast, Option.map_some, hs]

/-- An actor for which the session is over can be waited for. -/
theorem InOrder.departs_of_await (hp : p.InOrder behaviour)
    (running : ∀ a ∈ p.actors, a.phase = .running) {steps : List (Step μ)} (hi : i < p.size)
    (h : (p.run steps).Over i) :
    ∃ more, (∀ x ∈ more, ∀ j, x.reads j = false) ∧
      (p.run steps).await i = some (p.run (steps ++ more)) ∧
      Departs behaviour p (steps ++ more) i := by
  have horder := hp.run steps
  obtain ⟨q, hq, ⟨n, hn⟩, hdone⟩ := (horder.leaving_of_over h).await horder
  obtain ⟨more, hreads, hmore⟩ : (p.run steps).Reaches q := hn ▸ reaches_work i n _
  rw [← run_append] at hmore
  rw [hmore] at hq hdone
  exact ⟨more, hreads, hq, hp.departs_of_done running hi hdone⟩

/-- When the session is over for all actors, joining them returns. -/
theorem InOrder.departs_of_join (hp : p.InOrder behaviour)
    (running : ∀ a ∈ p.actors, a.phase = .running) {steps : List (Step μ)}
    (h : ∀ i, i < p.size → (p.run steps).Over i) :
    ∃ more, (∀ x ∈ more, ∀ j, x.reads j = false) ∧
      (p.run steps).join = some (p.run (steps ++ more)) ∧
      ∀ i, i < p.size → Departs behaviour p (steps ++ more) i := by
  have horder := hp.run steps
  have hsize : (p.run steps).size = p.size := p.run_length steps
  have hleaving : ∀ i ∈ List.range (p.run steps).size, (p.run steps).Leaving i := by
    intro i hi
    rw [hsize, List.mem_range] at hi
    exact horder.leaving_of_over (h i hi)
  obtain ⟨q, hq, ⟨more, hreads, hmore⟩, hdone⟩ := foldlM_await horder hleaving
  rw [← run_append] at hmore
  rw [hmore] at hq hdone
  refine ⟨more, hreads, hq, fun i hi => hp.departs_of_done running hi (hdone i ?_)⟩
  rw [hsize]
  exact List.mem_range.mpr hi

/-- An actor that stops leaves a report. When fewer reports than the file holds are unread at that
time, it is the statistics of all calls of the actor; when the file is full, it is the last report
in it, which was due after some of the calls. An actor that was told to exit, or has lost its
coordinator, can be waited for and has then ended in this way, unless its behaviour broke down; and
when this holds of all actors, they can be joined. -/
theorem farewells_of_run (config : ActorConfig) (node : PeerId) (groups : List (String × Nat))
    (behaviour : PeerId → Behaviour μ ε) :
    let p := (spawn config (ChannelNetwork.build node groups) behaviour).1
    (∀ i before x after a b, p.Ends i before x a b → (∀ y ∈ after, y.reads i = false) →
      let final := Stats.ofCalls b.peer (behaviour b.peer) b.calls
      final.rollouts = min Counter.top b.calls.length ∧
        ∃ s, (p.run (before ++ x :: after)).farewells[i]? = some (.report (some s)) ∧
          (a.reports.length < max config.statsCapacity 1 → s = final) ∧
          (max config.statsCapacity 1 ≤ a.reports.length →
            a.reports.getLast? = some s ∧
              Actor.Periodic config b.peer (behaviour b.peer) b.calls s)) ∧
      (∀ steps i, i < p.size → (p.run steps).Over i →
        ∃ more, (∀ x ∈ more, ∀ j, x.reads j = false) ∧
          (p.run steps).await i = some (p.run (steps ++ more)) ∧
          Departs behaviour p (steps ++ more) i) ∧
      ∀ steps, (∀ i, i < p.size → (p.run steps).Over i) →
        ∃ more, (∀ x ∈ more, ∀ j, x.reads j = false) ∧
          (p.run steps).join = some (p.run (steps ++ more)) ∧
          ∀ i, i < p.size → Departs behaviour p (steps ++ more) i := by
  intro p
  have hp : p.InOrder behaviour := inOrder_spawn config node groups behaviour
  have hrunning : ∀ a ∈ p.actors, a.phase = .running := by
    intro a ha
    obtain ⟨e, -, rfl⟩ := List.mem_map.mp ha
    rfl
  refine ⟨?_, ?_, ?_⟩
  · intro i before x after a b hends hafter
    exact hp.farewell_of_ends hends hafter
  · intro steps i hi hover
    exact hp.departs_of_await hrunning hi hover
  · intro steps hover
    exact hp.departs_of_join hrunning hover

def fourSteps : Instruction Unit where
  rolloutIndex := 7
  segmentIndex := 0
  numSteps := 4

def diligent (_ : PeerId) : Behaviour Unit Unit := fun calls => calls.getLast?.map fun i =>
  { experiences := (), numExperiences := i.numSteps, numSteps := i.numSteps }

/-- One actor that reports after every rollout, with room for a single report. -/
def crampedPool : Pool Unit Unit :=
  (spawn ⟨1, 1⟩ (ChannelNetwork.build "learner" [("actor", 1)]) diligent).1

def twoRollouts : List (Step Unit) :=
  [.broadcast "actor" (.rollout fourSteps), .take 0, .complete 0,
    .broadcast "actor" (.rollout fourSteps), .take 0, .complete 0, .broadcast "actor" .exit]

/-- Whether the last report gets through depends on the report before it being read in time. -/
theorem farewells_of_twoRollouts :
    (∃ a b s, crampedPool.Ends 0 (twoRollouts ++ [.read 0]) (.take 0) a b ∧
      (crampedPool.run (twoRollouts ++ [.read 0, .take 0])).farewells[0]? =
        some (.report (some s)) ∧
      s = Stats.ofCalls b.peer (diligent b.peer) b.calls ∧ s.rollouts = 2) ∧
    (∃ a b s, crampedPool.Ends 0 twoRollouts (.take 0) a b ∧
      (crampedPool.run (twoRollouts ++ [.take 0])).farewells[0]? = some (.report (some s)) ∧
      a.reports.getLast? = some s ∧ b.calls.length = 2) ∧
    (∃ q, (crampedPool.run twoRollouts).await 0 = some q) ∧
    (∃ q, (crampedPool.run twoRollouts).join = some q) ∧
    ∃ q, (crampedPool.run (twoRollouts.dropLast ++ [.detach])).join = some q := by
  obtain ⟨hfarewells, hawait, hjoin⟩ :=
    farewells_of_run ⟨1, 1⟩ "learner" [("actor", 1)] diligent
  have hfirst (steps : List (Step Unit)) (h : (crampedPool.run steps).Over 0) (i : Nat)
      (hi : i < crampedPool.size) : (crampedPool.run steps).Over i := by
    obtain rfl : i = 0 := Nat.lt_one_iff.mp hi
    exact h
  refine ⟨?_, ?_, ?_, ?_, ?_⟩
  · have hends : crampedPool.Ends 0 (twoRollouts ++ [.read 0]) (.take 0) _ _ :=
      ⟨rfl, rfl, rfl, rfl⟩
    obtain ⟨hrollouts, s, hs, hroom, -⟩ := hfarewells 0 _ _ [] _ _ hends nofun
    have hfinal := hroom (by decide)
    refine ⟨_, _, s, hends, hs, hfinal, ?_⟩
    rw [hfinal]
    exact hrollouts
  · have hends : crampedPool.Ends 0 twoRollouts (.take 0) _ _ := ⟨rfl, rfl, rfl, rfl⟩
    obtain ⟨-, s, hs, -, hfull⟩ := hfarewells 0 _ _ [] _ _ hends nofun
    exact ⟨_, _, s, hends, hs, (hfull (by decide)).1, rfl⟩
  · obtain ⟨more, -, hq, -⟩ := hawait twoRollouts 0 (by decide) (.inl rfl)
    exact ⟨_, hq⟩
  · obtain ⟨more, -, hq, -⟩ := hjoin twoRollouts (hfirst _ (.inl rfl))
    exact ⟨_, hq⟩
  · obtain ⟨more, -, hq, -⟩ := hjoin (twoRollouts.dropLast ++ [.detach]) (hfirst _ (.inr rfl))
    exact ⟨_, hq⟩

/-- Nobody reads in time: what is left is the report after the first of two rollouts. -/
theorem farewells_miss_rollout :
    ∃ q a s, (crampedPool.run twoRollouts).join = some q ∧ q.actors = [a] ∧ a.phase = .stopped ∧
      q.farewells = [.report (some s)] ∧ s.rollouts = 1 ∧ a.calls.length = 2 ∧
      a.stats.rollouts = 2 ∧ s ≠ a.stats ∧
      s ≠ Stats.ofCalls a.peer (diligent a.peer) a.calls := by
  refine ⟨_, _, _, rfl, rfl, rfl, rfl, rfl, rfl, rfl, ?_, ?_⟩
  · intro heq
    exact absurd (congrArg Stats.rollouts heq) (by decide)
  · intro heq
    exact absurd (congrArg Stats.rollouts heq) (by decide)

end ExperienceCollection.Pool
