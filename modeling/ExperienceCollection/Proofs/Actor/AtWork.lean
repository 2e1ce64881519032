import ExperienceCollection.Proofs.Actor.Errands
import Mathlib.Algebra.BigOperators.Group.List.Basic

/-!
# Pools at work

As long as nobody is told to exit and no behaviour breaks down, all actors stay at work. Then no
errand is lost: a move takes it from a queue to a task, or from a task to the inbox, and its load
stays what it was. Every move also brings the pool nearer to rest, and once it rests all that was
under way is in the inbox.
-/

namespace ExperienceCollection

variable {μ ε : Type}

/-- A network whose coordinator and peers are all there, and where nobody is told to exit. -/
structure ChannelNetwork.Intact (n : ChannelNetwork μ ε) : Prop where
  attached : n.attached = true
  alive : ∀ e ∈ n.endpoints, e.alive = true
  commands : ∀ e ∈ n.endpoints, ∀ c ∈ e.commands, c.body ≠ .exit

/-- A running actor with an outcome for whatever it may be called with. -/
structure Actor.Reliable (a : Actor μ ε) : Prop where
  running : a.phase = .running
  called : a.task.isSome = true → a.calls ≠ []
  returns : ∀ calls, calls ≠ [] → (a.behaviour calls).isSome = true

namespace ChannelNetwork

open Wiring (members)

lemma Intact.setQueue {n : ChannelNetwork μ ε} (h : n.Intact) {i : Nat} {e : Endpoint μ}
    (he : n.endpoints[i]? = some e) {commands : List (Envelope (Command μ))}
    (hsub : commands ⊆ e.commands) :
    (n.rewire (n.setQueue i commands)).Intact := by
  have hmem : e ∈ n.endpoints := List.mem_of_getElem? he
  refine ⟨h.attached, fun e' he' => ?_, fun e' he' c hc => ?_⟩
  · rw [setQueue_endpoints he] at he'
    rcases List.mem_or_eq_of_mem_set he' with he' | rfl
    · exact h.alive e' he'
    · exact h.alive e hmem
  · rw [setQueue_endpoints he] at he'
    rcases List.mem_or_eq_of_mem_set he' with he' | rfl
    · exact h.commands e' he' c hc
    · exact h.commands e hmem c (hsub hc)

lemma Intact.broadcast {n : ChannelNetwork μ ε} (h : n.Intact) (role : String)
    (instruction : Instruction μ) : (n.broadcast role (.rollout instruction)).network.Intact := by
  rw [broadcast_network]
  refine ⟨h.attached, fun e' he' => ?_, fun e' he' c hc => ?_⟩
  · obtain ⟨e, he, rfl⟩ := List.mem_map.mp he'
    rw [Endpoint.deliver_alive]
    exact h.alive e he
  · obtain ⟨e, he, rfl⟩ := List.mem_map.mp he'
    unfold Endpoint.deliver at hc
    split at hc
    · rcases List.mem_append.mp hc with hc | hc
      · exact h.commands e he c hc
      · obtain rfl := List.mem_singleton.mp hc
        exact nofun
    · exact h.commands e he c hc

/-- An instruction that is sent to a role is under way for all its peers. -/
lemma Intact.broadcast_load_pos {n : ChannelNetwork μ ε} (h : n.Intact) {role : String}
    {t : Errand}
    (hpeer : t.peer ∈ (members n.endpoints role).map Endpoint.id) {instruction : Instruction μ}
    (hfor : instruction.isFor t = true) :
    0 < (n.broadcast role (.rollout instruction)).network.load t := by
  obtain ⟨e, hmember, hid⟩ := List.mem_map.mp hpeer
  obtain ⟨he, hmine⟩ := List.mem_filter.mp hmember
  rw [broadcast_network, load]
  refine Nat.add_pos_left (List.sum_pos_iff_exists_pos_nat.mpr ?_) _
  let command := (Command.rollout instruction).envelope n.node
  refine ⟨_, List.mem_map_of_mem (List.mem_map_of_mem he), ?_⟩
  have hdelivered : e.deliver role command = { e with commands := e.commands ++ [command] } :=
    if_pos ⟨of_decide_eq_true hmine, h.alive e he⟩
  rw [hdelivered, Endpoint.load, if_pos hid]
  exact List.countP_pos_iff.mpr ⟨command, List.mem_append_right _ List.mem_cons_self, hfor⟩

end ChannelNetwork

lemma Actor.Reliable.begin {a : Actor μ ε} (h : a.Reliable) (instruction : Instruction μ) :
    (a.begin instruction).Reliable :=
  ⟨h.running, fun _ => List.append_ne_nil_of_right_ne_nil _ (List.cons_ne_nil _ _), h.returns⟩

namespace Pool

/-- A pool of reliable actors on an intact network. -/
structure AtWork (p : Pool μ ε) : Prop where
  seated : p.Seated
  network : p.network.Intact
  actors : ∀ a ∈ p.actors, a.Reliable

/-- What an actor at work does with its turn, unless it has to wait. -/
inductive Moves (p : Pool μ ε) (i : Nat) : Pool μ ε → Prop where
  | begins (a : Actor μ ε) (e : Endpoint μ) (c : Envelope (Command μ))
      (rest : List (Envelope (Command μ))) (instruction : Instruction μ)
      (actor : p.actors[i]? = some a) (endpoint : p.network.endpoints[i]? = some e)
      (free : a.task = none) (commands : e.commands = c :: rest)
      (body : c.body = .rollout instruction) :
      Moves p i
        { p with
          network := p.network.rewire (p.network.setQueue i rest)
          actors := p.actors.set i (a.begin instruction) }
  | sends (a : Actor μ ε) (e : Endpoint μ) (instruction : Instruction μ) (o : Outcome ε)
      (stats : Stats) (reports : List Stats)
      (actor : p.actors[i]? = some a) (endpoint : p.network.endpoints[i]? = some e)
      (task : a.task = some instruction) :
      Moves p i
        { p with
          network :=
            { p.network with inbox := p.network.inbox ++ [(o.result instruction).envelope e.id] }
          actors := p.actors.set i { a with task := none, stats, reports } }

variable {p q : Pool μ ε} {i : Nat}

lemma Seated.length_eq (h : p.Seated) : p.actors.length = p.network.endpoints.length := by
  have hlength := congrArg List.length h
  dsimp only [peers, ChannelNetwork.roster, Wiring.roster] at hlength
  rwa [List.length_map, List.length_map, List.length_map] at hlength

lemma Seated.exists_endpoint (h : p.Seated) {a : Actor μ ε} (ha : p.actors[i]? = some a) :
    ∃ e, p.network.endpoints[i]? = some e := by
  obtain ⟨hi, -⟩ := List.getElem?_eq_some_iff.mp ha
  exact ⟨_, List.getElem?_eq_getElem (h.length_eq ▸ hi)⟩

lemma Seated.exists_actor (h : p.Seated) {e : Endpoint μ}
    (he : p.network.endpoints[i]? = some e) : ∃ a, p.actors[i]? = some a := by
  obtain ⟨hi, -⟩ := List.getElem?_eq_some_iff.mp he
  exact ⟨_, List.getElem?_eq_getElem (h.length_eq ▸ hi)⟩

/-- An actor at work begins with the next command, unless it is busy or there is none. -/
lemma AtWork.of_takes (h : p.AtWork) (hq : Takes p i q) :
    (q = p ∧ ((p.task? i).isSome = true ∨
      ∀ e, p.network.endpoints[i]? = some e → e.commands = [])) ∨ Moves p i q := by
  cases hq with
  | idle waits =>
    refine .inl ⟨rfl, ?_⟩
    by_cases hbusy : (p.task? i).isSome = true
    · exact .inl hbusy
    · refine .inr fun e he => ?_
      obtain ⟨a, ha⟩ := h.seated.exists_actor he
      have hfree : a.task = none := by simpa [task?, ha] using hbusy
      have hwaiting := waits a ha (h.actors a (List.mem_of_getElem? ha)).running hfree
      cases hcommands : e.commands with
      | nil => rfl
      | cons c rest =>
        have halive := h.network.alive e (List.mem_of_getElem? he)
        rw [ChannelNetwork.takeCommand_of_cons he halive hcommands] at hwaiting
        cases hwaiting
  | disconnected a actor running free order =>
    exact (ChannelNetwork.takeCommand_ne_disconnected h.network.attached i order).elim
  | exit a c actor running free order body =>
    obtain ⟨e, rest, he, hcommands, -⟩ := ChannelNetwork.takeCommand_eq_command order
    have hmem : c ∈ e.commands := by rw [hcommands]; exact List.mem_cons_self
    exact (h.network.commands e (List.mem_of_getElem? he) c hmem body).elim
  | begins a c instruction actor running free order body =>
    obtain ⟨e, rest, he, hcommands, hn⟩ := ChannelNetwork.takeCommand_eq_command order
    have hrunning : (a.begin instruction).phase = .running := running
    rw [store, if_pos hrunning, hn]
    exact .inr (.begins a e c rest instruction actor he free hcommands body)

/-- An actor at work completes its task and sends the result, if it has a task. -/
lemma AtWork.of_completes (h : p.AtWork) (hq : Completes p i q) :
    (q = p ∧ p.task? i = none) ∨ Moves p i q := by
  cases hq with
  | idle waits => exact .inl ⟨rfl, waits⟩
  | crashes a instruction actor task behaviour =>
    have hreliable := h.actors a (List.mem_of_getElem? actor)
    have hreturns := hreliable.returns a.calls (hreliable.called (by rw [task]; rfl))
    rw [behaviour] at hreturns
    cases hreturns
  | sends a instruction o actor task behaviour =>
    obtain ⟨e, he⟩ := h.seated.exists_endpoint actor
    have halive := h.network.alive e (List.mem_of_getElem? he)
    have hsend := ChannelNetwork.send_of_alive h.network.attached he halive (o.result instruction)
    obtain ⟨stats, hcount⟩ := Actor.count_eq { a with task := none } o
    obtain ⟨reports, hsent⟩ := Actor.sent_ok_eq p.config { a with task := none, stats }
    have hrunning : Actor.phase { a with task := none, stats, reports } = .running :=
      (h.actors a (List.mem_of_getElem? actor)).running
    rw [hsend, hcount, hsent, store, if_pos hrunning]
    exact .inr (.sends a e instruction o stats reports actor he task)

lemma Moves.seated (hq : Moves p i q) (hs : p.Seated) : q.Seated := by
  cases hq with
  | begins a e c rest instruction actor endpoint =>
    have hpeers := map_set_of_eq Actor.peer (b := a.begin instruction) actor rfl
    rw [Seated, peers, hpeers]
    exact hs.trans (congrArg (List.map Prod.fst) (Wiring.setQueue_roster _ i rest).symm)
  | sends a e instruction o stats reports actor =>
    have hpeers := map_set_of_eq Actor.peer (b := { a with task := none, stats, reports }) actor rfl
    rw [Seated, peers, hpeers]
    exact hs

lemma Moves.atWork (hq : Moves p i q) (h : p.AtWork) : q.AtWork := by
  have hseated := hq.seated h.seated
  cases hq with
  | begins a e c rest instruction actor endpoint free commands =>
    refine ⟨hseated, h.network.setQueue endpoint ?_, fun b hb => ?_⟩
    · rw [commands]
      exact List.subset_cons_self c rest
    · rcases List.mem_or_eq_of_mem_set hb with hb | rfl
      · exact h.actors b hb
      · exact (h.actors a (List.mem_of_getElem? actor)).begin instruction
  | sends a e instruction o stats reports actor =>
    refine ⟨hseated, ⟨h.network.attached, h.network.alive, h.network.commands⟩, fun b hb => ?_⟩
    rcases List.mem_or_eq_of_mem_set hb with hb | rfl
    · exact h.actors b hb
    · have hreliable := h.actors a (List.mem_of_getElem? actor)
      exact ⟨hreliable.running, fun hbusy => Bool.noConfusion hbusy, hreliable.returns⟩

/-- A move takes an errand along and does not lose it. -/
lemma Moves.load_eq (hq : Moves p i q) (hs : p.Seated) (t : Errand) : q.load t = p.load t := by
  cases hq with
  | begins a e c rest instruction actor endpoint free commands body =>
    have hendpoints := sum_map_set (Endpoint.load t) { e with commands := rest } endpoint
    have hactors := sum_map_set (Actor.load t) (a.begin instruction) actor
    have hqueue := Endpoint.load_of_cons t commands
    have hfree : a.load t = 0 := by simp [Actor.load, free]
    have hbegin : (a.begin instruction).load t =
        if e.id = t.peer ∧ c.body.isFor t then 1 else 0 := by
      rw [hs.id_eq actor endpoint, body]
      rfl
    unfold load ChannelNetwork.load
    dsimp only
    rw [ChannelNetwork.setQueue_endpoints endpoint, ChannelNetwork.rewire_inbox]
    omega
  | sends a e instruction o stats reports actor endpoint task =>
    have hactors := sum_map_set (Actor.load t) { a with task := none, stats, reports } actor
    have hfree : Actor.load t { a with task := none, stats, reports } = 0 := by simp [Actor.load]
    have hbusy : a.load t = if e.id = t.peer ∧ instruction.isFor t then 1 else 0 := by
      rw [Actor.load, hs.id_eq actor endpoint, task, Option.any_some]
    unfold load ChannelNetwork.load
    dsimp only
    rw [List.countP_append, List.countP_singleton, Result.envelope_answers]
    simp only [Bool.and_eq_true, decide_eq_true_eq]
    omega

/-- How far a pool is from rest. -/
def backlog (p : Pool μ ε) : Nat :=
  (p.network.endpoints.map fun e => 2 * e.commands.length).sum +
    (p.actors.map fun a => a.task.toList.length).sum

lemma Moves.backlog_lt (hq : Moves p i q) : q.backlog < p.backlog := by
  cases hq with
  | begins a e c rest instruction actor endpoint free commands =>
    have hendpoints := sum_map_set (fun e : Endpoint μ => 2 * e.commands.length)
      { e with commands := rest } endpoint
    have hactors := sum_map_set (fun a : Actor μ ε => a.task.toList.length)
      (a.begin instruction) actor
    have hbegin : (a.begin instruction).task.toList.length = 1 := rfl
    simp only [commands, free, hbegin, List.length_cons, Option.toList_none,
      List.length_nil] at hendpoints hactors
    unfold backlog
    dsimp only
    rw [ChannelNetwork.setQueue_endpoints endpoint]
    omega
  | sends a e instruction o stats reports actor endpoint task =>
    have hactors := sum_map_set (fun a : Actor μ ε => a.task.toList.length)
      { a with task := none, stats, reports } actor
    simp only [task, Option.toList_none, Option.toList_some, List.length_nil,
      List.length_singleton] at hactors
    unfold backlog
    dsimp only
    omega

/-- A pool at work can go on until nothing is under way except in the inbox. -/
lemma AtWork.exists_moves (h : p.AtWork) :
    (∃ i, Moves p i (p.take i) ∨ Moves p i (p.complete i)) ∨
      ∀ t, p.load t = p.network.inbox.countP (Envelope.answers t) := by
  by_cases hmoves : ∃ i, Moves p i (p.take i) ∨ Moves p i (p.complete i)
  · exact .inl hmoves
  · simp only [not_exists, not_or] at hmoves
    have hfree (i : Nat) : p.task? i = none :=
      ((h.of_completes (p.complete_completes i)).resolve_right (hmoves i).2).2
    refine .inr fun t => ?_
    have hqueues : (p.network.endpoints.map (Endpoint.load t)).sum = 0 := by
      refine List.sum_eq_zero fun x hx => ?_
      obtain ⟨e, he, rfl⟩ := List.mem_map.mp hx
      obtain ⟨i, hi⟩ := List.getElem?_of_mem he
      rcases ((h.of_takes (p.take_takes i)).resolve_right (hmoves i).1).2 with hbusy | hempty
      · rw [hfree i] at hbusy
        cases hbusy
      · rw [Endpoint.load, hempty e hi, List.countP_nil, ite_self]
    have htasks : (p.actors.map (Actor.load t)).sum = 0 := by
      refine List.sum_eq_zero fun x hx => ?_
      obtain ⟨a, ha, rfl⟩ := List.mem_map.mp hx
      obtain ⟨i, hi⟩ := List.getElem?_of_mem ha
      have hnone : a.task = none := by simpa [task?, hi] using hfree i
      simp [Actor.load, hnone]
    rw [load, ChannelNetwork.load, hqueues, htasks]
    omega

lemma AtWork.of_moves (h : p.AtWork) (hq : q = p ∨ Moves p i q) :
    q.AtWork ∧ ∀ t, q.load t = p.load t := by
  rcases hq with rfl | hq
  · exact ⟨h, fun _ => rfl⟩
  · exact ⟨hq.atWork h, hq.load_eq h.seated⟩

lemma AtWork.take (h : p.AtWork) (i : Nat) :
    (p.take i).AtWork ∧ ∀ t, (p.take i).load t = p.load t :=
  h.of_moves ((h.of_takes (p.take_takes i)).imp_left And.left)

lemma AtWork.complete (h : p.AtWork) (i : Nat) :
    (p.complete i).AtWork ∧ ∀ t, (p.complete i).load t = p.load t :=
  h.of_moves ((h.of_completes (p.complete_completes i)).imp_left And.left)

/-- An actor of a role has an errand in hand: as a command in its queue, or as its task. -/
def Holds (p : Pool μ ε) (role : String) (t : Errand) : Prop :=
  ∃ (i : Nat) (e : Endpoint μ) (a : Actor μ ε),
    p.network.endpoints[i]? = some e ∧ p.actors[i]? = some a ∧ e.id = t.peer ∧ e.role = role ∧
      e.alive = true ∧ a.phase = .running ∧
      ((∃ c ∈ e.commands, c.body.isFor t = true) ∨ a.task.any (Instruction.isFor t) = true)

/-- An errand under way is answered in the inbox or in the hands of its actor. -/
lemma AtWork.answered_or_holds (h : p.AtWork) {t : Errand} (hload : 0 < p.load t) {role : String}
    (hrole : ∀ e ∈ p.network.endpoints, e.id = t.peer → e.role = role) :
    (∃ e ∈ p.network.inbox, e.answers t = true) ∨ p.Holds role t := by
  have hholds {i : Nat} {e : Endpoint μ} {a : Actor μ ε} (he : p.network.endpoints[i]? = some e)
      (ha : p.actors[i]? = some a) (hid : e.id = t.peer)
      (hhand : (∃ c ∈ e.commands, c.body.isFor t = true) ∨
        a.task.any (Instruction.isFor t) = true) : p.Holds role t :=
    ⟨i, e, a, he, ha, hid, hrole e (List.mem_of_getElem? he) hid,
      h.network.alive e (List.mem_of_getElem? he), (h.actors a (List.mem_of_getElem? ha)).running,
      hhand⟩
  rw [load, ChannelNetwork.load] at hload
  rcases Nat.add_pos_iff_pos_or_pos.mp hload with hnetwork | htasks
  · rcases Nat.add_pos_iff_pos_or_pos.mp hnetwork with hqueues | hinbox
    · obtain ⟨x, hx, hpos⟩ := List.sum_pos_iff_exists_pos_nat.mp hqueues
      obtain ⟨e, he, rfl⟩ := List.mem_map.mp hx
      obtain ⟨i, hi⟩ := List.getElem?_of_mem he
      obtain ⟨a, ha⟩ := h.seated.exists_actor hi
      rw [Endpoint.load] at hpos
      split at hpos
      · rename_i hid
        exact .inr (hholds hi ha hid (.inl (List.countP_pos_iff.mp hpos)))
      · cases hpos
    · exact .inl (List.countP_pos_iff.mp hinbox)
  · obtain ⟨x, hx, hpos⟩ := List.sum_pos_iff_exists_pos_nat.mp htasks
    obtain ⟨a, ha, rfl⟩ := List.mem_map.mp hx
    obtain ⟨i, hi⟩ := List.getElem?_of_mem ha
    obtain ⟨e, he⟩ := h.seated.exists_endpoint hi
    rw [Actor.load] at hpos
    split at hpos
    · rename_i hmine
      exact .inr (hholds he hi ((h.seated.id_eq hi he).trans hmine.1) (.inr hmine.2))
    · cases hpos

end Pool

end ExperienceCollection
