import ExperienceCollection.Proofs.Actor.Session
import ExperienceCollection.Proofs.Network.Enrolment
import Mathlib.Data.List.Induction

/-!
# Exchanges of actors

What a step of a session exchanges between an actor and its network. Commands broadcast to its role
join the queue of its endpoint, the actor takes them off the queue one by one, and its results go to
the inbox under its name. What the other actors do has no part in this.
-/

namespace ExperienceCollection

variable {μ ε : Type}

namespace ChannelNetwork

variable {n : ChannelNetwork μ ε} {i : Nat} {e : Endpoint μ}

lemma takeCommand_self (he : n.endpoints[i]? = some e) {c : Envelope (Command μ)}
    (h : (n.takeCommand i).1 = .command c) :
    ∃ rest, e.commands = c :: rest ∧
      (n.takeCommand i).2.endpoints[i]? = some { e with commands := rest } := by
  obtain ⟨e', rest, he', hcommands, hn⟩ := takeCommand_eq_command h
  obtain rfl : e' = e := Option.some.inj (he'.symm.trans he)
  refine ⟨rest, hcommands, ?_⟩
  rw [hn]
  exact setQueue_getElem? he rest

/-- The connection is lost once the coordinator is gone and the queue is empty. -/
lemma takeCommand_disconnected (he : n.endpoints[i]? = some e) (halive : e.alive = true)
    (h : (n.takeCommand i).1 = .disconnected) :
    n.attached = false ∧ e.commands = [] ∧ (n.takeCommand i).2 = n := by
  refine ⟨?_, ?_, ?_⟩
  · cases hattached : n.attached with
    | false => rfl
    | true => exact absurd h (takeCommand_ne_disconnected hattached i)
  · by_contra hne
    obtain ⟨c, rest, hcommands⟩ := List.exists_cons_of_ne_nil hne
    rw [takeCommand_of_cons he halive hcommands] at h
    cases h
  · rcases n.takeCommand_cases i with hn | ⟨_, _, _, -, -, -, hn⟩
    · rw [hn]
    · rw [hn] at h
      cases h

lemma receive_inbox_le (n : ChannelNetwork μ ε) :
    (Network.receive n).2.inbox.length ≤ n.inbox.length := by
  unfold Network.receive
  split
  · change (n.inbox.drop 1).length ≤ n.inbox.length
    rw [List.length_drop]
    exact Nat.sub_le _ _
  · exact Nat.le_refl _

end ChannelNetwork

namespace Pool

variable {p q : Pool μ ε} {i j : Nat} {behaviour : PeerId → Behaviour μ ε}

/-- The commands broadcast to a role. -/
def commandsTo (role : String) (steps : List (Step μ)) : List (Command μ) :=
  steps.filterMap fun
    | .broadcast r command => if r = role then some command else none
    | _ => none

lemma commandsTo_append (role : String) (steps more : List (Step μ)) :
    commandsTo role (steps ++ more) = commandsTo role steps ++ commandsTo role more :=
  List.filterMap_append

/-- The results that a step adds to the inbox. -/
def posts (p : Pool μ ε) (x : Step μ) : List (Envelope (Result ε)) :=
  (p.step x).network.inbox.drop p.network.inbox.length

/-- The results that the steps of a session add to the inbox, whoever receives them. -/
def posted (p : Pool μ ε) : List (Step μ) → List (Envelope (Result ε))
  | [] => []
  | x :: steps => p.posts x ++ posted (p.step x) steps

lemma posted_concat (p : Pool μ ε) (steps : List (Step μ)) (x : Step μ) :
    p.posted (steps ++ [x]) = p.posted steps ++ (p.run steps).posts x := by
  induction steps generalizing p with
  | nil => exact List.append_nil _
  | cons y steps ih =>
    rw [List.cons_append, posted, ih, posted, List.append_assoc]
    rfl

/-- An exchange between an actor `a` with the commands `queue` and its network, which is attached to
the coordinator or not, in a step that broadcasts `told` to its role: what becomes of the actor and
of its queue, and the results that it posts. An actor that leaves gives up its queue. -/
inductive Exchange (attached : Bool) (told : List (Command μ)) (a : Actor μ ε)
    (queue : List (Command μ)) : Actor μ ε → List (Command μ) → List (Result ε) → Prop where
  | hears (reports : List Stats) (running : a.phase = .running) :
      Exchange attached told a queue { a with reports } (queue ++ told) []
  | begins (i : Instruction μ) (rest : List (Command μ)) (silent : told = [])
      (running : a.phase = .running) (free : a.task = none) (next : queue = .rollout i :: rest) :
      Exchange attached told a queue (a.begin i) rest []
  | exits (rest left : List (Command μ)) (reports : List Stats) (log : List Log.Event)
      (silent : told = []) (running : a.phase = .running) (free : a.task = none)
      (next : queue = .exit :: rest) :
      Exchange attached told a queue { a with phase := .stopped, reports, log } left []
  | disconnects (left : List (Command μ)) (reports : List Stats) (log : List Log.Event)
      (silent : told = []) (running : a.phase = .running) (free : a.task = none)
      (empty : queue = []) (gone : attached = false) :
      Exchange attached told a queue { a with phase := .stopped, reports, log } left []
  | breaks (i : Instruction μ) (left : List (Command μ)) (silent : told = [])
      (running : a.phase = .running) (task : a.task = some i)
      (behaviour : a.behaviour a.calls = none) :
      Exchange attached told a queue { a with task := none, phase := .crashed } left []
  | sends (i : Instruction μ) (o : Outcome ε) (stats : Stats) (reports : List Stats)
      (silent : told = []) (running : a.phase = .running) (task : a.task = some i)
      (behaviour : a.behaviour a.calls = some o) (there : attached = true) :
      Exchange attached told a queue { a with task := none, stats, reports } queue [o.result i]
  | fails (i : Instruction μ) (o : Outcome ε) (left : List (Command μ)) (stats : Stats)
      (reports : List Stats) (log : List Log.Event) (silent : told = [])
      (running : a.phase = .running) (task : a.task = some i)
      (behaviour : a.behaviour a.calls = some o) (gone : attached = false) :
      Exchange attached told a queue
        { a with task := none, stats, phase := .stopped, reports, log } left []
  | rests (left : List (Command μ)) (reports : List Stats) (done : a.phase ≠ .running) :
      Exchange attached told a queue { a with reports } left []

lemma Exchange.still (attached : Bool) (a : Actor μ ε) (queue : List (Command μ))
    (reports : List Stats) : Exchange attached [] a queue { a with reports } queue [] := by
  by_cases running : a.phase = .running
  · have hears : Exchange attached [] a queue { a with reports } (queue ++ []) [] :=
      .hears reports running
    rwa [List.append_nil] at hears
  · exact .rests queue reports running

/-- A step is an exchange of the actor `a` and the endpoint `e` at a position. -/
def Exchanges (p : Pool μ ε) (x : Step μ) (i : Nat) (a : Actor μ ε) (e : Endpoint μ) : Prop :=
  ∃ a' e' results, (p.step x).actors[i]? = some a' ∧
    (p.step x).network.endpoints[i]? = some e' ∧
    (p.posts x).filter (fun r => r.source = e.id) = results.map (Result.envelope e.id) ∧
    Exchange p.network.attached (commandsTo e.role [x]) a (e.commands.map Envelope.body) a'
      (e'.commands.map Envelope.body) results

variable {a : Actor μ ε} {e : Endpoint μ}

/-- A step of which the actor notices nothing, but for reports that are read. -/
lemma exchanges_of_still {x : Step μ} {reports : List Stats}
    (actor : (p.step x).actors[i]? = some { a with reports })
    (endpoint : (p.step x).network.endpoints[i]? = some e) (silent : commandsTo e.role [x] = [])
    (posts : (p.posts x).filter (fun r => r.source = e.id) = []) : p.Exchanges x i a e := by
  refine ⟨_, e, [], actor, endpoint, posts, ?_⟩
  rw [silent]
  exact .still _ a _ reports

lemma posts_of_length_le {x : Step μ}
    (h : (p.step x).network.inbox.length ≤ p.network.inbox.length) : p.posts x = [] :=
  List.drop_eq_nil_of_le h

lemma store_inbox (p : Pool μ ε) (i : Nat) (a : Actor μ ε) (n : ChannelNetwork μ ε) :
    (p.store i a n).network.inbox = n.inbox := by
  unfold store
  dsimp only
  split <;> rfl

lemma store_self (actor : p.actors[i]? = some a) (b : Actor μ ε) (n : ChannelNetwork μ ε) :
    (p.store i b n).actors[i]? = some b := by
  obtain ⟨hi, -⟩ := List.getElem?_eq_some_iff.mp actor
  exact List.getElem?_set_self hi

/-- An actor that is put back keeps its endpoint as long as it is running. -/
lemma store_endpoint {n : ChannelNetwork μ ε} (he : n.endpoints[i]? = some e) (b : Actor μ ε) :
    ∃ e', (p.store i b n).network.endpoints[i]? = some e' ∧ (b.phase = .running → e' = e) := by
  unfold store
  dsimp only
  split
  · exact ⟨e, he, fun _ => rfl⟩
  · rename_i hdone
    obtain ⟨e', he', -⟩ := ChannelNetwork.dropEndpoint_getElem?_self he
    exact ⟨e', he', fun running => absurd running hdone⟩

lemma store_elsewhere (hij : i ≠ j) (b : Actor μ ε) (n : ChannelNetwork μ ε) :
    (p.store j b n).actors[i]? = p.actors[i]? ∧
      (p.store j b n).network.endpoints[i]? = n.endpoints[i]? := by
  refine ⟨List.getElem?_set_ne (Ne.symm hij), ?_⟩
  unfold store
  dsimp only
  split
  · rfl
  · exact n.dropEndpoint_getElem?_ne hij

lemma Takes.inbox_eq (h : Takes p j q) : q.network.inbox = p.network.inbox := by
  cases h with
  | idle => rfl
  | disconnected => rw [store_inbox, ChannelNetwork.takeCommand_inbox]
  | exit => rw [store_inbox, ChannelNetwork.takeCommand_inbox]
  | begins => rw [store_inbox, ChannelNetwork.takeCommand_inbox]

lemma Takes.elsewhere (h : Takes p j q) (hij : i ≠ j) :
    q.actors[i]? = p.actors[i]? ∧ q.network.endpoints[i]? = p.network.endpoints[i]? := by
  have hstore (b : Actor μ ε) :
      (p.store j b (p.network.takeCommand j).2).actors[i]? = p.actors[i]? ∧
        (p.store j b (p.network.takeCommand j).2).network.endpoints[i]? =
          p.network.endpoints[i]? := by
    rw [← ChannelNetwork.takeCommand_endpoints_ne p.network hij]
    exact store_elsewhere hij b _
  cases h with
  | idle => exact ⟨rfl, rfl⟩
  | disconnected => exact hstore _
  | exit => exact hstore _
  | begins => exact hstore _

/-- An actor that completes its task posts a result under its own name, if any, and leaves the
others alone. -/
lemma Completes.elsewhere (h : Completes p j q) (hij : i ≠ j) :
    q.actors[i]? = p.actors[i]? ∧ q.network.endpoints[i]? = p.network.endpoints[i]? ∧
      ∀ r ∈ q.network.inbox.drop p.network.inbox.length,
        ∃ e, p.network.endpoints[j]? = some e ∧ r.source = e.id := by
  cases h with
  | idle => exact ⟨rfl, rfl, by simp⟩
  | crashes =>
    obtain ⟨hactor, hendpoint⟩ := store_elsewhere (p := p) hij _ p.network
    refine ⟨hactor, hendpoint, ?_⟩
    rw [store_inbox]
    simp
  | sends a instruction o =>
    obtain ⟨hactor, hendpoint⟩ := store_elsewhere (p := p) hij
      (({ a with task := none }.count o).sent p.config (p.network.send j (o.result instruction)).1)
      (p.network.send j (o.result instruction)).2
    rw [store_inbox, hactor, hendpoint]
    rcases p.network.send_cases j (o.result instruction) with ⟨e, he, hn⟩ | hn
    · rw [hn]
      refine ⟨rfl, rfl, fun r hr => ⟨e, he, ?_⟩⟩
      rw [List.drop_left, List.mem_singleton] at hr
      rw [hr]
      rfl
    · rw [hn]
      exact ⟨rfl, rfl, by simp⟩

lemma exchanges_take (hp : p.InOrder behaviour) (ha : p.actors[i]? = some a)
    (he : p.network.endpoints[i]? = some e) (j : Nat) : p.Exchanges (.take j) i a e := by
  have htakes := p.take_takes j
  have hposts : p.posts (.take j) = [] :=
    posts_of_length_le (Nat.le_of_eq (congrArg List.length htakes.inbox_eq))
  by_cases hij : i = j
  · subst hij
    unfold Exchanges
    rw [hposts, Pool.step]
    generalize p.take i = q at htakes ⊢
    have hself {b : Actor μ ε} (actor : p.actors[i]? = some b) : b = a :=
      Option.some.inj (actor.symm.trans ha)
    cases htakes with
    | idle => exact ⟨a, e, [], ha, he, rfl, .still _ a _ a.reports⟩
    | disconnected b actor running free order =>
      obtain rfl := hself actor
      obtain ⟨hgone, hempty, hnetwork⟩ :=
        ChannelNetwork.takeCommand_disconnected he ((hp.alive_iff ha he).mpr running) order
      obtain ⟨log, hstop⟩ := Actor.stop_eq p.config b (.coordinatorGone b.peer)
      rw [hnetwork, hstop]
      obtain ⟨e', he', -⟩ := store_endpoint (p := p) he
        { b with phase := .stopped, reports := b.filed p.config, log }
      exact ⟨_, e', [], store_self actor _ _, he', rfl,
        .disconnects _ _ log rfl running free (by rw [hempty]; rfl) hgone⟩
    | exit b c actor running free order body =>
      obtain rfl := hself actor
      obtain ⟨rest, hcommands, hendpoint⟩ := ChannelNetwork.takeCommand_self he order
      obtain ⟨log, hstop⟩ := Actor.stop_eq p.config b (.exitReceived b.peer)
      rw [hstop]
      obtain ⟨e', he', -⟩ := store_endpoint (p := p) hendpoint
        { b with phase := .stopped, reports := b.filed p.config, log }
      refine ⟨_, e', [], store_self actor _ _, he', rfl,
        .exits (rest.map Envelope.body) _ _ log rfl running free ?_⟩
      rw [hcommands, List.map_cons, body]
    | begins b c instruction actor running free order body =>
      obtain rfl := hself actor
      obtain ⟨rest, hcommands, hendpoint⟩ := ChannelNetwork.takeCommand_self he order
      obtain ⟨e', he', hkept⟩ := store_endpoint (p := p) hendpoint (b.begin instruction)
      obtain rfl := hkept running
      refine ⟨_, _, [], store_self actor _ _, he', rfl,
        .begins instruction (rest.map Envelope.body) rfl running free ?_⟩
      rw [hcommands, List.map_cons, body]
  · obtain ⟨hactor, hendpoint⟩ := htakes.elsewhere hij
    exact exchanges_of_still (hactor.trans ha) (hendpoint.trans he) rfl (by rw [hposts]; rfl)

section

variable {instruction : Instruction μ} {o : Outcome ε} (ha : p.actors[i]? = some a)
  (he : p.network.endpoints[i]? = some e) (running : a.phase = .running)
  (task : a.task = some instruction) (outcome : a.behaviour a.calls = some o)
  (complete : p.complete i =
    p.store i (({ a with task := none }.count o).sent p.config
      (p.network.send i (o.result instruction)).1) (p.network.send i (o.result instruction)).2)

include ha he running task outcome complete

/-- While the coordinator is there, the result goes to the inbox and the actor goes on. -/
lemma exchanges_of_sent (alive : e.alive = true) (there : p.network.attached = true) :
    p.Exchanges (.complete i) i a e := by
  rw [ChannelNetwork.send_of_alive there he alive, Actor.count_stats] at complete
  obtain ⟨reports, hsent⟩ := Actor.sent_ok_eq p.config
    { a with task := none, stats := a.stats.record o }
  obtain ⟨e', he', hkept⟩ := store_endpoint (p := p)
    (n := { p.network with inbox := p.network.inbox ++ [(o.result instruction).envelope e.id] })
    he { a with task := none, stats := a.stats.record o, reports }
  obtain rfl := hkept running
  unfold Exchanges posts
  rw [Pool.step, complete, hsent, store_inbox, List.drop_left]
  refine ⟨_, _, [o.result instruction], store_self ha _ _, he', ?_,
    .sends instruction o _ reports rfl running task outcome there⟩
  rw [List.filter_cons_of_pos (by simp [Result.envelope])]
  rfl

/-- Without the coordinator the result is lost and the actor stops. -/
lemma exchanges_of_unsent (gone : p.network.attached = false) :
    p.Exchanges (.complete i) i a e := by
  have hsend : p.network.send i (o.result instruction) = (.error .disconnected, p.network) := by
    rw [ChannelNetwork.send, gone]
  rw [hsend, Actor.count_stats] at complete
  obtain ⟨log, hstop⟩ := Actor.stop_eq p.config
    { a with task := none, stats := a.stats.record o } (.sendFailed a.peer .disconnected)
  obtain ⟨e', he', -⟩ := store_endpoint (p := p) he
    { a with
      task := none
      stats := a.stats.record o
      phase := .stopped
      reports := Actor.filed p.config { a with task := none, stats := a.stats.record o }
      log }
  unfold Exchanges posts
  rw [Pool.step, complete, Actor.sent, hstop, store_inbox, List.drop_length]
  exact ⟨_, e', [], store_self ha _ _, he', rfl,
    .fails instruction o _ _ _ log rfl running task outcome gone⟩

end

/-- A task is completed by an actor that is running, whose endpoint is therefore there. -/
lemma exchanges_complete_self (hp : p.InOrder behaviour) (ha : p.actors[i]? = some a)
    (he : p.network.endpoints[i]? = some e) : p.Exchanges (.complete i) i a e := by
  have hcompletes := p.complete_completes i
  have hbusy := ((hp.recorded a (List.mem_of_getElem? ha)).1).busy
  generalize hq : p.complete i = q at hcompletes
  have hself {b : Actor μ ε} (actor : p.actors[i]? = some b) : b = a :=
    Option.some.inj (actor.symm.trans ha)
  cases hcompletes with
  | idle =>
    have hstep : p.step (.complete i) = p := hq
    refine exchanges_of_still (hstep.symm ▸ ha) (hstep.symm ▸ he) rfl ?_
    rw [posts, hstep, List.drop_length]
    rfl
  | crashes b instruction actor task behaviour =>
    obtain rfl := hself actor
    have running := (hbusy (by rw [task]; rfl)).1
    obtain ⟨e', he', -⟩ := store_endpoint (p := p) he { b with task := none, phase := .crashed }
    unfold Exchanges posts
    rw [Pool.step, hq, store_inbox, List.drop_length]
    exact ⟨_, e', [], store_self actor _ _, he', rfl,
      .breaks instruction _ rfl running task behaviour⟩
  | sends b instruction o actor task behaviour =>
    obtain rfl := hself actor
    have running := (hbusy (by rw [task]; rfl)).1
    cases hattached : p.network.attached with
    | true =>
      have alive := (hp.alive_iff ha he).mpr running
      exact exchanges_of_sent ha he running task behaviour hq alive hattached
    | false => exact exchanges_of_unsent ha he running task behaviour hq hattached

lemma exchanges_complete (hp : p.InOrder behaviour)
    (hids : (p.network.endpoints.map Endpoint.id).Nodup) (ha : p.actors[i]? = some a)
    (he : p.network.endpoints[i]? = some e) (j : Nat) : p.Exchanges (.complete j) i a e := by
  by_cases hij : i = j
  · subst hij
    exact exchanges_complete_self hp ha he
  · obtain ⟨hactor, hendpoint, hposts⟩ := (p.complete_completes j).elsewhere hij
    refine exchanges_of_still (hactor.trans ha) (hendpoint.trans he) rfl ?_
    rw [List.filter_eq_nil_iff]
    intro r hr
    obtain ⟨e', he', hsource⟩ := hposts r hr
    -- Two endpoints under one name would be one.
    intro hname
    obtain ⟨hi, -⟩ := List.getElem?_eq_some_iff.mp he
    have hsame : (p.network.endpoints.map Endpoint.id)[i]? =
        (p.network.endpoints.map Endpoint.id)[j]? := by
      rw [List.getElem?_map, List.getElem?_map, he, he', Option.map_some, Option.map_some,
        ← hsource, of_decide_eq_true hname]
    exact hij ((List.getElem?_inj (by rwa [List.length_map]) hids).mp hsame)

lemma exchanges_broadcast (hp : p.InOrder behaviour) (ha : p.actors[i]? = some a)
    (he : p.network.endpoints[i]? = some e) (role : String) (command : Command μ) :
    p.Exchanges (.broadcast role command) i a e := by
  have hposts : p.posts (.broadcast role command) = [] :=
    posts_of_length_le
      (Nat.le_of_eq (congrArg List.length (p.network.broadcast_inbox role command)))
  have hendpoint : (p.step (.broadcast role command)).network.endpoints[i]? =
      some (e.deliver role (command.envelope p.network.node)) := by
    rw [Pool.step, ChannelNetwork.broadcast_endpoints, List.getElem?_map, he, Option.map_some]
  by_cases hto : role = e.role
  · subst hto
    have htold : commandsTo e.role [Step.broadcast e.role command] = [command] := by
      simp [commandsTo]
    refine ⟨a, _, [], ha, hendpoint, by rw [hposts]; rfl, ?_⟩
    rw [htold]
    by_cases running : a.phase = .running
    · have halive := (hp.alive_iff ha he).mpr running
      rw [Endpoint.deliver, if_pos ⟨rfl, halive⟩, List.map_append]
      exact .hears a.reports running
    · exact .rests _ a.reports running
  · rw [Endpoint.deliver, if_neg fun h => hto h.1.symm] at hendpoint
    exact exchanges_of_still ha hendpoint (by simp [commandsTo, hto]) (by rw [hposts]; rfl)

/-- Every step is an exchange of every actor, whoever takes it. -/
theorem step_exchanges (hp : p.InOrder behaviour)
    (hids : (p.network.endpoints.map Endpoint.id).Nodup) (ha : p.actors[i]? = some a)
    (he : p.network.endpoints[i]? = some e) (x : Step μ) : p.Exchanges x i a e := by
  cases x with
  | broadcast role command => exact exchanges_broadcast hp ha he role command
  | receive =>
    obtain ⟨inbox, hn⟩ := p.network.receive_network
    have hposts : p.posts .receive = [] := posts_of_length_le p.network.receive_inbox_le
    refine exchanges_of_still ha ?_ rfl (by rw [hposts]; rfl)
    rw [Pool.step, hn]
    exact he
  | detach =>
    have hposts : p.posts .detach = [] := posts_of_length_le (Nat.zero_le _)
    exact exchanges_of_still ha he rfl (by rw [hposts]; rfl)
  | take j => exact exchanges_take hp ha he j
  | complete j => exact exchanges_complete hp hids ha he j
  | read j =>
    have hposts : p.posts (.read j) = [] := posts_of_length_le (Nat.le_refl _)
    have hactor : (p.step (.read j)).actors[i]? =
        some { a with reports := if j = i then a.reports.drop 1 else a.reports } := by
      rw [Pool.step, List.getElem?_modify, ha, Option.map_eq_map, Option.map_some]
      split
      · rw [Actor.readReport_eq]
      · rfl
    exact exchanges_of_still hactor he rfl (by rw [hposts]; rfl)
  | collect =>
    have hposts : p.posts .collect = [] := posts_of_length_le (Nat.le_refl _)
    have hactor : (p.step .collect).actors[i]? = some { a with reports := [] } := by
      simp [Pool.step, collectStats, ha, Actor.readReports]
    exact exchanges_of_still hactor he rfl (by rw [hposts]; rfl)

lemma Exchange.peer_eq {attached : Bool} {told queue left : List (Command μ)} {b : Actor μ ε}
    {results : List (Result ε)} (h : Exchange attached told a queue b left results) :
    b.peer = a.peer := by
  cases h with
  | _ => rfl

/-- An actor that is done exchanges nothing any more. -/
lemma Exchange.of_done {attached : Bool} {told queue left : List (Command μ)} {b : Actor μ ε}
    {results : List (Result ε)} (h : Exchange attached told a queue b left results)
    (done : a.phase ≠ .running) : results = [] ∧ ∃ reports, b = { a with reports } := by
  cases h with
  | hears reports running => exact absurd running done
  | begins i rest silent running => exact absurd running done
  | exits rest left reports log silent running => exact absurd running done
  | disconnects left reports log silent running => exact absurd running done
  | breaks i left silent running => exact absurd running done
  | sends i o stats reports silent running => exact absurd running done
  | fails i o left stats reports log silent running => exact absurd running done
  | rests left reports => exact ⟨rfl, reports, rfl⟩

lemma step_roster (p : Pool μ ε) (x : Step μ) : (p.step x).network.roster = p.network.roster := by
  cases x with
  | broadcast role command => exact p.network.broadcast_roster role command
  | receive =>
    obtain ⟨inbox, hn⟩ := p.network.receive_network
    rw [Pool.step, hn]
    rfl
  | take i => exact (p.take_takes i).roster_eq
  | complete i => exact (p.complete_completes i).roster_eq
  | _ => rfl

lemma run_roster (p : Pool μ ε) (steps : List (Step μ)) :
    (p.run steps).network.roster = p.network.roster := by
  induction steps generalizing p with
  | nil => rfl
  | cons x steps ih => exact (ih _).trans (p.step_roster x)

lemma store_attached (p : Pool μ ε) (i : Nat) (a : Actor μ ε) (n : ChannelNetwork μ ε) :
    (p.store i a n).network.attached = n.attached := by
  unfold store
  dsimp only
  split <;> rfl

/-- Only a detachment takes the coordinator away. -/
lemma step_attached (p : Pool μ ε) {x : Step μ} (hx : x ≠ .detach) :
    (p.step x).network.attached = p.network.attached := by
  cases x with
  | broadcast role command =>
    rw [Pool.step, ChannelNetwork.broadcast_network]
    rfl
  | receive =>
    obtain ⟨inbox, hn⟩ := p.network.receive_network
    rw [Pool.step, hn]
  | detach => exact absurd rfl hx
  | take i =>
    have htakes := p.take_takes i
    rw [Pool.step]
    generalize p.take i = q at htakes ⊢
    cases htakes with
    | idle => rfl
    | disconnected => rw [store_attached, ChannelNetwork.takeCommand_attached]
    | exit => rw [store_attached, ChannelNetwork.takeCommand_attached]
    | begins => rw [store_attached, ChannelNetwork.takeCommand_attached]
  | complete i =>
    have hcompletes := p.complete_completes i
    rw [Pool.step]
    generalize p.complete i = q at hcompletes ⊢
    cases hcompletes with
    | idle => rfl
    | crashes => rw [store_attached]
    | sends a instruction o =>
      obtain ⟨inbox, hn⟩ := p.network.send_network i (o.result instruction)
      rw [store_attached, hn]
  | _ => rfl

lemma run_attached (hp : p.network.attached = true) (steps : List (Step μ)) :
    (p.run steps).network.attached = false ↔ Step.detach ∈ steps := by
  induction steps using List.reverseRecOn with
  | nil => simp [run, hp]
  | append_singleton steps x ih =>
    rw [run_concat, List.mem_append, List.mem_singleton]
    by_cases hx : x = .detach
    · subst hx
      exact ⟨fun _ => .inr rfl, fun _ => rfl⟩
    · rw [step_attached _ hx, ih]
      exact ⟨.inl, fun h => h.resolve_right fun heq => hx heq.symm⟩

/-- Every step of a session is an exchange of the actor and the endpoint at a position. The endpoint
keeps the name and the role under which it was registered. -/
lemma InOrder.exchanges_run (hp : p.InOrder behaviour)
    (hids : (p.network.endpoints.map Endpoint.id).Nodup)
    (he : p.network.endpoints[i]? = some e) {steps : List (Step μ)} {b : Actor μ ε}
    {e' : Endpoint μ} (hb : (p.run steps).actors[i]? = some b)
    (he' : (p.run steps).network.endpoints[i]? = some e') (x : Step μ) :
    e'.id = e.id ∧ e'.role = e.role ∧ (p.run steps).Exchanges x i b e' := by
  have hroster := p.run_roster steps
  have hsame : (e'.id, e'.role) = (e.id, e.role) := by
    have hat := ChannelNetwork.roster_getElem? he'
    rw [hroster, ChannelNetwork.roster_getElem? he] at hat
    exact (Option.some.inj hat).symm
  obtain ⟨hid, hrole⟩ := Prod.mk.inj hsame
  have hids' : ((p.run steps).network.endpoints.map Endpoint.id).Nodup := by
    have hnames := congrArg (fun roster => roster.2.map Prod.fst) hroster
    simp only [ChannelNetwork.roster, Wiring.roster_id] at hnames
    rwa [hnames]
  exact ⟨hid, hrole, step_exchanges (hp.run steps) hids' hb he' x⟩

end Pool

end ExperienceCollection
