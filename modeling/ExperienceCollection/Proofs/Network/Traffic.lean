import ExperienceCollection.Proofs.Network.Build
import ExperienceCollection.Proofs.Network.Steps

/-!
# Traffic of a channel network

Whatever happens on a network, and in whatever order, no message is lost, doubled or sent astray:
what a peer has taken and what still waits for it are the commands broadcast to its role, and what
the coordinator has received and what still waits for it are the results sent. A peer that leaves
takes nothing away from the others; when all have left, the inbox runs dry and the connection is
lost.
-/

namespace ExperienceCollection.ChannelNetwork

variable {μ ε : Type}

/-- A step at a network: of the coordinator, or of the peer at a position. -/
inductive Step (μ ε : Type) where
  | broadcast (role : String) (command : Command μ)
  | receive
  | take (i : Nat)
  | send (i : Nat) (result : Result ε)
  | leave (i : Nat)

/-- A network with the commands that its peers have taken, each with the position of the peer, and
the results that the coordinator has received. -/
structure Traffic (μ ε : Type) where
  network : ChannelNetwork μ ε
  taken : List (Nat × Envelope (Command μ)) := []
  received : List (Envelope (Result ε)) := []

namespace Traffic

def step (t : Traffic μ ε) : Step μ ε → Traffic μ ε
  | .broadcast role command => { t with network := (t.network.broadcast role command).network }
  | .receive =>
    match Network.receive t.network with
    | (.arrival (.ok e), network) => { t with network, received := t.received ++ [e] }
    | (_, network) => { t with network }
  | .take i =>
    match t.network.takeCommand i with
    | (.command c, network) => { t with network, taken := t.taken ++ [(i, c)] }
    | (_, network) => { t with network }
  | .send i result => { t with network := (t.network.send i result).2 }
  | .leave i => { t with network := t.network.dropEndpoint i }

def run (t : Traffic μ ε) (steps : List (Step μ ε)) : Traffic μ ε := steps.foldl step t

/-- The commands that the peer at a position has taken. -/
def takenBy (t : Traffic μ ε) (i : Nat) : List (Envelope (Command μ)) :=
  (t.taken.filter fun x => x.1 = i).map Prod.snd

end Traffic

/-- The commands broadcast to a role. -/
def commandsTo (role : String) (steps : List (Step μ ε)) : List (Command μ) :=
  steps.filterMap fun
    | .broadcast r command => if r = role then some command else none
    | _ => none

/-- The positions of the peers that have left. -/
def departed (steps : List (Step μ ε)) : List Nat :=
  steps.filterMap fun
    | .leave i => some i
    | _ => none

/-- The results that peers send before they leave, stamped with their names. The peers at the
positions in `gone` have left already. -/
def resultsSent (endpoints : List (Endpoint μ)) :
    List Nat → List (Step μ ε) → List (Envelope (Result ε))
  | _, [] => []
  | gone, .leave i :: steps => resultsSent endpoints (gone ++ [i]) steps
  | gone, .send i result :: steps =>
    (if i ∈ gone then []
      else endpoints[i]?.toList.map fun e => ⟨e.id, .rolloutResult, .task, result⟩) ++
      resultsSent endpoints gone steps
  | gone, _ :: steps => resultsSent endpoints gone steps

lemma commandsTo_append (role : String) (steps later : List (Step μ ε)) :
    commandsTo role (steps ++ later) = commandsTo role steps ++ commandsTo role later :=
  List.filterMap_append

lemma departed_append (steps later : List (Step μ ε)) :
    departed (steps ++ later) = departed steps ++ departed later :=
  List.filterMap_append

lemma resultsSent_append (endpoints : List (Endpoint μ)) (gone : List Nat)
    (steps later : List (Step μ ε)) :
    resultsSent endpoints gone (steps ++ later) =
      resultsSent endpoints gone steps ++ resultsSent endpoints (gone ++ departed steps) later := by
  induction steps generalizing gone with
  | nil => simp [resultsSent, departed]
  | cons x steps ih =>
    cases x with
    | leave i =>
      have hgone : gone ++ departed (Step.leave i :: steps) = gone ++ [i] ++ departed steps := by
        simp [departed]
      rw [List.cons_append, resultsSent, resultsSent, ih, hgone]
    | send i result =>
      rw [List.cons_append, resultsSent, resultsSent, ih, List.append_assoc]
      rfl
    | _ => exact ih gone

/-- After some steps the endpoint at position `i` is what has become of `e`, and its peer has taken
`taken`. -/
structure Served (node : PeerId) (steps : List (Step μ ε)) (i : Nat) (e : Endpoint μ)
    (taken : List (Envelope (Command μ))) (e' : Endpoint μ) : Prop where
  id : e'.id = e.id
  role : e'.role = e.role
  alive : e'.alive = true ↔ i ∉ departed steps
  queue : i ∉ departed steps →
    taken ++ e'.commands = (commandsTo e.role steps).map (Command.envelope node)

/-- The traffic on a network `n` after some steps. -/
structure Carried (n : ChannelNetwork μ ε) (steps : List (Step μ ε)) (t : Traffic μ ε) : Prop where
  node : t.network.node = n.node
  attached : t.network.attached = true
  length : t.network.endpoints.length = n.endpoints.length
  served : ∀ i e, n.endpoints[i]? = some e → ∃ e', t.network.endpoints[i]? = some e' ∧
    Served n.node steps i e (t.takenBy i) e'
  results : t.received ++ t.network.inbox = resultsSent n.endpoints [] steps

variable {n : ChannelNetwork μ ε} {steps : List (Step μ ε)} {t : Traffic μ ε}

/-- A peer does not notice a step that neither sends a command to its role nor makes it leave. -/
lemma Served.of_silent {node : PeerId} {i : Nat} {e e' : Endpoint μ}
    {taken : List (Envelope (Command μ))} (h : Served node steps i e taken e') {x : Step μ ε}
    (hcommands : commandsTo e.role [x] = []) (hdeparted : i ∉ departed [x]) :
    Served node (steps ++ [x]) i e taken e' := by
  have hiff : i ∉ departed (steps ++ [x]) ↔ i ∉ departed steps := by
    simp [departed_append, hdeparted]
  refine ⟨h.id, h.role, h.alive.trans hiff.symm, ?_⟩
  rw [hiff, commandsTo_append, hcommands, List.append_nil]
  exact h.queue

/-- Nor does any peer notice what happens to the inbox. -/
lemma Carried.served_of_silent (h : Carried n steps t) {x : Step μ ε}
    (hcommands : ∀ role, commandsTo role [x] = []) (hdeparted : departed [x] = []) :
    ∀ i e, n.endpoints[i]? = some e → ∃ e', t.network.endpoints[i]? = some e' ∧
      Served n.node (steps ++ [x]) i e (t.takenBy i) e' := by
  intro i e he
  obtain ⟨e', he', hserved⟩ := h.served i e he
  exact ⟨e', he', hserved.of_silent (hcommands e.role) (by simp [hdeparted])⟩

lemma Carried.results_of_silent (h : Carried n steps t) {x : Step μ ε}
    (hsent : ∀ gone, resultsSent n.endpoints gone [x] = []) :
    t.received ++ t.network.inbox = resultsSent n.endpoints [] (steps ++ [x]) := by
  rw [resultsSent_append, hsent, List.append_nil]
  exact h.results

/-- A peer gets the commands of its role, in its queue if it is still there. -/
lemma Served.deliver {node : PeerId} {i : Nat} {e e' : Endpoint μ}
    {taken : List (Envelope (Command μ))} (h : Served node steps i e taken e') (role : String)
    (command : Command μ) :
    Served node (steps ++ [.broadcast role command]) i e taken
      (e'.deliver role (command.envelope node)) := by
  have hcommands : commandsTo e.role [(.broadcast role command : Step μ ε)] =
      if role = e.role then [command] else [] := by
    by_cases hrole : role = e.role <;> simp [commandsTo, hrole]
  have hdeparted : departed (steps ++ [.broadcast role command]) = departed steps := by
    simp [departed]
  refine ⟨?_, ?_, ?_, ?_⟩
  · rw [Endpoint.deliver_id, h.id]
  · rw [Endpoint.deliver_role, h.role]
  · rw [Endpoint.deliver_alive, hdeparted, h.alive]
  · rw [hdeparted]
    intro hthere
    rw [commandsTo_append, hcommands, Endpoint.deliver, h.role]
    by_cases hrole : role = e.role
    · rw [if_pos hrole, if_pos ⟨hrole.symm, h.alive.mpr hthere⟩, List.map_append, ← h.queue hthere,
        List.append_assoc]
      rfl
    · rw [if_neg hrole, if_neg fun hc => hrole hc.1.symm, List.append_nil]
      exact h.queue hthere

lemma Carried.broadcast (h : Carried n steps t) (role : String) (command : Command μ) :
    Carried n (steps ++ [.broadcast role command]) (t.step (.broadcast role command)) := by
  have hendpoints := t.network.broadcast_endpoints role command
  have hresults := h.results_of_silent (x := .broadcast role command) fun _ => rfl
  rw [← t.network.broadcast_inbox role command] at hresults
  refine ⟨?_, ?_, ?_, ?_, hresults⟩
  · rw [Traffic.step, broadcast_network]
    exact h.node
  · rw [Traffic.step, broadcast_network]
    exact h.attached
  · rw [Traffic.step, hendpoints, List.length_map, h.length]
  · intro i e he
    obtain ⟨e', he', hserved⟩ := h.served i e he
    refine ⟨_, ?_, hserved.deliver role command⟩
    rw [Traffic.step, hendpoints, List.getElem?_map, he', Option.map_some, h.node]

lemma Carried.receive (h : Carried n steps t) :
    Carried n (steps ++ [.receive]) (t.step .receive) := by
  have hserved := h.served_of_silent (x := .receive) (fun _ => rfl) rfl
  have hresults := h.results_of_silent (x := .receive) fun _ => rfl
  cases hinbox : t.network.inbox with
  | nil =>
    have hstep : t.step .receive = t := by
      cases hclosed : t.network.isClosed <;>
        simp [Traffic.step, Network.receive, Network.arrivals, Network.isClosed, hinbox, hclosed]
    rw [hstep]
    exact ⟨h.node, h.attached, h.length, hserved, hresults⟩
  | cons e rest =>
    have hstep : t.step .receive =
        { t with network := { t.network with inbox := rest }, received := t.received ++ [e] } := by
      simp [Traffic.step, Network.receive, Network.arrivals, Network.consume, hinbox]
    rw [hstep]
    refine ⟨h.node, h.attached, h.length, hserved, ?_⟩
    rw [← hresults, hinbox, List.append_assoc]
    rfl

lemma Carried.take (h : Carried n steps t) (i : Nat) :
    Carried n (steps ++ [.take i]) (t.step (.take i)) := by
  have hserved := h.served_of_silent (x := .take i) (fun _ => rfl) rfl
  have hresults := h.results_of_silent (x := .take i) fun _ => rfl
  rcases t.network.takeCommand_cases i with hn | ⟨e, c, rest, he, -, hcommands, hn⟩
  · have hstep : t.step (.take i) = t := by simp [Traffic.step, hn, h.attached]
    rw [hstep]
    exact ⟨h.node, h.attached, h.length, hserved, hresults⟩
  · rw [Traffic.step, hn]
    refine ⟨h.node, h.attached, ?_, ?_, hresults⟩
    · rw [setQueue_endpoints he, List.length_set, h.length]
    · intro j e₀ he₀
      obtain ⟨e', he', hs⟩ := hserved j e₀ he₀
      dsimp only
      by_cases hj : i = j
      · subst hj
        obtain rfl : e = e' := Option.some.inj (he.symm.trans he')
        refine ⟨{ e with commands := rest }, setQueue_getElem? he rest, hs.id, hs.role, hs.alive,
          fun hthere => ?_⟩
        · -- The command goes from the front of the queue to the end of those taken.
          have hqueue := hs.queue hthere
          rw [hcommands] at hqueue
          simpa [Traffic.takenBy] using hqueue
      · refine ⟨e', ?_, ?_⟩
        · rw [setQueue_endpoints he, List.getElem?_set_ne hj, he']
        · simpa [Traffic.takenBy, hj] using hs

/-- A result arrives unless its sender has left. -/
lemma Carried.arriving_eq (h : Carried n steps t) (i : Nat) (result : Result ε) :
    t.network.arriving i result = resultsSent n.endpoints (departed steps) [.send i result] := by
  rw [arriving_of_attached h.attached, Wiring.endpoint?, resultsSent, resultsSent, List.append_nil]
  cases he : n.endpoints[i]? with
  | none =>
    have hnone : t.network.endpoints[i]? = none := by
      rw [List.getElem?_eq_none_iff, h.length]
      exact List.getElem?_eq_none_iff.mp he
    simp [hnone]
  | some e =>
    obtain ⟨e', he', hs⟩ := h.served i e he
    rw [he']
    by_cases hgone : i ∈ departed steps
    · have hdead : e'.alive = false := Bool.eq_false_iff.mpr fun hc => hs.alive.mp hc hgone
      simp [hgone, hdead]
    · simp [hgone, hs.alive.mpr hgone, hs.id, Result.envelope]

lemma Carried.send (h : Carried n steps t) (i : Nat) (result : Result ε) :
    Carried n (steps ++ [.send i result]) (t.step (.send i result)) := by
  have hserved := h.served_of_silent (x := .send i result) (fun _ => rfl) rfl
  have hinbox := t.network.send_inbox i result
  obtain ⟨inbox, hn⟩ := t.network.send_network i result
  rw [hn] at hinbox
  rw [Traffic.step, hn]
  refine ⟨h.node, h.attached, h.length, hserved, ?_⟩
  dsimp only at hinbox ⊢
  rw [hinbox, ← List.append_assoc, h.results, h.arriving_eq, resultsSent_append, List.nil_append]

lemma Carried.leave (h : Carried n steps t) (i : Nat) :
    Carried n (steps ++ [.leave i]) (t.step (.leave i)) := by
  have hresults := h.results_of_silent (x := .leave i) fun _ => rfl
  rw [Traffic.step]
  refine ⟨h.node, h.attached, (t.network.dropEndpoint_length i).trans h.length, ?_, hresults⟩
  intro j e₀ he₀
  obtain ⟨e', he', hs⟩ := h.served j e₀ he₀
  dsimp only
  by_cases hj : j = i
  · subst hj
    have hgone : j ∈ departed (steps ++ [.leave j]) := by simp [departed]
    obtain ⟨e'', he'', hid, hrole, halive⟩ := dropEndpoint_getElem?_self he'
    refine ⟨e'', he'', hid.trans hs.id, hrole.trans hs.role, ?_, fun hthere => (hthere hgone).elim⟩
    simp [halive, hgone]
  · refine ⟨e', (t.network.dropEndpoint_getElem?_ne hj).trans he', ?_⟩
    exact hs.of_silent rfl (by simp [departed, hj])

lemma Carried.step (h : Carried n steps t) (x : Step μ ε) :
    Carried n (steps ++ [x]) (t.step x) := by
  cases x with
  | broadcast role command => exact h.broadcast role command
  | receive => exact h.receive
  | take i => exact h.take i
  | send i result => exact h.send i result
  | leave i => exact h.leave i

lemma Carried.run (h : Carried n steps t) (later : List (Step μ ε)) :
    Carried n (steps ++ later) (t.run later) := by
  induction later generalizing steps t with
  | nil => rwa [List.append_nil]
  | cons x later ih =>
    have hrest := ih (h.step x)
    rwa [List.append_assoc] at hrest

lemma Carried.isClosed_iff (h : Carried n steps t) :
    t.network.isClosed = true ↔ ∀ i, i < n.endpoints.length → i ∈ departed steps := by
  have hserved (i : Nat) (hi : i < n.endpoints.length) :
      ∃ hi' : i < t.network.endpoints.length,
        t.network.endpoints[i].alive = true ↔ i ∉ departed steps := by
    obtain ⟨e', he', hs⟩ := h.served i _ (List.getElem?_eq_getElem hi)
    obtain ⟨hi', rfl⟩ := List.getElem?_eq_some_iff.mp he'
    exact ⟨hi', hs.alive⟩
  rw [ChannelNetwork.isClosed_iff]
  constructor
  · intro hclosed i hi
    obtain ⟨hi', halive⟩ := hserved i hi
    have hdead := hclosed _ (List.getElem_mem hi')
    by_contra hthere
    simp [halive.mpr hthere] at hdead
  · intro hgone e he
    obtain ⟨i, hi', rfl⟩ := List.mem_iff_getElem.mp he
    have hi := h.length ▸ hi'
    obtain ⟨_, halive⟩ := hserved i hi
    exact Bool.eq_false_iff.mpr fun hc => halive.mp hc (hgone i hi)

/-- A receive fails once the inbox is empty and can not be filled any more. -/
lemma receive_eq_disconnected (n : ChannelNetwork μ ε) :
    (Network.receive n).1 = .arrival (.error .disconnected) ↔
      n.inbox = [] ∧ n.isClosed = true := by
  cases hinbox : n.inbox with
  | nil =>
    cases hclosed : n.isClosed <;>
      simp [Network.receive, Network.arrivals, Network.isClosed, hinbox, hclosed]
  | cons e rest => simp [Network.receive, Network.arrivals, hinbox]

lemma carried_build (node : PeerId) (groups : List (String × Nat)) :
    Carried (build node groups : ChannelNetwork μ ε) [] { network := build node groups } where
  node := rfl
  attached := rfl
  length := rfl
  served := by
    intro i e he
    obtain ⟨g, -, k, rfl⟩ := mem_build (List.mem_of_getElem? he)
    exact ⟨_, he, rfl, rfl, by simp [departed], fun _ => rfl⟩
  results := rfl

/-- On a built network, after any steps in any order: every peer that has not left has been sent the
commands for its role and no others, in order and once each, and has taken the first of them while
the rest wait in its queue, from the front of which it takes the next; the coordinator has received
the first of the results sent while the rest wait in the inbox; and a receive fails just when the
inbox is empty and all peers have left. -/
theorem traffic_of_run (node : PeerId) (groups : List (String × Nat)) (steps : List (Step μ ε)) :
    let n : ChannelNetwork μ ε := build node groups
    let t := Traffic.run { network := n } steps
    (∀ i e, n.endpoints[i]? = some e → i ∉ departed steps →
        ∃ e', t.network.endpoints[i]? = some e' ∧ e'.id = e.id ∧ e'.role = e.role ∧
          t.takenBy i ++ e'.commands =
            (commandsTo e.role steps).map (fun c => ⟨node, c.tag, c.session, c⟩) ∧
          (t.network.takeCommand i).1 =
            match e'.commands with
            | c :: _ => .command c
            | [] => .waiting) ∧
      t.received ++ t.network.inbox = resultsSent n.endpoints [] steps ∧
      t.received.length + t.network.pending = (resultsSent n.endpoints [] steps).length ∧
      ((Network.receive t.network).1 = .arrival (.error .disconnected) ↔
        t.network.inbox = [] ∧ ∀ i, i < n.endpoints.length → i ∈ departed steps) := by
  intro n t
  have hcarried : Carried n steps t := (carried_build node groups).run steps
  refine ⟨fun i e he hthere => ?_, hcarried.results, ?_, ?_⟩
  · obtain ⟨e', he', hs⟩ := hcarried.served i e he
    refine ⟨e', he', hs.id, hs.role, hs.queue hthere, ?_⟩
    exact takeCommand_of_alive hcarried.attached he' (hs.alive.mpr hthere)
  · rw [← hcarried.results, List.length_append, pending]
  · rw [receive_eq_disconnected, hcarried.isClosed_iff]

def firstInstruction : Instruction Unit where
  rolloutIndex := 7
  segmentIndex := 0
  numSteps := 4

/-- Both actors get an instruction. One answers it; the other leaves and can send nothing more. -/
def crossedSteps : List (Step Unit Nat) :=
  [.broadcast "actor" (.rollout firstInstruction), .take 0, .leave 1, .broadcast "critic" .exit,
    .send 2 ⟨7, 0, 2, 2, false, none, 11, none⟩, .broadcast "actor" .exit,
    .send 1 ⟨7, 0, 3, 3, false, none, 12, none⟩, .receive,
    .send 0 ⟨7, 0, 4, 4, false, none, 13, none⟩]

def crossedGroups : List (String × Nat) := [("actor", 2), ("critic", 1)]

def crossedTraffic (steps : List (Step Unit Nat)) : Traffic Unit Nat :=
  Traffic.run { network := build "learner" crossedGroups } steps

theorem traffic_of_crossedSteps :
    (∃ e, (crossedTraffic crossedSteps).network.endpoints[0]? = some e ∧
      (crossedTraffic crossedSteps).takenBy 0 ++ e.commands =
        [⟨"learner", .rollout, .task, .rollout firstInstruction⟩,
          ⟨"learner", .exit, .notification, .exit⟩] ∧
      ((crossedTraffic crossedSteps).network.takeCommand 0).1 =
        .command ⟨"learner", .exit, .notification, .exit⟩) ∧
      (crossedTraffic crossedSteps).received ++ (crossedTraffic crossedSteps).network.inbox =
        [⟨"critic.0", .rolloutResult, .task, ⟨7, 0, 2, 2, false, none, 11, none⟩⟩,
          ⟨"actor.0", .rolloutResult, .task, ⟨7, 0, 4, 4, false, none, 13, none⟩⟩] ∧
      (Network.receive
        (crossedTraffic (crossedSteps ++ [.leave 2, .leave 0, .receive])).network).1 =
        .arrival (.error .disconnected) := by
  obtain ⟨hpeers, hresults, -, -⟩ := traffic_of_run "learner" crossedGroups crossedSteps
  obtain ⟨-, -, -, hreceive⟩ := traffic_of_run "learner" crossedGroups
    (crossedSteps ++ [.leave 2, .leave 0, .receive])
  refine ⟨?_, ?_, ?_⟩
  · obtain ⟨e, he, -, -, hcommands, htake⟩ := hpeers 0 _ (by rfl) (by decide)
    obtain rfl := Option.some.inj (he.symm.trans rfl)
    exact ⟨_, he, hcommands, htake⟩
  · exact hresults
  · exact hreceive.mpr ⟨by rfl, by decide⟩

end ExperienceCollection.ChannelNetwork
