import ExperienceCollection.Proofs.Network.Links
import Mathlib.Data.List.Basic

/-!
# Steps of a channel network

What sending, taking a command, leaving and broadcasting do to the inbox and to the endpoints. Once
all peers are gone nothing reaches the inbox any more.
-/

namespace ExperienceCollection

variable {μ ε : Type}

namespace ChannelNetwork

@[simp] lemma rewire_toWiring (n : ChannelNetwork μ ε) (w : Wiring μ) :
    (n.rewire w).toWiring = w := rfl

@[simp] lemma rewire_inbox (n : ChannelNetwork μ ε) (w : Wiring μ) :
    (n.rewire w).inbox = n.inbox := rfl

lemma setQueue_endpoints {n : ChannelNetwork μ ε} {i : Nat} {e : Endpoint μ}
    (he : n.endpoints[i]? = some e) (commands : List (Envelope (Command μ))) :
    (n.rewire (n.setQueue i commands)).endpoints = n.endpoints.set i { e with commands } :=
  Wiring.setQueue_endpoints he commands

lemma setQueue_getElem? {n : ChannelNetwork μ ε} {i : Nat} {e : Endpoint μ}
    (he : n.endpoints[i]? = some e) (commands : List (Envelope (Command μ))) :
    (n.rewire (n.setQueue i commands)).endpoints[i]? = some { e with commands } := by
  rw [setQueue_endpoints he, List.getElem?_set_self (List.getElem?_eq_some_iff.mp he).1]

/-- The result of an endpoint as it arrives in the inbox, if it can be sent. -/
def arriving (n : ChannelNetwork μ ε) (i : Nat) (result : Result ε) : List (Envelope (Result ε)) :=
  match (n.send i result).1 with
  | .ok _ => (n.endpoint? i).toList.map fun e => result.envelope e.id
  | .error _ => []

lemma send_inbox (n : ChannelNetwork μ ε) (i : Nat) (result : Result ε) :
    (n.send i result).2.inbox = n.inbox ++ n.arriving i result := by
  unfold arriving send
  cases n.attached <;> cases h : n.endpoint? i <;> simp

/-- Only the inbox can change when a result is sent. -/
lemma send_network (n : ChannelNetwork μ ε) (i : Nat) (result : Result ε) :
    ∃ inbox, (n.send i result).2 = { n with inbox } := by
  unfold send
  split
  · exact ⟨_, rfl⟩
  · exact ⟨_, rfl⟩

lemma arriving_of_attached {n : ChannelNetwork μ ε} (h : n.attached = true) (i : Nat)
    (result : Result ε) :
    n.arriving i result = (n.endpoint? i).toList.map fun e => result.envelope e.id := by
  unfold arriving send
  rw [h]
  cases n.endpoint? i <;> rfl

lemma send_isClosed (n : ChannelNetwork μ ε) (i : Nat) (result : Result ε) :
    (n.send i result).2.isClosed = n.isClosed := by
  unfold send
  split <;> rfl

lemma isClosed_iff {n : ChannelNetwork μ ε} :
    n.isClosed = true ↔ ∀ e ∈ n.endpoints, e.alive = false := by
  rw [isClosed, decide_eq_true_eq, Wiring.senders_eq_zero]

lemma endpoint?_of_isClosed {n : ChannelNetwork μ ε} (h : n.isClosed = true) (i : Nat) :
    n.endpoint? i = none := by
  rw [Wiring.endpoint?, Option.filter_eq_none_iff]
  intro e he
  rw [isClosed_iff.mp h e (List.mem_of_getElem? he)]
  decide

lemma arriving_of_isClosed {n : ChannelNetwork μ ε} (h : n.isClosed = true) (i : Nat)
    (result : Result ε) : n.arriving i result = [] := by
  unfold arriving
  rw [endpoint?_of_isClosed h]
  split <;> rfl

lemma takeCommand_inbox (n : ChannelNetwork μ ε) (i : Nat) :
    (n.takeCommand i).2.inbox = n.inbox := by
  unfold takeCommand
  split <;> rfl

lemma takeCommand_isClosed (n : ChannelNetwork μ ε) (i : Nat) :
    (n.takeCommand i).2.isClosed = n.isClosed := by
  unfold takeCommand
  split <;> rfl

lemma dropEndpoint_of_none {n : ChannelNetwork μ ε} {i : Nat} (h : n.endpoint? i = none) :
    n.dropEndpoint i = n := by
  rw [dropEndpoint, Wiring.drop_of_none h]
  rfl

lemma dropEndpoint_of_alive {n : ChannelNetwork μ ε} {i : Nat} {e : Endpoint μ}
    (he : n.endpoints[i]? = some e) (halive : e.alive = true) :
    (n.dropEndpoint i).endpoints = n.endpoints.set i e.leave :=
  Wiring.drop_of_alive he halive

lemma dropEndpoint_length (n : ChannelNetwork μ ε) (i : Nat) :
    (n.dropEndpoint i).endpoints.length = n.endpoints.length := by
  have hlength := congrArg List.length (n.drop_roster i)
  rwa [Wiring.roster, Wiring.roster, List.length_map, List.length_map] at hlength

/-- A peer that leaves keeps its name and its role. -/
lemma dropEndpoint_getElem?_self {n : ChannelNetwork μ ε} {i : Nat} {e : Endpoint μ}
    (he : n.endpoints[i]? = some e) :
    ∃ e', (n.dropEndpoint i).endpoints[i]? = some e' ∧ e'.id = e.id ∧ e'.role = e.role ∧
      e'.alive = false := by
  cases halive : e.alive with
  | true =>
    obtain ⟨hi, -⟩ := List.getElem?_eq_some_iff.mp he
    refine ⟨e.leave, ?_, rfl, rfl, rfl⟩
    rw [dropEndpoint_of_alive he halive, List.getElem?_set_self hi]
  | false =>
    have hgone : n.endpoint? i = none := by
      rw [Wiring.endpoint?, he]
      exact if_neg (by simp [halive])
    refine ⟨e, ?_, rfl, rfl, halive⟩
    rw [dropEndpoint_of_none hgone, he]

lemma dropEndpoint_getElem?_ne (n : ChannelNetwork μ ε) {i j : Nat} (hij : i ≠ j) :
    (n.dropEndpoint j).endpoints[i]? = n.endpoints[i]? := by
  cases hthere : n.endpoint? j with
  | none => rw [dropEndpoint_of_none hthere]
  | some e =>
    obtain ⟨he, halive⟩ := Wiring.endpoint?_eq_some.mp hthere
    rw [dropEndpoint_of_alive he halive, List.getElem?_set_ne (Ne.symm hij)]

lemma dropEndpoint_isClosed {n : ChannelNetwork μ ε} (h : n.isClosed = true) (i : Nat) :
    (n.dropEndpoint i).isClosed = true := by
  rw [dropEndpoint_of_none (endpoint?_of_isClosed h i)]
  exact h

/-- A broadcast comes to the endpoints of its role that are still there. -/
lemma broadcast_network (n : ChannelNetwork μ ε) (role : String) (command : Command μ) :
    (n.broadcast role command).network =
      n.rewire (n.deliver role (command.envelope n.node)) := by
  by_cases h : role ∈ n.roles
  · rw [broadcast, Wiring.get?_groups h, ← Wiring.foldl_post_links]
  · rw [broadcast, Wiring.get?_groups_eq_none h, Wiring.deliver_unregistered h]
    rfl

lemma broadcast_endpoints (n : ChannelNetwork μ ε) (role : String) (command : Command μ) :
    (n.broadcast role command).network.endpoints =
      n.endpoints.map (Endpoint.deliver role (command.envelope n.node)) := by
  rw [broadcast_network, rewire_toWiring, Wiring.deliver_endpoints]

lemma broadcast_inbox (n : ChannelNetwork μ ε) (role : String) (command : Command μ) :
    (n.broadcast role command).network.inbox = n.inbox := by
  rw [broadcast_network, rewire_inbox]

lemma broadcast_outcome {n : ChannelNetwork μ ε} {role : String} (h : role ∈ n.roles)
    (command : Command μ) : (n.broadcast role command).outcome = .ok () := by
  rw [broadcast, Wiring.get?_groups h]

lemma peers_registered {n : ChannelNetwork μ ε} {role : String} (h : role ∈ n.roles) :
    n.peers role = .ok ((Wiring.members n.endpoints role).map Endpoint.id) := by
  rw [peers, Wiring.get?_groups h]
  exact congrArg _ (n.toWiring.id_links role)

lemma peers_unregistered {n : ChannelNetwork μ ε} {role : String} (h : role ∉ n.roles) :
    n.peers role = .error (.unknownGroup role) := by
  rw [peers, Wiring.get?_groups_eq_none h]

/-- An endpoint that is asked for its next command hands out the first one in its queue. -/
lemma takeCommand_cases (n : ChannelNetwork μ ε) (i : Nat) :
    (n.takeCommand i = (if n.attached then .waiting else .disconnected, n)) ∨
      ∃ e c rest, n.endpoints[i]? = some e ∧ e.alive = true ∧ e.commands = c :: rest ∧
        n.takeCommand i = (.command c, n.rewire (n.setQueue i rest)) := by
  unfold takeCommand
  split
  · rename_i c rest hc
    obtain ⟨e, he, hcommands⟩ := Option.map_eq_some_iff.mp hc
    obtain ⟨hget, halive⟩ := Wiring.endpoint?_eq_some.mp he
    exact .inr ⟨e, c, rest, hget, halive, hcommands, rfl⟩
  · exact .inl rfl

/-- A command that is taken was the first one in the queue of its endpoint. -/
lemma takeCommand_eq_command {n : ChannelNetwork μ ε} {i : Nat} {c : Envelope (Command μ)}
    (h : (n.takeCommand i).1 = .command c) :
    ∃ e rest, n.endpoints[i]? = some e ∧ e.commands = c :: rest ∧
      (n.takeCommand i).2 = n.rewire (n.setQueue i rest) := by
  rcases n.takeCommand_cases i with hn | ⟨e, c', rest, he, -, hcommands, hn⟩
  · rw [hn] at h
    split at h <;> cases h
  · rw [hn] at h
    obtain rfl := Order.command.inj h
    refine ⟨e, rest, he, hcommands, ?_⟩
    rw [hn]

lemma takeCommand_ne_disconnected {n : ChannelNetwork μ ε} (h : n.attached = true) (i : Nat) :
    (n.takeCommand i).1 ≠ .disconnected := by
  rcases n.takeCommand_cases i with hn | ⟨e, c, rest, -, -, -, hn⟩
  · rw [hn, h]
    exact nofun
  · rw [hn]
    exact nofun

lemma takeCommand_of_cons {n : ChannelNetwork μ ε} {i : Nat} {e : Endpoint μ}
    {c : Envelope (Command μ)} {rest : List (Envelope (Command μ))}
    (he : n.endpoints[i]? = some e) (halive : e.alive = true) (hcommands : e.commands = c :: rest) :
    (n.takeCommand i).1 = .command c := by
  have hendpoint : n.endpoint? i = some e := Wiring.endpoint?_eq_some.mpr ⟨he, halive⟩
  rw [takeCommand, hendpoint, Option.map_some, hcommands]

/-- As long as the coordinator is there, a peer is handed the command at the front of its queue, or
waits for one. -/
lemma takeCommand_of_alive {n : ChannelNetwork μ ε} {i : Nat} {e : Endpoint μ}
    (hattached : n.attached = true) (he : n.endpoints[i]? = some e) (halive : e.alive = true) :
    (n.takeCommand i).1 =
      match e.commands with
      | c :: _ => .command c
      | [] => .waiting := by
  have hendpoint : n.endpoint? i = some e := Wiring.endpoint?_eq_some.mpr ⟨he, halive⟩
  rw [takeCommand, hendpoint, Option.map_some]
  cases e.commands with
  | nil => exact if_pos hattached
  | cons c rest => rfl

lemma send_of_alive {n : ChannelNetwork μ ε} {i : Nat} {e : Endpoint μ}
    (hn : n.attached = true) (he : n.endpoints[i]? = some e) (halive : e.alive = true)
    (result : Result ε) :
    n.send i result = (.ok (), { n with inbox := n.inbox ++ [result.envelope e.id] }) := by
  have hendpoint : n.endpoint? i = some e := Wiring.endpoint?_eq_some.mpr ⟨he, halive⟩
  rw [send, hn, hendpoint]

/-- A result is sent by an endpoint that is still there, or nothing happens. -/
lemma send_cases (n : ChannelNetwork μ ε) (i : Nat) (result : Result ε) :
    (∃ e, n.endpoints[i]? = some e ∧
      n.send i result = (.ok (), { n with inbox := n.inbox ++ [result.envelope e.id] })) ∨
      n.send i result = (.error .disconnected, n) := by
  unfold send
  split
  · rename_i e _ he
    exact .inl ⟨e, (Wiring.endpoint?_eq_some.mp he).1, rfl⟩
  · exact .inr rfl

end ChannelNetwork

end ExperienceCollection
