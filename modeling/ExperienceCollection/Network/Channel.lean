import ExperienceCollection.Counter
import ExperienceCollection.Network.Basic

/-!
# Channel networks

A network inside one process. Every peer has its own queue of commands, and all peers share one
queue of results, the inbox of the coordinator. Queues have no bound, so sending never waits.

Peers are registered in groups under a role and are named `role.0`, `role.1` and so on. A role
that is registered again goes on counting. The coordinator keeps a link to every peer, group by
group; at the other end are the endpoints of the peers, in the order of registration. The two are
kept apart, and a `Wiring` carries the proof that they agree.
-/

namespace ExperienceCollection

/-- The side of a peer: its name, its role, the node it reports to, the commands waiting for it,
and whether it is still there. -/
structure Endpoint (μ : Type) where
  id : PeerId
  role : String
  coordinator : PeerId
  commands : List (Envelope (Command μ)) := []
  alive : Bool := true

/-- What is left of a peer that goes. Commands still waiting for it go with it. -/
def Endpoint.leave {μ : Type} (e : Endpoint μ) : Endpoint μ :=
  { e with commands := [], alive := false }

/-- The link of the coordinator to a peer: the name of the peer, and the position of the endpoint at
the other end of its queue. -/
structure PeerLink where
  id : PeerId
  queue : Nat
  deriving DecidableEq, Repr

namespace Wiring

variable {μ : Type}

/-- The names and the roles of endpoints. -/
def roster (endpoints : List (Endpoint μ)) : List (PeerId × String) :=
  endpoints.map fun e => (e.id, e.role)

theorem roster_modify (endpoints : List (Endpoint μ)) (i : Nat) {f : Endpoint μ → Endpoint μ}
    (hf : ∀ e, (f e).id = e.id ∧ (f e).role = e.role) :
    roster (endpoints.modify i f) = roster endpoints := by
  induction endpoints generalizing i with
  | nil => rw [List.modify_nil]
  | cons e endpoints ih =>
    cases i with
    | zero =>
      rw [List.modify_zero_cons, roster, roster, List.map_cons, (hf e).1, (hf e).2, List.map_cons]
    | succ i =>
      rw [List.modify_succ_cons]
      exact congrArg (List.cons (e.id, e.role)) (ih i)

/-- The links that lead to the peers of a role, in the order of a roster. -/
def linksTo (role : String) (peers : List (PeerId × String)) : List PeerLink :=
  (peers.zipIdx.filter fun x => x.1.2 = role).map fun x => ⟨x.1.1, x.2⟩

theorem linksTo_concat (role : String) (peers : List (PeerId × String)) (peer : PeerId × String) :
    linksTo role (peers ++ [peer]) =
      linksTo role peers ++ if peer.2 = role then [⟨peer.1, peers.length⟩] else [] := by
  unfold linksTo
  rw [List.zipIdx_append, List.filter_append, List.map_append]
  by_cases h : peer.2 = role <;> simp [h]

/-- The links in the group of a role; none if there is no such group. -/
def linksOf (groups : KeyMap (List PeerLink)) (role : String) : List PeerLink :=
  (groups.get? role).getD []

theorem linksOf_insert (groups : KeyMap (List PeerLink)) (role other : String)
    (links : List PeerLink) :
    linksOf (groups.insert role links) other =
      if other = role then links else linksOf groups other := by
  unfold linksOf
  rw [KeyMap.get?_insert]
  split <;> rfl

/-- The links of each group lead to the endpoints of its role, in order and once each. -/
def Linked (groups : KeyMap (List PeerLink)) (endpoints : List (Endpoint μ)) : Prop :=
  ∀ role, linksOf groups role = linksTo role (roster endpoints)

/-- There is a sender into the inbox for every endpoint that is still there. -/
def Counted (senders : Nat) (endpoints : List (Endpoint μ)) : Prop :=
  senders = endpoints.countP Endpoint.alive

variable {groups : KeyMap (List PeerLink)} {endpoints : List (Endpoint μ)} {senders : Nat}

theorem Linked.of_roster (h : Linked groups endpoints) {after : List (Endpoint μ)}
    (hroster : roster after = roster endpoints) : Linked groups after := by
  intro role
  rw [hroster]
  exact h role

theorem Linked.openGroup (h : Linked groups endpoints) (role : String) :
    Linked (groups.insert role (linksOf groups role)) endpoints := by
  intro other
  rw [linksOf_insert, ← h other]
  split
  · rename_i hrole
    rw [hrole]
  · rfl

theorem Linked.enrol (h : Linked groups endpoints) (e : Endpoint μ) :
    Linked (groups.insert e.role (linksOf groups e.role ++ [⟨e.id, endpoints.length⟩]))
      (endpoints ++ [e]) := by
  intro other
  have hroster : roster (endpoints ++ [e]) = roster endpoints ++ [(e.id, e.role)] :=
    List.map_append
  have hlength : (roster endpoints).length = endpoints.length := List.length_map _
  rw [linksOf_insert, hroster, linksTo_concat, hlength, ← h other]
  by_cases hrole : e.role = other
  · rw [if_pos hrole.symm, if_pos hrole, hrole]
  · rw [if_neg (Ne.symm hrole), if_neg hrole, List.append_nil]

theorem Counted.enrol (h : Counted senders endpoints) {e : Endpoint μ} (he : e.alive = true) :
    Counted (senders + 1) (endpoints ++ [e]) := by
  rw [Counted, List.countP_append, List.countP_singleton, if_pos he, ← h]

theorem Counted.modify (h : Counted senders endpoints) (i : Nat) {f : Endpoint μ → Endpoint μ}
    (hf : ∀ e, (f e).alive = e.alive) : Counted senders (endpoints.modify i f) := by
  subst h
  unfold Counted
  induction endpoints generalizing i with
  | nil => rw [List.modify_nil]
  | cons e endpoints ih =>
    cases i with
    | zero => rw [List.modify_zero_cons, List.countP_cons, List.countP_cons, hf]
    | succ i => rw [List.modify_succ_cons, List.countP_cons, List.countP_cons, ← ih]

/-- A peer that goes takes its sender along. -/
theorem Counted.leave (h : Counted senders endpoints) {i : Nat} {e : Endpoint μ}
    (he : endpoints[i]? = some e) (halive : e.alive = true) :
    Counted (senders - 1) (endpoints.modify i Endpoint.leave) := by
  subst h
  unfold Counted
  induction endpoints generalizing i with
  | nil => cases he
  | cons e' endpoints ih =>
    cases i with
    | zero =>
      obtain rfl : e' = e := Option.some.inj he
      rw [List.modify_zero_cons, List.countP_cons_of_pos halive,
        List.countP_cons_of_neg (fun h => Bool.noConfusion h), Nat.add_sub_cancel]
    | succ i =>
      have hmore : 0 < endpoints.countP Endpoint.alive :=
        List.countP_pos_iff.mpr ⟨e, List.mem_of_getElem? he, halive⟩
      rw [List.modify_succ_cons, List.countP_cons, List.countP_cons, ← ih he]
      omega

end Wiring

/-- The links of a coordinator by role, the endpoints they lead to, and how many senders into the
inbox are left. -/
structure Wiring (μ : Type) where
  groups : KeyMap (List PeerLink)
  endpoints : List (Endpoint μ)
  senders : Nat
  linked : Wiring.Linked groups endpoints
  counted : Wiring.Counted senders endpoints

def peerName (role : String) (i : Nat) : PeerId := role ++ "." ++ toString i

namespace Wiring

variable {μ : Type}

def empty : Wiring μ where
  groups := .empty
  endpoints := []
  senders := 0
  linked _ := rfl
  counted := rfl

def roles (w : Wiring μ) : List String := w.groups.keys

def links (w : Wiring μ) (role : String) : List PeerLink := linksOf w.groups role

/-- Opens the group of a role, if it has none. -/
def openGroup (w : Wiring μ) (role : String) : Wiring μ :=
  { w with groups := w.groups.insert role (w.links role), linked := w.linked.openGroup role }

/-- Adds a new endpoint, and a link to it. -/
def enrol (w : Wiring μ) (id : PeerId) (role : String) (coordinator : PeerId) : Wiring μ where
  groups := w.groups.insert role (w.links role ++ [⟨id, w.endpoints.length⟩])
  endpoints := w.endpoints ++ [{ id, role, coordinator }]
  senders := w.senders + 1
  linked := w.linked.enrol { id, role, coordinator }
  counted := w.counted.enrol rfl

/-- The numbers of `count` more peers of a role that has `offset` peers. The end of the range is a
sum of machine words, so there are none when it turns. -/
def numbers (offset count : Nat) : List Nat :=
  List.range' offset (Counter.plus offset count - offset)

/-- Registers a group of `count` peers, numbered after those the role already has. -/
def register (coordinator : PeerId) (w : Wiring μ) (role : String) (count : Nat) : Wiring μ :=
  (numbers (w.links role).length count).foldl
    (fun w i => w.enrol (peerName role i) role coordinator) (w.openGroup role)

/-- The endpoint at a position, unless it was dropped. -/
def endpoint? (w : Wiring μ) (i : Nat) : Option (Endpoint μ) :=
  w.endpoints[i]?.filter Endpoint.alive

/-- Replaces the commands that wait for the endpoint at a position. -/
def setQueue (w : Wiring μ) (i : Nat) (commands : List (Envelope (Command μ))) : Wiring μ :=
  { w with
    endpoints := w.endpoints.modify i fun e => { e with commands }
    linked := w.linked.of_roster (roster_modify _ _ fun _ => ⟨rfl, rfl⟩)
    counted := w.counted.modify i fun _ => rfl }

/-- Queues a command over a link, if there is still somebody at the other end. -/
def post (command : Envelope (Command μ)) (w : Wiring μ) (link : PeerLink) : Wiring μ :=
  match w.endpoint? link.queue with
  | some e => w.setQueue link.queue (e.commands ++ [command])
  | none => w

/-- Drops the endpoint at a position together with its sender. -/
def drop (w : Wiring μ) (i : Nat) : Wiring μ :=
  match h : w.endpoint? i with
  | none => w
  | some _ =>
    { w with
      endpoints := w.endpoints.modify i Endpoint.leave
      senders := w.senders - 1
      linked := w.linked.of_roster (roster_modify _ _ fun _ => ⟨rfl, rfl⟩)
      counted := w.counted.leave (Option.filter_eq_some_iff.mp h).1
        (Option.filter_eq_some_iff.mp h).2 }

end Wiring

/-- A coordinator node with its wiring and its inbox. `attached` says whether the coordinator side
is still there. -/
structure ChannelNetwork (μ ε : Type) extends Wiring μ where
  node : PeerId
  inbox : List (Envelope (Result ε)) := []
  attached : Bool := true

namespace ChannelNetwork

variable {μ ε : Type}

/-- The network of the given groups, each a role with a number of peers. -/
def build (node : PeerId) (groups : List (String × Nat)) : ChannelNetwork μ ε where
  node
  toWiring := groups.foldl (fun w g => w.register node g.1 g.2) .empty

/-- Nothing but the wiring changes. -/
def rewire (n : ChannelNetwork μ ε) (w : Wiring μ) : ChannelNetwork μ ε :=
  ⟨w, n.node, n.inbox, n.attached⟩

def pending (n : ChannelNetwork μ ε) : Nat := n.inbox.length

def peers (n : ChannelNetwork μ ε) (role : String) : Except NetworkError (List PeerId) :=
  match n.groups.get? role with
  | some links => .ok (links.map PeerLink.id)
  | none => .error (.unknownGroup role)

/-- Sends a command over all links of a role. Peers that are gone are logged and passed over. -/
def broadcast (n : ChannelNetwork μ ε) (role : String) (command : Command μ) :
    Delivery (ChannelNetwork μ ε) :=
  match n.groups.get? role with
  | some links =>
    let gone := links.filter fun link => (n.endpoint? link.queue).isNone
    { outcome := .ok ()
      network := n.rewire (links.foldl (Wiring.post (command.envelope n.node)) n.toWiring)
      log := gone.map fun link => .peerGone link.id command.tag }
  | none => { outcome := .error (.unknownGroup role), network := n }

/-- Whether all senders into the inbox are gone. -/
def isClosed (n : ChannelNetwork μ ε) : Bool := n.senders = 0

instance : Network (ChannelNetwork μ ε) μ ε where
  node := node
  peers := peers
  broadcast := broadcast
  arrivals n := n.inbox.map .ok
  isClosed := isClosed
  consume n k := { n with inbox := n.inbox.drop k }

inductive Order (μ : Type) where
  | command (c : Envelope (Command μ))
  | disconnected
  | waiting

/-- Takes the next command of the endpoint at a position. Commands queued before the coordinator
went away are still delivered. -/
def takeCommand (n : ChannelNetwork μ ε) (i : Nat) : Order μ × ChannelNetwork μ ε :=
  match (n.endpoint? i).map Endpoint.commands with
  | some (c :: rest) => (.command c, n.rewire (n.setQueue i rest))
  | _ => (if n.attached then .waiting else .disconnected, n)

/-- Sends a result from the endpoint at a position, stamped with its name. -/
def send (n : ChannelNetwork μ ε) (i : Nat) (result : Result ε) :
    Except NetworkError Unit × ChannelNetwork μ ε :=
  match n.attached, n.endpoint? i with
  | true, some e => (.ok (), { n with inbox := n.inbox ++ [result.envelope e.id] })
  | _, _ => (.error .disconnected, n)

def dropEndpoint (n : ChannelNetwork μ ε) (i : Nat) : ChannelNetwork μ ε :=
  n.rewire (n.drop i)

/-- Drops the side of the coordinator, with the results still waiting for it. -/
def detach (n : ChannelNetwork μ ε) : ChannelNetwork μ ε :=
  { n with inbox := [], attached := false }

end ChannelNetwork

end ExperienceCollection
