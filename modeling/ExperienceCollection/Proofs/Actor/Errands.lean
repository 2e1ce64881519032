import ExperienceCollection.Proofs.Actor.Steps
import Mathlib.Algebra.GroupWithZero.Nat
import Mathlib.Data.List.Nodup

/-!
# Errands

An errand is a segment that a peer was asked for. It is under way as a command in the queue of the
peer, as the task of its actor, or as a result in the inbox. `Pool.load` counts how often an errand
is under way. The actors move errands along and may lose them, but they never add to the load; only
a broadcast does, and it adds one for every peer of its role at most.
-/

namespace ExperienceCollection

variable {μ ε : Type}

structure Errand where
  peer : PeerId
  segment : Nat × Nat
  deriving DecidableEq

/-- The rollout index and the segment index that an instruction asks for. -/
def Instruction.segment (i : Instruction μ) : Nat × Nat := (i.rolloutIndex, i.segmentIndex)

def Result.segment (r : Result ε) : Nat × Nat := (r.rolloutIndex, r.segmentIndex)

def Instruction.isFor (t : Errand) (i : Instruction μ) : Bool := i.segment = t.segment

def Command.isFor (t : Errand) : Command μ → Bool
  | rollout i => i.isFor t
  | exit => false

def Envelope.answers (t : Errand) (e : Envelope (Result ε)) : Bool :=
  e.source = t.peer ∧ e.body.segment = t.segment

def Endpoint.load (t : Errand) (e : Endpoint μ) : Nat :=
  if e.id = t.peer then e.commands.countP fun c => c.body.isFor t else 0

def ChannelNetwork.load (t : Errand) (n : ChannelNetwork μ ε) : Nat :=
  (n.endpoints.map (Endpoint.load t)).sum + n.inbox.countP (Envelope.answers t)

def Actor.load (t : Errand) (a : Actor μ ε) : Nat :=
  if a.peer = t.peer ∧ a.task.any (Instruction.isFor t) then 1 else 0

/-- How often an errand is under way. -/
def Pool.load (t : Errand) (p : Pool μ ε) : Nat :=
  p.network.load t + (p.actors.map (Actor.load t)).sum

/-- The registered roles, and the names and roles of the endpoints. -/
def ChannelNetwork.roster (n : ChannelNetwork μ ε) : List String × List (PeerId × String) :=
  (n.roles, Wiring.roster n.endpoints)

lemma sum_map_modify {α : Type} (g : α → Nat) (f : α → α) {l : List α} {i : Nat} {a : α}
    (h : l[i]? = some a) : ((l.modify i f).map g).sum + g a = (l.map g).sum + g (f a) := by
  induction l generalizing i with
  | nil => simp at h
  | cons b l ih =>
    cases i with
    | zero =>
      obtain rfl : b = a := by simpa using h
      rw [List.modify_zero_cons, List.map_cons, List.map_cons, List.sum_cons, List.sum_cons]
      omega
    | succ i =>
      have hrest := ih (i := i) (by simpa using h)
      rw [List.modify_succ_cons, List.map_cons, List.map_cons, List.sum_cons, List.sum_cons]
      omega

lemma sum_map_set {α : Type} (g : α → Nat) {l : List α} {i : Nat} {a : α} (b : α)
    (h : l[i]? = some a) : ((l.set i b).map g).sum + g a = (l.map g).sum + g b := by
  have hmodify := sum_map_modify g (fun _ => b) h
  rwa [List.modify_eq_set_getElem?, h] at hmodify

lemma map_modify_of_eq {α β : Type} (g : α → β) (f : α → α) (h : ∀ a, g (f a) = g a) (l : List α)
    (i : Nat) : (l.modify i f).map g = l.map g := by
  induction l generalizing i with
  | nil => rw [List.modify_nil]
  | cons a l ih =>
    cases i with
    | zero => rw [List.modify_zero_cons, List.map_cons, h, List.map_cons]
    | succ i => rw [List.modify_succ_cons, List.map_cons, ih, List.map_cons]

lemma map_set_of_eq {α β : Type} (g : α → β) {l : List α} {i : Nat} {a b : α}
    (h : l[i]? = some a) (hb : g b = g a) : (l.set i b).map g = l.map g := by
  obtain ⟨hi, hget⟩ := List.getElem?_eq_some_iff.mp h
  rw [List.map_set, hb, ← hget, ← List.map_set, List.set_getElem_self]

lemma Endpoint.load_of_cons (t : Errand) {e : Endpoint μ} {c : Envelope (Command μ)}
    {rest : List (Envelope (Command μ))} (h : e.commands = c :: rest) :
    e.load t = Endpoint.load t { e with commands := rest } +
      if e.id = t.peer ∧ c.body.isFor t then 1 else 0 := by
  unfold load
  rw [h, List.countP_cons]
  by_cases hid : e.id = t.peer <;> simp [hid]

lemma Result.envelope_answers (t : Errand) (source : PeerId) (o : Outcome ε) (i : Instruction μ) :
    ((o.result i).envelope source).answers t = (decide (source = t.peer) && i.isFor t) :=
  Bool.decide_and _ _

namespace ChannelNetwork

open Wiring (members)

lemma dropEndpoint_roster (n : ChannelNetwork μ ε) (i : Nat) :
    (n.dropEndpoint i).roster = n.roster :=
  Prod.ext (congrArg KeyMap.keys (n.toWiring.drop_groups i)) (n.toWiring.drop_roster i)

lemma takeCommand_roster (n : ChannelNetwork μ ε) (i : Nat) :
    (n.takeCommand i).2.roster = n.roster := by
  rcases n.takeCommand_cases i with h | ⟨e, c, rest, -, -, -, h⟩
  · rw [h]
  · rw [h]
    exact congrArg (Prod.mk n.roles) (n.toWiring.setQueue_roster i rest)

lemma send_roster (n : ChannelNetwork μ ε) (i : Nat) (result : Result ε) :
    (n.send i result).2.roster = n.roster := by
  rcases n.send_cases i result with ⟨e, -, h⟩ | h
  · rw [h]
    rfl
  · rw [h]

lemma broadcast_roster (n : ChannelNetwork μ ε) (role : String) (command : Command μ) :
    (n.broadcast role command).network.roster = n.roster := by
  rw [broadcast_network]
  exact congrArg (Prod.mk n.roles) (Wiring.deliver_roster role _ n.endpoints)

lemma roster_getElem? {n : ChannelNetwork μ ε} {i : Nat} {e : Endpoint μ}
    (h : n.endpoints[i]? = some e) : n.roster.2[i]? = some (e.id, e.role) := by
  rw [roster, Wiring.roster, List.getElem?_map, h, Option.map_some]

lemma members_id_eq (n : ChannelNetwork μ ε) (role : String) :
    (members n.endpoints role).map Endpoint.id =
      (n.roster.2.filter fun x => x.2 = role).map Prod.fst := by
  rw [roster, Wiring.roster, List.filter_map, List.map_map]
  rfl

lemma rewire_load (t : Errand) (n : ChannelNetwork μ ε) (w : Wiring μ) :
    (n.rewire w).load t =
      (w.endpoints.map (Endpoint.load t)).sum + n.inbox.countP (Envelope.answers t) := rfl

/-- A command that is taken leaves the load of its queue. -/
lemma takeCommand_load (t : Errand) {n : ChannelNetwork μ ε} {i : Nat} {c : Envelope (Command μ)}
    (h : (n.takeCommand i).1 = .command c) :
    ∃ e, n.endpoints[i]? = some e ∧
      n.load t = (n.takeCommand i).2.load t + if e.id = t.peer ∧ c.body.isFor t then 1 else 0 := by
  obtain ⟨e, rest, he, hcommands, hn⟩ := takeCommand_eq_command h
  have hsum := sum_map_set (Endpoint.load t) { e with commands := rest } he
  have hload := Endpoint.load_of_cons t hcommands
  refine ⟨e, he, ?_⟩
  rw [hn, rewire_load, load, Wiring.setQueue_endpoints he]
  omega

lemma takeCommand_load_le (t : Errand) (n : ChannelNetwork μ ε) (i : Nat) :
    (n.takeCommand i).2.load t ≤ n.load t := by
  rcases n.takeCommand_cases i with hn | ⟨e, c, rest, -, -, -, hn⟩
  · exact Nat.le_of_eq (by rw [hn])
  · have horder : (n.takeCommand i).1 = .command c := by rw [hn]
    obtain ⟨e, -, hload⟩ := takeCommand_load t horder
    omega

lemma dropEndpoint_load_le (t : Errand) (n : ChannelNetwork μ ε) (i : Nat) :
    (n.dropEndpoint i).load t ≤ n.load t := by
  cases hthere : n.endpoint? i with
  | none => rw [dropEndpoint_of_none hthere]
  | some e =>
    obtain ⟨he, halive⟩ := Wiring.endpoint?_eq_some.mp hthere
    have hsum := sum_map_set (Endpoint.load t) e.leave he
    have hempty : e.leave.load t = 0 := ite_self 0
    rw [dropEndpoint, rewire_load, load, Wiring.drop_of_alive he halive]
    omega

lemma load_clear_inbox_le (t : Errand) (n : ChannelNetwork μ ε) :
    ({ n with inbox := [] } : ChannelNetwork μ ε).load t ≤ n.load t :=
  Nat.add_le_add (Nat.le_refl _) (Nat.zero_le _)

lemma load_receive_le (t : Errand) {n : ChannelNetwork μ ε}
    {dropped rest : List (Envelope (Result ε))} {e : Envelope (Result ε)}
    (h : n.inbox = dropped ++ e :: rest) :
    { n with inbox := rest }.load t + (if e.answers t then 1 else 0) ≤ n.load t := by
  unfold load
  dsimp only
  rw [h, List.countP_append, List.countP_cons]
  omega

lemma deliver_load_le (t : Errand) (role : String) (c : Envelope (Command μ)) (e : Endpoint μ) :
    (e.deliver role c).load t ≤ e.load t +
      if e.role = role ∧ e.id = t.peer ∧ c.body.isFor t then 1 else 0 := by
  unfold Endpoint.deliver
  split
  · rename_i hrole
    unfold Endpoint.load
    dsimp only
    rw [List.countP_append, List.countP_singleton]
    by_cases hid : e.id = t.peer <;> simp [hid, hrole.1]
  · exact Nat.le_add_right _ _

lemma sum_deliver_load_le (t : Errand) (role : String) (c : Envelope (Command μ))
    (endpoints : List (Endpoint μ)) :
    ((endpoints.map (Endpoint.deliver role c)).map (Endpoint.load t)).sum ≤
      (endpoints.map (Endpoint.load t)).sum +
        if c.body.isFor t then ((members endpoints role).map Endpoint.id).count t.peer else 0 := by
  induction endpoints with
  | nil => simp
  | cons e endpoints ih =>
    have he := deliver_load_le t role c e
    rw [List.map_cons, List.map_cons, List.sum_cons, List.map_cons, List.sum_cons]
    by_cases hc : c.body.isFor t = true
    · rw [if_pos hc] at ih ⊢
      by_cases hrole : e.role = role
      · have hmembers : members (e :: endpoints) role = e :: members endpoints role := by
          simp [members, hrole]
        rw [hmembers, List.map_cons, List.count_cons]
        simp only [hrole, hc, true_and, and_true, beq_iff_eq] at he ⊢
        omega
      · have hmembers : members (e :: endpoints) role = members endpoints role := by
          simp [members, hrole]
        rw [hmembers]
        rw [if_neg fun h => hrole h.1] at he
        omega
    · rw [if_neg hc] at ih ⊢
      rw [if_neg fun h => hc h.2.2] at he
      omega

/-- A broadcast adds at most one to the load for every peer of its role. -/
lemma broadcast_load_le (t : Errand) (n : ChannelNetwork μ ε) (role : String)
    (command : Command μ) :
    (n.broadcast role command).network.load t ≤ n.load t +
      if command.isFor t then ((members n.endpoints role).map Endpoint.id).count t.peer else 0 := by
  have hsum := sum_deliver_load_le t role (command.envelope n.node) n.endpoints
  have hbody : (command.envelope n.node).body = command := rfl
  rw [hbody] at hsum
  rw [broadcast_network, rewire_load, load, Wiring.deliver_endpoints]
  omega

end ChannelNetwork

namespace Pool

/-- Actors sit at the endpoints of their peers. -/
def Seated (p : Pool μ ε) : Prop := p.peers = p.network.roster.2.map Prod.fst

lemma Seated.id_eq {p : Pool μ ε} (h : p.Seated) {i : Nat} {a : Actor μ ε} {e : Endpoint μ}
    (ha : p.actors[i]? = some a) (he : p.network.endpoints[i]? = some e) : e.id = a.peer := by
  have hpeers : p.peers[i]? = some a.peer := by
    rw [peers, List.getElem?_map, ha, Option.map_some]
  rw [h, List.getElem?_map, ChannelNetwork.roster_getElem? he, Option.map_some] at hpeers
  exact Option.some.inj hpeers

lemma store_peers {p : Pool μ ε} {i : Nat} {a b : Actor μ ε} (n : ChannelNetwork μ ε)
    (h : p.actors[i]? = some a) (hpeer : b.peer = a.peer) : (p.store i b n).peers = p.peers := by
  exact map_set_of_eq Actor.peer h hpeer

lemma store_roster (p : Pool μ ε) (i : Nat) (a : Actor μ ε) (n : ChannelNetwork μ ε) :
    (p.store i a n).network.roster = n.roster := by
  unfold store
  dsimp only
  split
  · rfl
  · exact n.dropEndpoint_roster i

/-- Putting an actor back exchanges its load; the load of its endpoint may be lost. -/
lemma store_load_le (t : Errand) {p : Pool μ ε} {i : Nat} {a : Actor μ ε} (b : Actor μ ε)
    (n : ChannelNetwork μ ε) (h : p.actors[i]? = some a) :
    (p.store i b n).load t + a.load t ≤
      n.load t + (p.actors.map (Actor.load t)).sum + b.load t := by
  have hsum := sum_map_set (Actor.load t) b h
  have hnetwork : (if b.phase = .running then n else n.dropEndpoint i).load t ≤ n.load t := by
    split
    · exact Nat.le_refl _
    · exact n.dropEndpoint_load_le t i
  unfold store load
  dsimp only
  omega

variable {p q : Pool μ ε} {i : Nat}

lemma Takes.peers_eq (h : Takes p i q) : q.peers = p.peers := by
  cases h with
  | idle => rfl
  | disconnected a actor => exact store_peers _ actor (Actor.stop_peer _ _ _)
  | exit a c actor => exact store_peers _ actor (Actor.stop_peer _ _ _)
  | begins a c instruction actor => exact store_peers _ actor rfl

lemma Takes.roster_eq (h : Takes p i q) : q.network.roster = p.network.roster := by
  have hstore (b : Actor μ ε) :
      (p.store i b (p.network.takeCommand i).2).network.roster = p.network.roster := by
    rw [store_roster, ChannelNetwork.takeCommand_roster]
  cases h with
  | idle => rfl
  | disconnected a actor => exact hstore _
  | exit a c actor => exact hstore _
  | begins a c instruction actor => exact hstore _

lemma Completes.peers_eq (h : Completes p i q) : q.peers = p.peers := by
  cases h with
  | idle => rfl
  | crashes a instruction actor => exact store_peers _ actor rfl
  | sends a instruction o actor =>
    refine store_peers _ actor ?_
    rw [Actor.sent_peer, Actor.count_peer]

lemma Completes.roster_eq (h : Completes p i q) : q.network.roster = p.network.roster := by
  cases h with
  | idle => rfl
  | crashes a instruction actor => rw [store_roster]
  | sends a instruction o actor => rw [store_roster, ChannelNetwork.send_roster]

lemma Takes.seated (h : Takes p i q) (hs : p.Seated) : q.Seated := by
  rw [Seated, h.peers_eq, h.roster_eq]
  exact hs

lemma Completes.seated (h : Completes p i q) (hs : p.Seated) : q.Seated := by
  rw [Seated, h.peers_eq, h.roster_eq]
  exact hs

/-- A free actor that stops has nothing to lose but the queue of its peer. -/
lemma stop_load_le (t : Errand) {a : Actor μ ε} (actor : p.actors[i]? = some a)
    (free : a.task = none) (reason : Log.Event) :
    (p.store i (a.stop p.config reason) (p.network.takeCommand i).2).load t ≤ p.load t := by
  have htaken := p.network.takeCommand_load_le t i
  have hstore := store_load_le t (a.stop p.config reason) (p.network.takeCommand i).2 actor
  have hfree : (a.stop p.config reason).load t = 0 := by simp [Actor.load, free]
  unfold load at hstore ⊢
  omega

theorem Takes.load_le (h : Takes p i q) (hs : p.Seated) (t : Errand) : q.load t ≤ p.load t := by
  cases h with
  | idle => exact Nat.le_refl _
  | disconnected a actor running free => exact stop_load_le t actor free _
  | exit a c actor running free => exact stop_load_le t actor free _
  | begins a c instruction actor running free order body =>
    have hstore := store_load_le t (a.begin instruction) (p.network.takeCommand i).2 actor
    obtain ⟨e, he, hload⟩ := ChannelNetwork.takeCommand_load t order
    -- The command leaves the queue of a peer and becomes the task of the actor of this peer.
    have hbegin : (a.begin instruction).load t =
        if e.id = t.peer ∧ c.body.isFor t then 1 else 0 := by
      rw [hs.id_eq actor he, body]
      rfl
    rw [hbegin] at hstore
    unfold load at hstore ⊢
    omega

theorem Completes.load_le (h : Completes p i q) (hs : p.Seated) (t : Errand) :
    q.load t ≤ p.load t := by
  cases h with
  | idle => exact Nat.le_refl _
  | crashes a instruction actor =>
    have hstore := store_load_le t { a with task := none, phase := .crashed } p.network actor
    have hfree : Actor.load t { a with task := none, phase := .crashed } = 0 := by
      simp [Actor.load]
    unfold load at hstore ⊢
    omega
  | sends a instruction o actor task =>
    have hstore := store_load_le t
      (({ a with task := none }.count o).sent p.config (p.network.send i (o.result instruction)).1)
      (p.network.send i (o.result instruction)).2 actor
    have hfree : Actor.load t (({ a with task := none }.count o).sent p.config
        (p.network.send i (o.result instruction)).1) = 0 := by
      simp [Actor.load]
    rw [hfree] at hstore
    -- The task ends; its result is in the inbox, or lost if the peer is gone.
    have hsend : (p.network.send i (o.result instruction)).2.load t ≤
        p.network.load t + a.load t := by
      rcases p.network.send_cases i (o.result instruction) with ⟨e, he, hn⟩ | hn
      · rw [hn]
        unfold ChannelNetwork.load Actor.load
        dsimp only
        rw [List.countP_append, List.countP_singleton, Result.envelope_answers, hs.id_eq actor he,
          task, Option.any_some]
        simp only [Bool.and_eq_true, decide_eq_true_eq]
        omega
      · rw [hn]
        exact Nat.le_add_right _ _
    unfold load at hstore ⊢
    omega

end Pool

end ExperienceCollection
