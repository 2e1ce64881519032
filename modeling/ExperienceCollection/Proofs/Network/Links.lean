import ExperienceCollection.Network.Channel
import ExperienceCollection.Proofs.KeyMap
import Mathlib.Data.List.Nodup
import Mathlib.Tactic.Lemma

/-!
# Links and endpoints

The links of a role and the endpoints of that role belong together one to one: a link leads to an
endpoint of its name and role, every endpoint has its link, and both stand in the same order. So
what is sent over the links of a role comes to all its endpoints and to no others, and the senders
that are left are those of the endpoints that are still there.
-/

namespace ExperienceCollection

variable {μ ε : Type}

/-- Queues a command for a peer that is still there. -/
def Endpoint.push (command : Envelope (Command μ)) (e : Endpoint μ) : Endpoint μ :=
  if e.alive then { e with commands := e.commands ++ [command] } else e

/-- Queues a command for a peer of the role that is still there. -/
def Endpoint.deliver (role : String) (command : Envelope (Command μ)) (e : Endpoint μ) :
    Endpoint μ :=
  if e.role = role ∧ e.alive then { e with commands := e.commands ++ [command] } else e

lemma Endpoint.deliver_eq_push (role : String) (c : Envelope (Command μ)) (e : Endpoint μ) :
    e.deliver role c = if e.role = role then e.push c else e := by
  unfold deliver push
  by_cases hrole : e.role = role <;> simp [hrole]

@[simp] lemma Endpoint.deliver_id (role : String) (c : Envelope (Command μ)) (e : Endpoint μ) :
    (e.deliver role c).id = e.id := by
  unfold deliver
  split <;> rfl

@[simp] lemma Endpoint.deliver_role (role : String) (c : Envelope (Command μ)) (e : Endpoint μ) :
    (e.deliver role c).role = e.role := by
  unfold deliver
  split <;> rfl

@[simp] lemma Endpoint.deliver_alive (role : String) (c : Envelope (Command μ)) (e : Endpoint μ) :
    (e.deliver role c).alive = e.alive := by
  unfold deliver
  split <;> rfl

namespace Wiring

/-- The endpoints of a role. -/
def members (endpoints : List (Endpoint μ)) (role : String) : List (Endpoint μ) :=
  endpoints.filter fun e => e.role = role

lemma roster_id (endpoints : List (Endpoint μ)) :
    (roster endpoints).map Prod.fst = endpoints.map Endpoint.id := List.map_map

lemma mem_linksTo {role : String} {peers : List (PeerId × String)} {link : PeerLink} :
    link ∈ linksTo role peers ↔ peers[link.queue]? = some (link.id, role) := by
  unfold linksTo
  rw [List.mem_map]
  constructor
  · rintro ⟨⟨⟨id, r⟩, i⟩, hmem, rfl⟩
    obtain ⟨hget, hrole⟩ := List.mem_filter.mp hmem
    obtain rfl : r = role := of_decide_eq_true hrole
    exact List.mk_mem_zipIdx_iff_getElem?.mp hget
  · intro hget
    exact ⟨((link.id, role), link.queue),
      List.mem_filter.mpr ⟨List.mk_mem_zipIdx_iff_getElem?.mpr hget, decide_eq_true rfl⟩, rfl⟩

lemma queue_linksTo_ascending (role : String) (peers : List (PeerId × String)) :
    ((linksTo role peers).map PeerLink.queue).Pairwise (· < ·) := by
  have hsub : ((linksTo role peers).map PeerLink.queue).Sublist (List.range' 0 peers.length) := by
    unfold linksTo
    rw [List.map_map, ← List.zipIdx_map_snd 0 peers]
    exact List.filter_sublist.map Prod.snd
  exact (List.pairwise_lt_range' 1).sublist hsub

lemma id_linksTo (role : String) (peers : List (PeerId × String)) :
    (linksTo role peers).map PeerLink.id = (peers.filter fun x => x.2 = role).map Prod.fst := by
  have hfilter := List.filter_map (p := fun x : PeerId × String => x.2 = role)
    (f := Prod.fst) (l := peers.zipIdx)
  rw [List.zipIdx_map_fst] at hfilter
  unfold linksTo
  rw [hfilter, List.map_map, List.map_map]
  rfl

lemma links_eq (w : Wiring μ) (role : String) :
    w.links role = linksTo role (roster w.endpoints) := w.linked role

/-- A link of a role leads to the endpoint of the role that has its name, and every endpoint of the
role has such a link. -/
theorem mem_links {w : Wiring μ} {role : String} {link : PeerLink} :
    link ∈ w.links role ↔
      ∃ e, w.endpoints[link.queue]? = some e ∧ e.role = role ∧ e.id = link.id := by
  rw [links_eq, mem_linksTo, roster, List.getElem?_map]
  constructor
  · intro h
    obtain ⟨e, he, heq⟩ := Option.map_eq_some_iff.mp h
    obtain ⟨hid, hrole⟩ := Prod.mk.inj heq
    exact ⟨e, he, hrole, hid⟩
  · rintro ⟨e, he, hrole, hid⟩
    rw [he, Option.map_some, hrole, hid]

/-- Links stand in the order of the endpoints, and no two lead to the same. -/
theorem queue_links_ascending (w : Wiring μ) (role : String) :
    ((w.links role).map PeerLink.queue).Pairwise (· < ·) := by
  rw [links_eq]
  exact queue_linksTo_ascending role _

theorem id_links (w : Wiring μ) (role : String) :
    (w.links role).map PeerLink.id = (members w.endpoints role).map Endpoint.id := by
  rw [links_eq, id_linksTo, roster, List.filter_map, List.map_map]
  rfl

lemma length_links (w : Wiring μ) (role : String) :
    (w.links role).length = (members w.endpoints role).length := by
  have hlength := congrArg List.length (w.id_links role)
  rwa [List.length_map, List.length_map] at hlength

lemma mem_roles {w : Wiring μ} {role : String} : role ∈ w.roles ↔ (w.groups.get? role).isSome :=
  KeyMap.mem_keys_iff

lemma get?_groups {w : Wiring μ} {role : String} (h : role ∈ w.roles) :
    w.groups.get? role = some (w.links role) := by
  obtain ⟨links, hlinks⟩ := Option.isSome_iff_exists.mp (mem_roles.mp h)
  rw [Wiring.links, linksOf, hlinks, Option.getD_some]

lemma get?_groups_eq_none {w : Wiring μ} {role : String} (h : role ∉ w.roles) :
    w.groups.get? role = none :=
  Option.not_isSome_iff_eq_none.mp fun hsome => h (mem_roles.mpr hsome)

/-- The role of an endpoint is always registered. -/
lemma role_mem_roles (w : Wiring μ) : ∀ e ∈ w.endpoints, e.role ∈ w.roles := by
  intro e he
  obtain ⟨i, hi⟩ := List.getElem?_of_mem he
  have hlink : ⟨e.id, i⟩ ∈ w.links e.role := mem_links.mpr ⟨e, hi, rfl, rfl⟩
  by_contra hrole
  rw [links, linksOf, get?_groups_eq_none hrole] at hlink
  cases hlink

/-- All senders are gone when all endpoints are. -/
theorem senders_eq_zero {w : Wiring μ} :
    w.senders = 0 ↔ ∀ e ∈ w.endpoints, e.alive = false := by
  rw [w.counted, List.countP_eq_zero]
  exact forall₂_congr fun e _ => Bool.eq_false_iff.symm

/-- Wirings with the same links and endpoints have the same senders. -/
lemma ext_endpoints {w w' : Wiring μ} (hgroups : w.groups = w'.groups)
    (hendpoints : w.endpoints = w'.endpoints) : w = w' := by
  obtain ⟨groups, endpoints, senders, linked, counted⟩ := w
  obtain ⟨groups', endpoints', senders', linked', counted'⟩ := w'
  obtain rfl : groups = groups' := hgroups
  obtain rfl : endpoints = endpoints' := hendpoints
  obtain rfl : senders = senders' := Eq.trans counted counted'.symm
  rfl

lemma endpoint?_eq_some {w : Wiring μ} {i : Nat} {e : Endpoint μ} :
    w.endpoint? i = some e ↔ w.endpoints[i]? = some e ∧ e.alive = true :=
  Option.filter_eq_some_iff

lemma setQueue_endpoints {w : Wiring μ} {i : Nat} {e : Endpoint μ} (he : w.endpoints[i]? = some e)
    (commands : List (Envelope (Command μ))) :
    (w.setQueue i commands).endpoints = w.endpoints.set i { e with commands } := by
  change w.endpoints.modify i _ = _
  rw [List.modify_eq_set_getElem?, he]
  rfl

lemma drop_of_none {w : Wiring μ} {i : Nat} (h : w.endpoint? i = none) : w.drop i = w := by
  unfold drop
  split
  · rfl
  · rename_i hsome
    rw [h] at hsome
    cases hsome

lemma drop_of_alive {w : Wiring μ} {i : Nat} {e : Endpoint μ} (he : w.endpoints[i]? = some e)
    (halive : e.alive = true) : (w.drop i).endpoints = w.endpoints.set i e.leave := by
  have hthere := endpoint?_eq_some.mpr ⟨he, halive⟩
  unfold drop
  split
  · rename_i hnone
    rw [hnone] at hthere
    cases hthere
  · change w.endpoints.modify i Endpoint.leave = _
    rw [List.modify_eq_set_getElem?, he]
    rfl

lemma drop_groups (w : Wiring μ) (i : Nat) : (w.drop i).groups = w.groups := by
  unfold drop
  split <;> rfl

lemma drop_roster (w : Wiring μ) (i : Nat) :
    roster (w.drop i).endpoints = roster w.endpoints := by
  unfold drop
  split
  · rfl
  · exact roster_modify _ _ fun _ => ⟨rfl, rfl⟩

lemma setQueue_roster (w : Wiring μ) (i : Nat) (commands : List (Envelope (Command μ))) :
    roster (w.setQueue i commands).endpoints = roster w.endpoints :=
  roster_modify _ _ fun _ => ⟨rfl, rfl⟩

lemma post_groups (c : Envelope (Command μ)) (w : Wiring μ) (link : PeerLink) :
    (w.post c link).groups = w.groups := by
  unfold post
  split <;> rfl

/-- What a link carries comes to the endpoint it leads to. -/
lemma post_getElem? (c : Envelope (Command μ)) (w : Wiring μ) (link : PeerLink) (j : Nat) :
    (w.post c link).endpoints[j]? =
      w.endpoints[j]?.map fun e => if j = link.queue then e.push c else e := by
  unfold post
  split
  · rename_i e he
    obtain ⟨hget, halive⟩ := endpoint?_eq_some.mp he
    rw [setQueue_endpoints hget]
    by_cases hj : j = link.queue
    · subst hj
      obtain ⟨hlt, -⟩ := List.getElem?_eq_some_iff.mp hget
      rw [List.getElem?_set_self hlt, hget, Option.map_some, if_pos rfl, Endpoint.push,
        if_pos halive]
    · simp [hj, List.getElem?_set_ne (Ne.symm hj)]
  · rename_i hnone
    cases hget : w.endpoints[j]? with
    | none => rfl
    | some e =>
      rw [Option.map_some]
      by_cases hj : j = link.queue
      · subst hj
        have hgone : ¬e.alive = true := by
          intro halive
          rw [endpoint?_eq_some.mpr ⟨hget, halive⟩] at hnone
          cases hnone
        rw [if_pos rfl, Endpoint.push, if_neg hgone]
      · rw [if_neg hj]

/-- Over links to different endpoints a command comes once to each of these. -/
lemma foldl_post_getElem? (c : Envelope (Command μ)) {links : List PeerLink} (w : Wiring μ)
    (h : (links.map PeerLink.queue).Nodup) (j : Nat) :
    (links.foldl (post c) w).endpoints[j]? = w.endpoints[j]?.map fun e =>
      if j ∈ links.map PeerLink.queue then e.push c else e := by
  induction links generalizing w with
  | nil => simp
  | cons link links ih =>
    obtain ⟨hnew, hrest⟩ := List.nodup_cons.mp h
    rw [List.foldl_cons, ih _ hrest, post_getElem?, Option.map_map]
    congr 1
    funext e
    rw [Function.comp_apply, List.map_cons]
    by_cases hj : j = link.queue
    · subst hj
      rw [if_pos rfl, if_neg hnew, if_pos List.mem_cons_self]
    · simp [hj]

lemma deliver_roster (role : String) (c : Envelope (Command μ)) (endpoints : List (Endpoint μ)) :
    roster (endpoints.map (Endpoint.deliver role c)) = roster endpoints := by
  simp [roster]

/-- A command is queued for all peers of a role that are still there. -/
def deliver (w : Wiring μ) (role : String) (c : Envelope (Command μ)) : Wiring μ :=
  { w with
    endpoints := w.endpoints.map (Endpoint.deliver role c)
    linked := w.linked.of_roster (deliver_roster role c w.endpoints)
    counted := w.counted.trans (by rw [List.countP_map]; simp [Function.comp_def]) }

@[simp] lemma deliver_endpoints (w : Wiring μ) (role : String) (c : Envelope (Command μ)) :
    (w.deliver role c).endpoints = w.endpoints.map (Endpoint.deliver role c) := rfl

/-- There is nobody to deliver to under a role that is not registered. -/
lemma deliver_unregistered {w : Wiring μ} {role : String} (h : role ∉ w.roles)
    (c : Envelope (Command μ)) : w.deliver role c = w := by
  refine ext_endpoints rfl ?_
  rw [deliver_endpoints, List.map_congr_left (g := id), List.map_id]
  intro e he
  have hother : e.role ≠ role := fun heq => h (heq ▸ w.role_mem_roles e he)
  exact if_neg fun hmine => hother hmine.1

/-- What is sent over the links of a role comes to the endpoints of the role. -/
theorem foldl_post_links (w : Wiring μ) (role : String) (c : Envelope (Command μ)) :
    (w.links role).foldl (post c) w = w.deliver role c := by
  apply ext_endpoints
  · change _ = w.groups
    generalize w.links role = links
    induction links generalizing w with
    | nil => rfl
    | cons link links ih => exact (ih _).trans (post_groups c w link)
  · have hdistinct := (w.queue_links_ascending role).imp fun h => Nat.ne_of_lt h
    apply List.ext_getElem?
    intro j
    rw [foldl_post_getElem? c w hdistinct, deliver_endpoints, List.getElem?_map]
    cases he : w.endpoints[j]? with
    | none => rfl
    | some e =>
      have hlink : j ∈ (w.links role).map PeerLink.queue ↔ e.role = role := by
        rw [List.mem_map]
        constructor
        · rintro ⟨link, hlink, rfl⟩
          obtain ⟨e', he', hrole, -⟩ := mem_links.mp hlink
          obtain rfl : e' = e := Option.some.inj (he'.symm.trans he)
          exact hrole
        · intro hrole
          exact ⟨⟨e.id, j⟩, mem_links.mpr ⟨e, he, hrole, rfl⟩, rfl⟩
      rw [Option.map_some, Option.map_some, Endpoint.deliver_eq_push]
      simp only [hlink]

end Wiring

end ExperienceCollection
