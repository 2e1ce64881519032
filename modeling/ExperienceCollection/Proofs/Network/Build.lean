import ExperienceCollection.Proofs.Network.Links

/-!
# Peers of a built network

The peers of a role in a built network are numbered from zero without gaps, so their names are
pairwise distinct.
-/

namespace ExperienceCollection

variable {μ ε : Type}

lemma toString_injective {i j : Nat} (h : toString i = toString j) : i = j := by
  change Nat.repr i = Nat.repr j at h
  rw [Nat.repr_eq_ofList_toDigits, Nat.repr_eq_ofList_toDigits, String.ofList_inj] at h
  have hvalue := congrArg (fun digits => Nat.ofDigitChars 10 digits 0) h
  simpa [Nat.ofDigitChars_toDigits (b := 10) (by decide) (by decide)] using hvalue

lemma peerName_injective (role : String) : Function.Injective (peerName role) := by
  intro i j h
  exact toString_injective ((String.append_right_inj _).mp h)

lemma dot_notMem_toString (i : Nat) : '.' ∉ (toString i).toList := by
  change '.' ∉ (Nat.repr i).toList
  rw [Nat.repr_eq_ofList_toDigits, String.toList_ofList]
  intro hmem
  exact absurd (Nat.isDigit_of_mem_toDigits (by decide) (by decide) hmem) (by decide)

lemma append_cons_inj {α : Type} {a : α} {l m l' m' : List α} (hm : a ∉ m) (hm' : a ∉ m')
    (h : l ++ a :: m = l' ++ a :: m') : l = l' := by
  rcases List.append_eq_append_iff.mp h with ⟨middle, hl, hrest⟩ | ⟨middle, hl, hrest⟩
  · cases middle with
    | nil => rw [hl, List.append_nil]
    | cons x middle =>
      obtain ⟨-, rfl⟩ := List.cons.inj hrest
      simp at hm
  · cases middle with
    | nil => rw [hl, List.append_nil]
    | cons x middle =>
      obtain ⟨-, rfl⟩ := List.cons.inj hrest
      simp at hm'

/-- The name of a peer tells its role, whatever dots and digits there are in the role. -/
lemma role_eq_of_peerName {role other : String} {i j : Nat}
    (h : peerName role i = peerName other j) : role = other := by
  have hchars := congrArg String.toList h
  simp only [peerName, String.toList_append] at hchars
  have hdot : ".".toList = ['.'] := by rfl
  rw [hdot, List.append_assoc, List.append_assoc, List.singleton_append,
    List.singleton_append] at hchars
  exact String.toList_inj.mp
    (append_cons_inj (dot_notMem_toString i) (dot_notMem_toString j) hchars)

namespace Wiring

lemma members_append (l k : List (Endpoint μ)) (role : String) :
    members (l ++ k) role = members l role ++ members k role :=
  List.filter_append _ _

/-- Registering a group appends its endpoints to those that are there. -/
lemma register_endpoints (node : PeerId) (w : Wiring μ) (role : String) (count : Nat) :
    (w.register node role count).endpoints = w.endpoints ++
      (numbers (members w.endpoints role).length count).map fun i =>
        { id := peerName role i, role, coordinator := node } := by
  have hfold (is : List Nat) (w : Wiring μ) :
      (is.foldl (fun w i => w.enrol (peerName role i) role node) w).endpoints =
        w.endpoints ++ is.map fun i =>
          { id := peerName role i, role, coordinator := node } := by
    induction is generalizing w with
    | nil => exact (List.append_nil _).symm
    | cons i is ih => rw [List.foldl_cons, ih, enrol, List.append_assoc, List.map_cons,
        List.singleton_append]
  rw [register, hfold, length_links]
  rfl

lemma mem_roles_register {node : PeerId} {w : Wiring μ} {role other : String} {count : Nat} :
    other ∈ (w.register node role count).roles ↔ other = role ∨ other ∈ w.roles := by
  have hfold (is : List Nat) (w : Wiring μ) (hrole : role ∈ w.roles) :
      other ∈ (is.foldl (fun w i => w.enrol (peerName role i) role node) w).roles ↔
        other ∈ w.roles := by
    induction is generalizing w with
    | nil => rfl
    | cons i is ih =>
      rw [List.foldl_cons, ih _ (KeyMap.mem_keys_insert.mpr (.inl rfl))]
      refine KeyMap.mem_keys_insert.trans ⟨?_, .inr⟩
      rintro (rfl | hother)
      · exact hrole
      · exact hother
  rw [register, hfold _ _ (KeyMap.mem_keys_insert.mpr (.inl rfl))]
  exact KeyMap.mem_keys_insert

/-- Registering a group appends to the names of its role and leaves the other roles alone. -/
lemma members_register (node : PeerId) (w : Wiring μ) (role other : String) (count : Nat) :
    (members (w.register node role count).endpoints other).map Endpoint.id =
      (members w.endpoints other).map Endpoint.id ++
        if role = other then
          (numbers (members w.endpoints role).length count).map (peerName role)
        else [] := by
  rw [register_endpoints, members_append, List.map_append]
  congr 1
  by_cases h : role = other
  · subst h
    rw [if_pos rfl, members, List.filter_map, List.map_map]
    simp [Function.comp_def]
  · simp [members, List.filter_map, Function.comp_def, h]

end Wiring

namespace ChannelNetwork

open Wiring (members)

/-- The names of the peers of a role run from zero. -/
theorem members_build_id (node : PeerId) (groups : List (String × Nat)) (role : String) :
    (members (build (ε := ε) (μ := μ) node groups).endpoints role).map Endpoint.id =
      (List.range (members (build (ε := ε) (μ := μ) node groups).endpoints role).length).map
        (peerName role) := by
  have hfold (w : Wiring μ)
      (h : (members w.endpoints role).map Endpoint.id =
        (List.range (members w.endpoints role).length).map (peerName role)) :
      let after := groups.foldl (fun w g => w.register node g.1 g.2) w
      (members after.endpoints role).map Endpoint.id =
        (List.range (members after.endpoints role).length).map (peerName role) := by
    induction groups generalizing w with
    | nil => exact h
    | cons g groups ih =>
      apply ih
      have hids := w.members_register node g.1 role g.2
      have hlength := congrArg List.length hids
      rw [hids, h]
      rw [List.length_map, List.length_append, List.length_map] at hlength
      rw [hlength]
      split
      · rename_i hr
        subst hr
        rw [List.length_map, Wiring.numbers, List.length_range', List.range_add, List.map_append,
          ← List.range'_eq_map_range]
      · simp
  exact hfold .empty rfl

theorem nodup_members_build_id (node : PeerId) (groups : List (String × Nat)) (role : String) :
    ((members (build (ε := ε) (μ := μ) node groups).endpoints role).map Endpoint.id).Nodup := by
  rw [members_build_id]
  exact List.nodup_range.map (peerName_injective role)

/-- A built network consists of new endpoints, each under the name that its role gives it. -/
lemma mem_build {node : PeerId} {groups : List (String × Nat)} {e : Endpoint μ}
    (h : e ∈ (build (ε := ε) node groups).endpoints) :
    ∃ g ∈ groups, ∃ i, e = { id := peerName g.1 i, role := g.1, coordinator := node } := by
  have hfold (w : Wiring μ)
      (he : e ∈ (groups.foldl (fun w g => w.register node g.1 g.2) w).endpoints) :
      e ∈ w.endpoints ∨
        ∃ g ∈ groups, ∃ i, e = { id := peerName g.1 i, role := g.1, coordinator := node } := by
    clear h
    induction groups generalizing w with
    | nil => exact .inl he
    | cons g groups ih =>
      rcases ih _ he with he | ⟨g', hg', hi⟩
      · rw [Wiring.register_endpoints] at he
        rcases List.mem_append.mp he with he | he
        · exact .inl he
        · obtain ⟨i, -, rfl⟩ := List.mem_map.mp he
          exact .inr ⟨g, List.mem_cons_self, i, rfl⟩
      · exact .inr ⟨g', List.mem_cons_of_mem g hg', hi⟩
  exact (hfold .empty h).resolve_left (List.not_mem_nil)

/-- The roles of a built network are those of its groups. -/
lemma mem_roles_build {node : PeerId} {groups : List (String × Nat)} {role : String} :
    role ∈ (build (μ := μ) (ε := ε) node groups).roles ↔ role ∈ groups.map Prod.fst := by
  have hfold (w : Wiring μ) :
      role ∈ (groups.foldl (fun w g => w.register node g.1 g.2) w).roles ↔
        role ∈ groups.map Prod.fst ∨ role ∈ w.roles := by
    induction groups generalizing w with
    | nil => simp
    | cons g groups ih =>
      rw [List.foldl_cons, ih, Wiring.mem_roles_register, List.map_cons, List.mem_cons]
      exact or_left_comm.trans or_assoc.symm
  exact (hfold .empty).trans (or_iff_left (List.not_mem_nil))

/-- No two roles of a built network share a name. -/
lemma role_eq_of_build_id {node : PeerId} {groups : List (String × Nat)} {e other : Endpoint μ}
    (h : e ∈ (build (ε := ε) node groups).endpoints)
    (hother : other ∈ (build (ε := ε) node groups).endpoints) (hid : e.id = other.id) :
    e.role = other.role := by
  obtain ⟨g, -, i, rfl⟩ := mem_build h
  obtain ⟨g', -, j, rfl⟩ := mem_build hother
  exact role_eq_of_peerName hid

end ChannelNetwork

end ExperienceCollection
