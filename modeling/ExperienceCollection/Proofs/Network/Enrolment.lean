import ExperienceCollection.Proofs.Network.Build
import ExperienceCollection.Proofs.Network.Steps
import Mathlib.Algebra.GroupWithZero.Nat
import Mathlib.Data.List.Induction

/-!
# Enrolment of peers

What a list of groups makes of a network. Endpoints stand in the order in which the groups were
registered; a role that is registered again goes on counting where it stopped. Names are never given
twice, also not to peers of different roles, and a broadcast reaches the peers of its role alone.
-/

namespace ExperienceCollection.ChannelNetwork

open Wiring (members numbers)

variable {μ ε : Type}

/-- How many peers are registered under a role, group after group. A group whose numbers turn adds
none. -/
def enrolled (groups : List (String × Nat)) (role : String) : Nat :=
  groups.foldl (fun k g => if g.1 = role then k + (numbers k g.2).length else k) 0

lemma enrolled_concat (groups : List (String × Nat)) (g : String × Nat) (role : String) :
    enrolled (groups ++ [g]) role =
      if g.1 = role then enrolled groups role + (numbers (enrolled groups role) g.2).length
      else enrolled groups role := by
  rw [enrolled, List.foldl_append]
  rfl

lemma build_concat (node : PeerId) (groups : List (String × Nat)) (g : String × Nat) :
    (build node (groups ++ [g]) : ChannelNetwork μ ε).toWiring =
      (build (ε := ε) node groups).register node g.1 g.2 := by
  rw [build, List.foldl_append]
  rfl

lemma length_members_build (node : PeerId) (groups : List (String × Nat)) (role : String) :
    (members (build node groups : ChannelNetwork μ ε).endpoints role).length =
      enrolled groups role := by
  induction groups using List.reverseRecOn with
  | nil => rfl
  | append_singleton groups g ih =>
    have hids := congrArg List.length
      ((build (μ := μ) (ε := ε) node groups).members_register node g.1 role g.2)
    rw [List.length_map, List.length_append, List.length_map, ih] at hids
    rw [build_concat, hids, enrolled_concat]
    by_cases hrole : g.1 = role
    · subst hrole
      rw [if_pos rfl, if_pos rfl, List.length_map, ih]
    · rw [if_neg hrole, if_neg hrole]
      rfl

/-- Names are distinct if they are so within each role and tell the role. -/
lemma nodup_map_of_filter {α β γ : Type} [DecidableEq γ] {f : α → β} {g : α → γ} {l : List α}
    (hsame : ∀ c, ((l.filter fun a => g a = c).map f).Nodup)
    (htell : ∀ a ∈ l, ∀ b ∈ l, f a = f b → g a = g b) : (l.map f).Nodup := by
  induction l with
  | nil => exact List.nodup_nil
  | cons a l ih =>
    rw [List.map_cons, List.nodup_cons]
    constructor
    · intro hmem
      obtain ⟨b, hb, hf⟩ := List.mem_map.mp hmem
      have hg := htell b (List.mem_cons_of_mem a hb) a List.mem_cons_self hf
      have hclass := hsame (g a)
      rw [List.filter_cons_of_pos (by simp), List.map_cons, List.nodup_cons] at hclass
      exact hclass.1 (List.mem_map.mpr ⟨b, List.mem_filter.mpr ⟨hb, by simpa using hg⟩, hf⟩)
    · apply ih
      · intro c
        exact (hsame c).sublist (((List.sublist_cons_self a l).filter _).map f)
      · intro b hb b' hb'
        exact htell b (List.mem_cons_of_mem a hb) b' (List.mem_cons_of_mem a hb')

theorem nodup_build_id (node : PeerId) (groups : List (String × Nat)) :
    ((build node groups : ChannelNetwork μ ε).endpoints.map Endpoint.id).Nodup := by
  apply nodup_map_of_filter (g := Endpoint.role)
  · exact nodup_members_build_id node groups
  · intro e he e' he'
    exact role_eq_of_build_id he he'

lemma peers_build (node : PeerId) (groups : List (String × Nat)) (role : String) :
    (build node groups : ChannelNetwork μ ε).peers role =
      if role ∈ groups.map Prod.fst then
        .ok ((List.range (enrolled groups role)).map (peerName role))
      else .error (.unknownGroup role) := by
  rw [← length_members_build (μ := μ) (ε := ε) node, ← members_build_id]
  by_cases hrole : role ∈ groups.map Prod.fst
  · rw [if_pos hrole, peers_registered (mem_roles_build.mpr hrole)]
  · rw [if_neg hrole, peers_unregistered fun h => hrole (mem_roles_build.mp h)]

end ExperienceCollection.ChannelNetwork
