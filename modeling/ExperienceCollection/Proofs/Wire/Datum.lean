import ExperienceCollection.Proofs.Json.Double
import ExperienceCollection.Proofs.Wire.Basic
import ExperienceCollection.Wire.Datum

/-!
# Reading data back

Opaque data without doubles is read back from its tree, as long as the levels suffice for it. The
proofs follow the three functions by which data is written: for a value, for the items of a list and
for the members of a dictionary.
-/

namespace ExperienceCollection.Datum

open Json (Literal Tree)

mutual
/-- Data without doubles, with integers in range. The entries of a dictionary stand in the order
that a map gives them, so that the same dictionary is never written in two ways. -/
def Plain : Datum → Prop
  | .int i => -0x8000000000000000 ≤ i ∧ i ≤ Counter.top
  | .float _ => False
  | .list items => PlainItems items
  | .dict members => (members.map Prod.fst).Pairwise (· < ·) ∧ PlainMembers members
  | _ => True

def PlainItems : List Datum → Prop
  | [] => True
  | item :: items => item.Plain ∧ PlainItems items

def PlainMembers : List (String × Datum) → Prop
  | [] => True
  | (_, value) :: members => value.Plain ∧ PlainMembers members
end

lemma itemTrees_eq_map (items : List Datum) : itemTrees items = items.map tree := by
  induction items with
  | nil => rfl
  | cons item items ih => rw [itemTrees, ih, List.map_cons]

lemma memberTrees_eq_map (members : List (String × Datum)) :
    memberTrees members =
      (members.map fun m => (m.1, m.2.tree)).map fun m => (Literal.ofString m.1, m.2) := by
  induction members with
  | nil => rfl
  | cons m members ih => rw [memberTrees, ih, List.map_cons, List.map_cons]

lemma tree_dict (members : List (String × Datum)) :
    tree (.dict members) = .ofMembers (members.map fun m => (m.1, m.2.tree)) := by
  rw [tree, memberTrees_eq_map]
  rfl

lemma legible_ofFloat (x : Float) : (Wire.ofFloat x).Legible := by
  unfold Wire.ofFloat
  split
  · rename_i h
    exact Tree.legible_of_token rfl (Json.Numeral.ofChars?_chars (Json.Numeral.regular_ofFloat h))
  · exact Tree.legible_null

mutual
theorem legible_tree : ∀ d : Datum, d.tree.Legible
  | .null => Tree.legible_null
  | .bool b => Tree.legible_bool b
  | .int i => Tree.legible_ofInt i
  | .float x => legible_ofFloat x
  | .text s => Tree.legible_ofString s
  | .list items => by
    rw [tree, itemTrees_eq_map]
    apply Tree.legible_array
    intro t ht
    obtain ⟨item, hitem, rfl⟩ := List.mem_map.mp ht
    exact legible_items items item hitem
  | .dict members => by
    rw [tree_dict]
    apply Tree.legible_ofMembers
    intro m hm
    obtain ⟨source, hsource, rfl⟩ := List.mem_map.mp hm
    exact legible_members members source hsource

theorem legible_items : ∀ items : List Datum, ∀ item ∈ items, item.tree.Legible
  | [] => nofun
  | item :: items => List.forall_mem_cons.mpr ⟨legible_tree item, legible_items items⟩

theorem legible_members : ∀ members : List (String × Datum), ∀ m ∈ members, m.2.tree.Legible
  | [] => nofun
  | (_, value) :: members => List.forall_mem_cons.mpr ⟨legible_tree value, legible_members members⟩
end

lemma sorted_eq {members : List (String × Datum)}
    (h : (members.map Prod.fst).Pairwise (· < ·)) : sorted members = members :=
  congrArg KeyMap.entries (KeyMap.ofList_entries ⟨members, h⟩)

mutual
/-- Data is read back within as many levels as it is deep. -/
theorem read?_tree : ∀ (d : Datum) (levels : Nat), d.Plain → d.tree.depth ≤ levels →
    read? levels d.tree = some d
  | .null, _, _, _ => rfl
  | .bool _, _, _, _ => rfl
  | .int i, _, h, _ => by
    rw [tree, read?, Json.Numeral.integer?_ofInt h.1 h.2]
  | .float _, _, h, _ => h.elim
  | .text s, _, _, _ => by
    rw [tree, Tree.ofString, read?, Literal.value?_ofString, Option.map_some]
  | .list items, levels, h, hdepth => by
    obtain ⟨inner, rfl, hitems⟩ := Tree.depth_array_le hdepth
    rw [tree, read?, Wire.enter?, Option.bind_eq_bind, Option.bind_some,
      readItems?_itemTrees items inner h hitems, Option.bind_eq_bind, Option.bind_some]
  | .dict members, levels, h, hdepth => by
    obtain ⟨inner, rfl, hmembers⟩ := Tree.depth_object_le hdepth
    rw [tree, read?, Wire.enter?, Option.bind_eq_bind, Option.bind_some,
      readMembers?_memberTrees members inner h.2 hmembers, Option.bind_eq_bind, Option.bind_some,
      sorted_eq h.1]

theorem readItems?_itemTrees : ∀ (items : List Datum) (levels : Nat), PlainItems items →
    (∀ t ∈ itemTrees items, t.depth ≤ levels) → readItems? levels (itemTrees items) = some items
  | [], _, _, _ => rfl
  | item :: items, levels, h, hdepth => by
    obtain ⟨hitem, hitems⟩ := List.forall_mem_cons.mp hdepth
    rw [itemTrees, readItems?, read?_tree item levels h.1 hitem,
      readItems?_itemTrees items levels h.2 hitems]
    rfl

theorem readMembers?_memberTrees : ∀ (members : List (String × Datum)) (levels : Nat),
    PlainMembers members → (∀ m ∈ memberTrees members, m.2.depth ≤ levels) →
      readMembers? levels (memberTrees members) = some members
  | [], _, _, _ => rfl
  | (name, value) :: members, levels, h, hdepth => by
    obtain ⟨hvalue, hmembers⟩ := List.forall_mem_cons.mp hdepth
    rw [memberTrees, readMembers?, Literal.value?_ofString, read?_tree value levels h.1 hvalue,
      readMembers?_memberTrees members levels h.2 hmembers]
    rfl
end

end ExperienceCollection.Datum
