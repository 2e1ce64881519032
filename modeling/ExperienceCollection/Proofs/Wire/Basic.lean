import ExperienceCollection.Proofs.Json.Tree
import ExperienceCollection.Proofs.KeyMap
import ExperienceCollection.Wire.Basic

/-!
# Reading values back

Plain values, lists, maps, records and alternatives are read from the trees that they are written
as. A reader that opens a container has one level less for what is in it.
-/

namespace ExperienceCollection

namespace Wire

open Json (Literal Tree)

variable {α : Type} {levels : Nat}

@[simp] lemma nat?_ofNat {n : Nat} (h : n ≤ Counter.top) : nat? levels (.ofNat n) = some n := by
  simp only [nat?, Tree.ofNat, Json.Numeral.integer?_ofNat h]

@[simp] lemma string?_ofString (s : String) : string? levels (.ofString s) = some s :=
  Literal.value?_ofString s

@[simp] lemma choice?_ofString (s : String) :
    choice? levels (.ofString s) = some (levels, s, none) := by
  simp [choice?, Tree.ofString, Literal.value?_ofString]

lemma choice?_ofMembers (name : String) (t : Tree) :
    choice? (levels + 1) (.ofMembers [(name, t)]) = some (levels, name, some t) := by
  simp [choice?, Tree.ofMembers, enter?, Literal.value?_ofString]

lemma optional?_of_ne_null {t : Tree} (h : t ≠ .null) (read : Reader α) :
    optional? read levels t = (read levels t).map some := by
  cases t with
  | null => contradiction
  | _ => rfl

/-- A member that may be missing is read from `null`, or from its value, which is not `null`. -/
lemma missing?_ofOption {read : Reader α} {write : α → Tree} {o : Option α}
    (hnull : ∀ a ∈ o, write a ≠ .null) (h : ∀ a ∈ o, read levels (write a) = some a) :
    missing? read levels (some (ofOption write o)) = some o := by
  cases o with
  | none => rfl
  | some a =>
    rw [missing?, ofOption, optional?_of_ne_null (hnull a rfl), h a rfl, Option.map_some]

lemma mapM_eq_some {β : Type} {read : α → Option β} {f : α → β} {l : List α}
    (h : ∀ a ∈ l, read a = some (f a)) : l.mapM read = some (l.map f) := by
  induction l with
  | nil => rfl
  | cons a l ih =>
    obtain ⟨ha, hl⟩ := List.forall_mem_cons.mp h
    rw [List.mapM_cons, ha, ih hl]
    rfl

lemma mapM_map {β : Type} {read : β → Option α} {write : α → β} {l : List α}
    (h : ∀ a ∈ l, read (write a) = some a) : (l.map write).mapM read = some l := by
  have hread : l.mapM (read ∘ write) = some (l.map id) := mapM_eq_some h
  rw [List.mapM_map, hread, List.map_id]

lemma list?_ofList {read : Reader α} {write : α → Tree} {items : List α}
    (h : ∀ a ∈ items, read levels (write a) = some a) :
    list? read (levels + 1) (ofList write items) = some items :=
  mapM_map h

lemma named?_ofMembers (members : List (String × Tree)) :
    named? (members.map fun m => (Literal.ofString m.1, m.2)) = some members := by
  apply mapM_map
  intro m _
  rw [Literal.value?_ofString]
  rfl

lemma map?_ofMap {read : Reader α} {write : α → Tree} {m : KeyMap α}
    (h : ∀ e ∈ m.entries, read levels (write e.2) = some e.2) :
    map? read (levels + 1) (ofMap write m) = some m := by
  have hentries : (m.entries.map fun e => (e.1, write e.2)).mapM
      (fun e => do some (e.1, ← read levels e.2)) = some m.entries := by
    apply mapM_map
    intro e he
    rw [h e he]
    rfl
  simp only [ofMap, Tree.ofMembers, map?, enter?, named?_ofMembers, Option.bind_eq_bind,
    Option.bind_some] at hentries ⊢
  rw [hentries, Option.bind_some, KeyMap.ofList_entries]

lemma member?_of_nodup {members : List (String × Tree)} (h : (members.map Prod.fst).Nodup)
    {m : String × Tree} (hm : m ∈ members) : member? members m.1 = some (some m.2) := by
  have hfilter : (members.filter fun m' => m'.1 = m.1) = [m] := by
    induction members with
    | nil => cases hm
    | cons first members ih =>
      obtain ⟨hfirst, hrest⟩ := List.nodup_cons.mp h
      rcases List.mem_cons.mp hm with rfl | hm
      · rw [List.filter_cons_of_pos (by simp), List.filter_eq_nil_iff.mpr]
        intro m' hm' heq
        exact hfirst (of_decide_eq_true heq ▸ List.mem_map_of_mem hm')
      · rw [List.filter_cons_of_neg]
        · exact ih hrest hm
        · intro heq
          exact hfirst (of_decide_eq_true heq ▸ List.mem_map_of_mem hm)
  rw [member?, hfilter]

/-- A record with distinct names is read member by member. -/
lemma record?_ofMembers {members : List (String × Tree)} (h : (members.map Prod.fst).Nodup)
    (levels : Nat) :
    record? (members.map Prod.fst) (levels + 1) (.ofMembers members) =
      some (levels, members.map fun m => some m.2) := by
  have hmembers : (members.map Prod.fst).mapM (member? members) =
      some (members.map fun m => some m.2) := by
    have hall : ∀ part ⊆ members, (part.map Prod.fst).mapM (member? members) =
        some (part.map fun m => some m.2) := by
      intro part hpart
      induction part with
      | nil => rfl
      | cons m part ih =>
        obtain ⟨hm, hrest⟩ := List.cons_subset.mp hpart
        rw [List.map_cons, List.mapM_cons, member?_of_nodup h hm, ih hrest]
        rfl
    exact hall members (List.Subset.refl _)
  simp only [record?, Tree.ofMembers, enter?, named?_ofMembers, Option.bind_eq_bind,
    Option.bind_some, hmembers]

lemma record?_zip {names : List String} (values : List Tree) (h : names.Nodup)
    (hlength : names.length = values.length) :
    record? names (levels + 1) (.ofMembers (names.zip values)) =
      some (levels, values.map some) := by
  have hnames : (names.zip values).map Prod.fst = names := List.map_fst_zip (Nat.le_of_eq hlength)
  have hvalues : (names.zip values).map Prod.snd = values :=
    List.map_snd_zip (Nat.le_of_eq hlength.symm)
  have hdistinct : ((names.zip values).map Prod.fst).Nodup := hnames.symm ▸ h
  have hrecord := record?_ofMembers hdistinct levels
  rw [hnames] at hrecord
  rw [hrecord, ← hvalues, List.map_map, hvalues]
  rfl

end Wire

end ExperienceCollection
