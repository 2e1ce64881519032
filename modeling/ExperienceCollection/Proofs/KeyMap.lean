import ExperienceCollection.KeyMap
import Mathlib.Data.List.Nodup
import Mathlib.Data.List.Perm.Subperm
import Mathlib.Order.Nat
import Mathlib.Tactic.Lemma

/-!
# Maps ordered by name, continued

The names of a map ascend, so each of them stands there once, and the names decide the order of the
entries. Two maps are equal as soon as they agree name by name.
-/

namespace ExperienceCollection.KeyMap

variable {α : Type}

lemma mem_entries_of_get? {m : KeyMap α} {k : String} {v : α} (h : m.get? k = some v) :
    (k, v) ∈ m.entries := by
  obtain ⟨front, back, he, -⟩ := List.lookup_eq_some_iff.mp h
  simp [he]

lemma exists_get?_of_mem_keys {m : KeyMap α} {k : String} (h : k ∈ m.keys) :
    ∃ v, m.get? k = some v :=
  Option.isSome_iff_exists.mp (mem_keys_iff.mp h)

lemma mem_keys_of_get? {m : KeyMap α} {k : String} {v : α} (h : m.get? k = some v) : k ∈ m.keys :=
  mem_keys_iff.mpr (by simp [h])

lemma length_keys (m : KeyMap α) : m.keys.length = m.size := List.length_map _

lemma nodup_keys (m : KeyMap α) : m.keys.Nodup := m.ascending.imp Std.ne_of_lt

/-- Names that ascend are listed in one way only. -/
lemma eq_of_ascending {ks ls : List String} (hks : ks.Pairwise (· < ·)) (hls : ls.Pairwise (· < ·))
    (h : ks.Perm ls) : ks = ls :=
  h.eq_of_pairwise (fun _ _ _ _ hkl hlk => (String.lt_asymm hkl hlk).elim) hks hls

/-- As many names as another map has, each of them one of its names, are all its names. -/
lemma keys_eq_of_size {β : Type} {m : KeyMap α} {n : KeyMap β} (hsize : m.size = n.size)
    (hsub : ∀ k, k ∈ m.keys → k ∈ n.keys) : m.keys = n.keys := by
  have hlen : n.keys.length ≤ m.keys.length := by rw [length_keys, length_keys, hsize]
  have hperm := (m.nodup_keys.subperm hsub).perm_of_length_le hlen
  exact eq_of_ascending m.ascending n.ascending hperm

lemma get?_foldl_insert_const (ks : List String) (v : α) (m : KeyMap α) (k : String) :
    ((ks.map fun k => (k, v)).foldl (fun m e => m.insert e.1 e.2) m).get? k =
      if k ∈ ks then some v else m.get? k := by
  induction ks generalizing m with
  | nil => simp
  | cons j ks ih =>
    rw [List.map_cons, List.foldl_cons, ih, get?_insert]
    by_cases hk : k ∈ ks
    · simp [hk]
    · simp [hk]

/-- The map that stores one value under each name of a list. -/
lemma get?_ofList_const (ks : List String) (v : α) (k : String) :
    (ofList (ks.map fun k => (k, v))).get? k = if k ∈ ks then some v else none := by
  rw [ofList, get?_foldl_insert_const, get?_empty]

lemma get?_eq_some_iff {m : KeyMap α} {k : String} {v : α} :
    m.get? k = some v ↔ (k, v) ∈ m.entries := by
  refine ⟨mem_entries_of_get?, fun hmem => ?_⟩
  obtain ⟨w, hw⟩ := exists_get?_of_mem_keys (List.mem_map_of_mem hmem : k ∈ m.keys)
  have hsame := List.inj_on_of_nodup_map m.nodup_keys (mem_entries_of_get? hw) hmem rfl
  rw [hw, (Prod.mk.inj hsame).2]

/-- The first entry that satisfies a condition has the least name of all that do. -/
lemma least_of_find? {m : KeyMap α} {p : α → Bool} {k : String} {v : α}
    (h : (m.entries.find? fun e => p e.2) = some (k, v)) :
    m.get? k = some v ∧ p v = true ∧ ∀ x w, m.get? x = some w → p w = true → k ≤ x := by
  obtain ⟨hp, front, back, hentries, hfront⟩ := List.find?_eq_some_iff_append.mp h
  have hascending := m.ascending
  rw [hentries, List.map_append, List.map_cons, List.pairwise_append] at hascending
  obtain ⟨-, hback, -⟩ := hascending
  refine ⟨get?_eq_some_iff.mpr (List.mem_of_find?_eq_some h), hp, ?_⟩
  intro x w hw hpw
  rw [get?_eq_some_iff, hentries, List.mem_append, List.mem_cons] at hw
  rcases hw with hw | hw | hw
  · have hnot := hfront (x, w) hw
    simp [hpw] at hnot
  · obtain rfl : x = k := (Prod.mk.inj hw).1
    exact String.le_refl x
  · exact Std.le_of_lt ((List.pairwise_cons.mp hback).1 x (List.mem_map_of_mem hw))

lemma lookup_of_notMem {es : List (String × α)} {k : String} (h : k ∉ es.map Prod.fst) :
    es.lookup k = none := by
  rw [List.lookup_eq_none_iff]
  intro e he
  rw [bne_iff_ne]
  rintro rfl
  exact h (List.mem_map_of_mem he)

lemma eq_of_lookup {es fs : List (String × α)} (hn : (es.map Prod.fst).Nodup)
    (hkeys : es.map Prod.fst = fs.map Prod.fst) (h : ∀ k, es.lookup k = fs.lookup k) :
    es = fs := by
  induction es generalizing fs with
  | nil => exact (List.map_eq_nil_iff.mp hkeys.symm).symm
  | cons e es ih =>
    obtain ⟨k, v⟩ := e
    cases fs with
    | nil => simp at hkeys
    | cons f fs =>
      obtain ⟨k', v'⟩ := f
      simp only [List.map_cons, List.cons.injEq] at hkeys
      obtain ⟨rfl, hrest⟩ := hkeys
      obtain ⟨hk, hn⟩ := List.nodup_cons.mp hn
      have hv : v = v' := by simpa using h k
      have htail (x : String) : es.lookup x = fs.lookup x := by
        by_cases hx : x = k
        · subst hx
          rw [lookup_of_notMem hk, lookup_of_notMem (hrest ▸ hk)]
        · simpa only [List.lookup_cons, beq_false_of_ne hx] using h x
      rw [hv, ih hn hrest htail]

/-- Maps with the same names and the same values under them are equal. -/
theorem ext_get? {m n : KeyMap α} (hkeys : m.keys = n.keys) (h : ∀ k, m.get? k = n.get? k) :
    m = n := by
  apply ext_entries
  exact eq_of_lookup (m.ascending.imp fun hlt => (Std.ne_of_lt hlt)) hkeys h

/-- To change the value under a name, its value there is all one has to know. -/
lemma modify_congr {m : KeyMap α} {k : String} {f g : α → α}
    (h : ∀ v, m.get? k = some v → f v = g v) : m.modify k f = m.modify k g := by
  apply ext_get?
  · rw [keys_modify, keys_modify]
  · intro x
    rw [get?_modify, get?_modify]
    by_cases hx : x = k
    · subst hx
      rw [if_pos rfl, if_pos rfl]
      exact Option.map_congr h
    · rw [if_neg hx, if_neg hx]

lemma modify_id (m : KeyMap α) (k : String) : m.modify k id = m := by
  apply ext_get?
  · exact keys_modify m k id
  · intro x
    rw [get?_modify, Option.map_id, id, ite_self]

/-- Changes name by name, each name in its turn, are one change of the whole map. -/
lemma foldl_modify {β : Type} {es : List (String × β)} (hn : (es.map Prod.fst).Nodup) (m : KeyMap α)
    (f : α → β → α) :
    es.foldl (fun m e => m.modify e.1 fun v => f v e.2) m =
      m.map fun k v => (es.lookup k).elim v (f v) := by
  induction es generalizing m with
  | nil =>
    apply ext_get?
    · rw [keys_map]
      rfl
    · intro k
      rw [get?_map]
      exact Option.map_id'.symm
  | cons e es ih =>
    obtain ⟨hk, hn⟩ := List.nodup_cons.mp hn
    rw [List.foldl_cons, ih hn]
    apply ext_get?
    · rw [keys_map, keys_map, keys_modify]
    · intro k
      rw [get?_map, get?_map, get?_modify, List.lookup_cons]
      by_cases hke : k = e.1
      · subst hke
        rw [if_pos rfl, lookup_of_notMem hk, beq_self_eq_true, Option.map_map]
        rfl
      · rw [if_neg hke, beq_false_of_ne hke]

lemma place_of_forall_lt (k : String) (v : α) {es : List (String × α)}
    (h : ∀ e ∈ es, e.1 < k) : place k v es = es ++ [(k, v)] := by
  induction es with
  | nil => rfl
  | cons e es ih =>
    obtain ⟨he, hes⟩ := List.forall_mem_cons.mp h
    rw [place, if_neg (String.lt_asymm he), if_neg (String.ne_of_lt he).symm, ih hes]
    rfl

/-- A map is made of its own entries. -/
lemma ofList_entries (m : KeyMap α) : ofList m.entries = m := by
  have hfold (read rest : List (String × α)) (built : KeyMap α) (hbuilt : built.entries = read)
      (hasc : ((read ++ rest).map Prod.fst).Pairwise (· < ·)) :
      (rest.foldl (fun m e => m.insert e.1 e.2) built).entries = read ++ rest := by
    -- Every entry that is added lies above all that were added before it.
    induction rest generalizing read built with
    | nil => rw [List.foldl_nil, hbuilt, List.append_nil]
    | cons e rest ih =>
      have hbelow : ∀ e' ∈ read, e'.1 < e.1 := by
        intro e' he'
        rw [List.map_append, List.pairwise_append] at hasc
        exact hasc.2.2 _ (List.mem_map_of_mem he') _ List.mem_cons_self
      have hinsert : (built.insert e.1 e.2).entries = read ++ [e] := by
        have hplace : (built.insert e.1 e.2).entries = place e.1 e.2 built.entries := rfl
        rw [hplace, hbuilt]
        exact place_of_forall_lt e.1 e.2 hbelow
      have hsplit : read ++ e :: rest = read ++ [e] ++ rest := by simp
      rw [hsplit] at hasc ⊢
      exact ih (read ++ [e]) _ hinsert hasc
  apply ext_entries
  exact hfold [] m.entries empty rfl m.ascending

end ExperienceCollection.KeyMap
