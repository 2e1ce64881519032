import ExperienceCollection.Proofs.Wire.Basic
import ExperienceCollection.Wire.Message
import ExperienceCollection.Wire.Settings
import Mathlib.Data.List.Perm.Basic
import Mathlib.Logic.Function.Basic

/-!
# Members of records

A record that is written as an object is read by the names of its members: `Holds` says which value
the object has under each name, and `record?` reads exactly the objects of which that can be said.
It does not depend on the order of the members, nor on members with other names.

A message is read by its form. Of a record it takes the values under the names of the form, and a
name that may be missing stands for `null`.
-/

namespace ExperienceCollection.Wire

open Json (Literal Tree)

variable {names : List String} {members members' : List (Literal × Tree)}
  {f f' : String → Option Tree}

/-! ## What an object holds -/

/-- The values under a name in an object, whatever the spelling of the name. -/
def valuesOf (name : String) (members : List (Literal × Tree)) : List Tree :=
  (members.filter fun m => m.1.value? = some name).map Prod.snd

/-- Under each of some names an object has the value that `f` gives, once, or none at all. All the
names of the object, these or others, have to denote strings. -/
structure Holds (names : List String) (members : List (Literal × Tree))
    (f : String → Option Tree) : Prop where
  denote : ∀ m ∈ members, ∃ name, m.1.value? = some name
  values : ∀ name ∈ names, valuesOf name members = (f name).toList

lemma valuesOf_cons_of_eq {label : Literal} {name : String} (h : label.value? = some name)
    (value : Tree) (members : List (Literal × Tree)) :
    valuesOf name ((label, value) :: members) = value :: valuesOf name members := by
  rw [valuesOf, List.filter_cons_of_pos (by simpa using h), List.map_cons, valuesOf]

lemma valuesOf_cons_of_ne {label : Literal} {name name' : String} (h : label.value? = some name)
    (hne : name' ≠ name) (value : Tree) (members : List (Literal × Tree)) :
    valuesOf name' ((label, value) :: members) = valuesOf name' members := by
  have hother : ¬label.value? = some name' := by
    rw [h]
    exact fun heq => hne (Option.some.inj heq).symm
  rw [valuesOf, List.filter_cons_of_neg (by simpa using hother), valuesOf]

lemma valuesOf_perm (h : members.Perm members') (name : String) :
    (valuesOf name members).Perm (valuesOf name members') :=
  (h.filter _).map _

lemma eq_toList_of_perm {α : Type} {l : List α} {o : Option α} (h : l.Perm o.toList) :
    l = o.toList := by
  cases o with
  | none => exact List.perm_nil.mp h
  | some a => exact List.perm_singleton.mp h

/-- The order of the members does not matter. -/
lemma Holds.perm (h : Holds names members f) (hperm : members.Perm members') :
    Holds names members' f where
  denote := fun m hm => h.denote m (hperm.mem_iff.mpr hm)
  values := by
    intro name hname
    have hvalues := valuesOf_perm hperm.symm name
    rw [h.values name hname] at hvalues
    exact eq_toList_of_perm hvalues

/-- Members with other names do not matter. -/
lemma holds_cons_iff_of_notMem {label : Literal} {value : Tree} {name : String}
    (h : label.value? = some name) (hname : name ∉ names) :
    Holds names ((label, value) :: members) f ↔ Holds names members f := by
  have hvalues : ∀ name' ∈ names,
      valuesOf name' ((label, value) :: members) = valuesOf name' members := by
    intro name' hname'
    have hne : name' ≠ name := by
      rintro rfl
      exact hname hname'
    exact valuesOf_cons_of_ne h hne value members
  constructor
  · intro hholds
    refine ⟨fun m hm => hholds.denote m (List.mem_cons_of_mem _ hm), fun name' hname' => ?_⟩
    rw [← hvalues name' hname', hholds.values name' hname']
  · intro hholds
    refine ⟨List.forall_mem_cons.mpr ⟨⟨name, h⟩, hholds.denote⟩, fun name' hname' => ?_⟩
    rw [hvalues name' hname', hholds.values name' hname']

/-- A member is the only one with its name. -/
lemma holds_cons_iff {label : Literal} {value : Tree} {name : String}
    (h : label.value? = some name) (hname : name ∈ names) :
    Holds names ((label, value) :: members) f ↔
      f name = some value ∧ Holds names members (Function.update f name none) := by
  constructor
  · intro hholds
    have hvalues := hholds.values name hname
    rw [valuesOf_cons_of_eq h] at hvalues
    have hsome : f name = some value ∧ valuesOf name members = [] := by
      cases hf : f name with
      | none =>
        rw [hf] at hvalues
        cases hvalues
      | some value' =>
        rw [hf] at hvalues
        obtain ⟨rfl, hrest⟩ := List.cons.inj hvalues
        exact ⟨rfl, hrest⟩
    refine ⟨hsome.1, fun m hm => hholds.denote m (List.mem_cons_of_mem _ hm), ?_⟩
    intro name' hname'
    by_cases heq : name' = name
    · subst heq
      rw [Function.update_self, hsome.2, Option.toList_none]
    · have hother := hholds.values name' hname'
      rw [valuesOf_cons_of_ne h heq] at hother
      rw [Function.update_of_ne heq, hother]
  · intro ⟨hvalue, hholds⟩
    refine ⟨List.forall_mem_cons.mpr ⟨⟨name, h⟩, hholds.denote⟩, fun name' hname' => ?_⟩
    have hrest := hholds.values name' hname'
    by_cases heq : name' = name
    · subst heq
      rw [Function.update_self] at hrest
      rw [valuesOf_cons_of_eq h, hrest, hvalue, Option.toList_none, Option.toList_some]
    · rw [Function.update_of_ne heq] at hrest
      rw [valuesOf_cons_of_ne h heq, hrest]

lemma Holds.eq_some_of_mem (h : Holds names members f) {m : Literal × Tree} (hm : m ∈ members)
    {name : String} (hlabel : m.1.value? = some name) (hname : name ∈ names) :
    f name = some m.2 := by
  obtain ⟨before, after, rfl⟩ := List.append_of_mem hm
  have hfirst := h.perm List.perm_middle
  exact ((holds_cons_iff hlabel hname).mp hfirst).1

/-- The value under a name may be exchanged for another one. -/
lemma Holds.replace {before after : List (Literal × Tree)} {label : Literal} {x : Tree}
    {name : String} (h : Holds names (before ++ (label, x) :: after) f)
    (hlabel : label.value? = some name) (hname : name ∈ names) (y : Tree) :
    Holds names (before ++ (label, y) :: after) (Function.update f name (some y)) := by
  have hfirst := h.perm List.perm_middle
  have hrest := ((holds_cons_iff hlabel hname).mp hfirst).2
  have hnew : Holds names ((label, y) :: (before ++ after)) (Function.update f name (some y)) := by
    apply (holds_cons_iff hlabel hname).mpr
    rw [Function.update_self, Function.update_idem]
    exact ⟨rfl, hrest⟩
  exact hnew.perm List.perm_middle.symm

/-! ## Reading records -/

lemma exists_named? (h : ∀ m ∈ members, ∃ name, m.1.value? = some name) :
    ∃ ms, named? members = some ms := by
  induction members with
  | nil => exact ⟨[], rfl⟩
  | cons m members ih =>
    obtain ⟨⟨name, hname⟩, hmembers⟩ := List.forall_mem_cons.mp h
    obtain ⟨ms, hms⟩ := ih hmembers
    rw [named?] at hms
    refine ⟨(name, m.2) :: ms, ?_⟩
    rw [named?, List.mapM_cons, hname, hms]
    rfl

lemma named?_eq_some {ms : List (String × Tree)} (h : named? members = some ms) :
    (∀ m ∈ members, ∃ name, m.1.value? = some name) ∧
      ∀ name, (ms.filter fun m => m.1 = name).map Prod.snd = valuesOf name members := by
  induction members generalizing ms with
  | nil =>
    obtain rfl := Option.some.inj h
    exact ⟨nofun, fun _ => rfl⟩
  | cons m members ih =>
    obtain ⟨label, value⟩ := m
    rw [named?, List.mapM_cons] at h
    obtain ⟨first, hfirst, h⟩ := Option.bind_eq_some_iff.mp h
    obtain ⟨rest, hrest, h⟩ := Option.bind_eq_some_iff.mp h
    obtain rfl := Option.some.inj h
    obtain ⟨name, hname, hfirst⟩ := Option.bind_eq_some_iff.mp hfirst
    obtain rfl := Option.some.inj hfirst
    obtain ⟨hdenote, hvalues⟩ := ih hrest
    refine ⟨List.forall_mem_cons.mpr ⟨⟨name, hname⟩, hdenote⟩, fun name' => ?_⟩
    by_cases heq : name' = name
    · subst heq
      rw [valuesOf_cons_of_eq hname, ← hvalues, List.filter_cons_of_pos (by simp), List.map_cons]
    · have hne : name ≠ name' := fun h => heq h.symm
      rw [valuesOf_cons_of_ne hname heq, ← hvalues, List.filter_cons_of_neg (by simpa using hne)]

lemma member?_eq_some_iff {ms : List (String × Tree)} {name : String} {o : Option Tree} :
    member? ms name = some o ↔ (ms.filter fun m => m.1 = name).map Prod.snd = o.toList := by
  unfold member?
  split
  · rename_i hnil
    rw [hnil]
    cases o with
    | none => exact iff_of_true rfl rfl
    | some t => exact iff_of_false nofun nofun
  · rename_i m hsingle
    rw [hsingle]
    cases o with
    | none => exact iff_of_false nofun nofun
    | some t => simp
  · rename_i hnil hsingle
    refine iff_of_false nofun fun hvalues => ?_
    have hlength := congrArg List.length hvalues
    rw [List.length_map] at hlength
    match hfilter : ms.filter fun m => m.1 = name with
    | [] => exact hnil hfilter
    | [m] => exact hsingle m hfilter
    | _ :: _ :: _ =>
      rw [hfilter] at hlength
      cases o with
      | none => cases hlength
      | some t => cases hlength

/-- What is read is a function of what was read it from. -/
lemma eq_map_of_mapM {α β : Type} {read : α → Option (Option β)} {l : List α}
    {values : List (Option β)} (h : l.mapM read = some values) :
    values = l.map (fun a => (read a).join) ∧ ∀ a ∈ l, read a = some (read a).join := by
  induction l generalizing values with
  | nil =>
    obtain rfl := Option.some.inj h
    exact ⟨rfl, nofun⟩
  | cons a l ih =>
    rw [List.mapM_cons] at h
    obtain ⟨first, hfirst, h⟩ := Option.bind_eq_some_iff.mp h
    obtain ⟨rest, hrest, h⟩ := Option.bind_eq_some_iff.mp h
    obtain rfl := Option.some.inj h
    obtain ⟨rfl, hall⟩ := ih hrest
    have ha : read a = some (read a).join := by
      rw [hfirst]
      rfl
    refine ⟨?_, List.forall_mem_cons.mpr ⟨ha, hall⟩⟩
    rw [List.map_cons, hfirst]
    rfl

/-- A record is read from an object if it holds something under the names. -/
lemma record?_object_iff {levels : Nat} {r : Nat × List (Option Tree)} :
    record? names levels (.object members) = some r ↔
      ∃ inner f, levels = inner + 1 ∧ Holds names members f ∧ r = (inner, names.map f) := by
  constructor
  · intro h
    obtain ⟨inner, hinner, h⟩ := Option.bind_eq_some_iff.mp h
    obtain ⟨ms, hms, h⟩ := Option.bind_eq_some_iff.mp h
    obtain ⟨values, hvalues, h⟩ := Option.bind_eq_some_iff.mp h
    obtain ⟨rfl, hmember⟩ := eq_map_of_mapM hvalues
    obtain ⟨hdenote, hnamed⟩ := named?_eq_some hms
    have hlevels : levels = inner + 1 := by
      cases levels with
      | zero => cases hinner
      | succ levels => rw [Option.some.inj hinner]
    have hholds : Holds names members fun name => (member? ms name).join := by
      refine ⟨hdenote, fun name hname => ?_⟩
      rw [← hnamed name]
      exact member?_eq_some_iff.mp (hmember name hname)
    exact ⟨inner, _, hlevels, hholds, (Option.some.inj h).symm⟩
  · rintro ⟨inner, f, rfl, hholds, rfl⟩
    obtain ⟨ms, hms⟩ := exists_named? hholds.denote
    have hmember : ∀ name ∈ names, member? ms name = some (f name) := by
      intro name hname
      rw [member?_eq_some_iff, (named?_eq_some hms).2 name]
      exact hholds.values name hname
    simp only [record?, enter?, hms, mapM_eq_some hmember, Option.bind_eq_bind, Option.bind_some]

/-! ## Forms -/

/-- The names of the members of a record, and those of them that may be missing. -/
structure Form where
  names : List String
  optional : List String
  optional_mem : ∀ name ∈ optional, name ∈ names := by decide

namespace Form

variable {form : Form} {α μ ε β : Type}

def instruction : Form where
  names := ["rollout_index", "segment_index", "num_steps", "models", "exploration_params",
    "return_env_metrics"]
  optional := ["models", "exploration_params"]

def result : Form where
  names := ["rollout_index", "segment_index", "num_experiences", "num_steps", "env_end",
    "total_reward", "experiences", "env_metrics"]
  optional := ["total_reward", "env_metrics"]

def envelope : Form where
  names := ["source", "tag", "session", "body"]
  optional := []

def coordinatorConfig : Form where
  names := ["group_name", "num_peers", "peer_role", "log_env_metrics"]
  optional := []

def storeConfig : Form where
  names := ["keys", "capacity", "overwrite_policy"]
  optional := ["overwrite_policy"]

/-- Two records with the same members, except that members which may be missing can be `null` in
the first record and missing from the second one. -/
def Agree (form : Form) (f f' : String → Option Tree) : Prop :=
  ∀ name ∈ form.names,
    f' name = f name ∨ name ∈ form.optional ∧ f name = some .null ∧ f' name = none

lemma Agree.refl (form : Form) (f : String → Option Tree) : form.Agree f f :=
  fun _ _ => .inl rfl

lemma Agree.required (h : form.Agree f f') {name : String} (hname : name ∈ form.names)
    (hrequired : name ∉ form.optional) : f' name = f name := by
  rcases h name hname with heq | ⟨hoptional, -, -⟩
  · exact heq
  · exact absurd hoptional hrequired

lemma Agree.missing? (h : form.Agree f f') {name : String} (hname : name ∈ form.names)
    (read : Reader α) (levels : Nat) :
    missing? read levels (f' name) = missing? read levels (f name) := by
  rcases h name hname with heq | ⟨-, hnull, hnone⟩
  · rw [heq]
  · rw [hnull, hnone]
    rfl

/-- A reader that reads a record of a form and nothing else: it fails where there is none, and it
makes no difference between records that agree. -/
structure ReadBy (form : Form) (read : Reader α) : Prop where
  refuses : ∀ {levels t}, record? form.names levels t = none → read levels t = none
  agrees : ∀ {levels inner t t' f f'},
    record? form.names levels t = some (inner, form.names.map f) →
    record? form.names levels t' = some (inner, form.names.map f') →
    form.Agree f f' → read levels t' = read levels t

/-- Where something is read there is a record. -/
lemma ReadBy.exists_record? {read : Reader α} (h : form.ReadBy read) {levels : Nat} {t : Tree}
    {v : α} (hv : read levels t = some v) : ∃ r, record? form.names levels t = some r := by
  apply Option.ne_none_iff_exists'.mp
  intro hnone
  rw [h.refuses hnone] at hv
  cases hv

lemma readBy_instruction (model? : Reader μ) : instruction.ReadBy (instruction? model?) where
  refuses := by
    intro levels t h
    simp only [instruction] at h
    simp only [instruction?, h, Option.bind_eq_bind, Option.bind_none]
  agrees := by
    intro levels inner t t' f f' h h' hagree
    simp only [instruction, List.map_cons, List.map_nil] at h h'
    simp (disch := decide) only [instruction?, h, h', hagree.required, hagree.missing?,
      Option.bind_eq_bind, Option.bind_some]

lemma readBy_result (experiences? : Reader ε) : result.ReadBy (result? experiences?) where
  refuses := by
    intro levels t h
    simp only [result] at h
    simp only [result?, h, Option.bind_eq_bind, Option.bind_none]
  agrees := by
    intro levels inner t t' f f' h h' hagree
    simp only [result, List.map_cons, List.map_nil] at h h'
    simp (disch := decide) only [result?, h, h', hagree.required, hagree.missing?,
      Option.bind_eq_bind, Option.bind_some]

lemma readBy_envelope (body? : Reader β) : envelope.ReadBy (envelope? body?) where
  refuses := by
    intro levels t h
    simp only [envelope] at h
    simp only [envelope?, h, Option.bind_eq_bind, Option.bind_none]
  agrees := by
    intro levels inner t t' f f' h h' hagree
    simp only [envelope, List.map_cons, List.map_nil] at h h'
    simp (disch := decide) only [envelope?, h, h', hagree.required, Option.bind_eq_bind,
      Option.bind_some]

lemma readBy_coordinatorConfig : coordinatorConfig.ReadBy coordinatorConfig? where
  refuses := by
    intro levels t h
    simp only [coordinatorConfig] at h
    simp only [coordinatorConfig?, h, Option.bind_eq_bind, Option.bind_none]
  agrees := by
    intro levels inner t t' f f' h h' hagree
    simp only [coordinatorConfig, List.map_cons, List.map_nil] at h h'
    simp (disch := decide) only [coordinatorConfig?, h, h', hagree.required, Option.bind_eq_bind,
      Option.bind_some]

lemma readBy_storeConfig : storeConfig.ReadBy storeConfig? where
  refuses := by
    intro levels t h
    simp only [storeConfig] at h
    simp only [storeConfig?, h, Option.bind_eq_bind, Option.bind_none]
  agrees := by
    intro levels inner t t' f f' h h' hagree
    simp only [storeConfig, List.map_cons, List.map_nil] at h h'
    simp (disch := decide) only [storeConfig?, h, h', hagree.required, hagree.missing?,
      Option.bind_eq_bind, Option.bind_some]

end Form

end ExperienceCollection.Wire
