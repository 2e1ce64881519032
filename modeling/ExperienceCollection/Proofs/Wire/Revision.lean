import ExperienceCollection.Proofs.Json.Legible
import ExperienceCollection.Proofs.Wire.Record
import ExperienceCollection.Proofs.Wire.RoundTrip
import Mathlib.Logic.Relation

/-!
# Messages of other versions

A peer of another version writes the members of a record in an order of its own, with members that
are not known here, and leaves out members that are `null`. Such a revision of a message, also of
the records inside it, is read as the message itself. A record in which a member is repeated is not
read at all.
-/

namespace ExperienceCollection.Wire

open Json (Literal Tree Token)
open Relation (ReflTransGen)

/-- A change to a tree, as a relation between what it was and what it has become. -/
abbrev Edit := Tree → Tree → Prop

namespace Form

/-- A record with its members in another order, with one more member that the form does not have,
or without a member that was `null`. Where the new member stands does not matter, nor how its name
is spelled, and its value is whatever can stand in a text. -/
inductive Revises (form : Form) : Edit
  | permute {members members' : List (Literal × Tree)} (h : members.Perm members') :
    Revises form (.object members) (.object members')
  | extend {members members' : List (Literal × Tree)} {label : Literal} {value : Tree}
    {name : String} (hlabel : label.value? = some name) (hname : name ∉ form.names)
    (hlegible : Tree.Written (.text label)) (hvalue : value.Written)
    (h : members'.Perm ((label, value) :: members)) :
    Revises form (.object members) (.object members')
  | reduce {members members' : List (Literal × Tree)} {label : Literal} {name : String}
    (hlabel : label.value? = some name) (hname : name ∈ form.optional)
    (h : members.Perm ((label, .null) :: members')) :
    Revises form (.object members) (.object members')

/-- A record with one more member under the name of a member that it has, in any spelling. -/
inductive Repeats (form : Form) : Edit
  | repeated {members members' : List (Literal × Tree)} {m : Literal × Tree} {label : Literal}
    {value : Tree} {name : String} (hm : m ∈ members) (hfirst : m.1.value? = some name)
    (hname : name ∈ form.names) (hlabel : label.value? = some name)
    (hlegible : Tree.Written (.text label)) (hvalue : value.Written)
    (h : members'.Perm ((label, value) :: members)) :
    Repeats form (.object members) (.object members')

end Form

/-- A change to the value of one member of an object. -/
inductive Within (name : String) (edit : Edit) : Edit
  | member {before after : List (Literal × Tree)} {label : Literal} {x y : Tree}
    (hlabel : label.value? = some name) (h : edit x y) :
    Within name edit (.object (before ++ (label, x) :: after))
      (.object (before ++ (label, y) :: after))

/-- Where a message has records, and of which forms: what an edit of records makes of messages. -/
abbrev Sites := (Form → Edit) → Edit

/-- The message is a record itself. -/
def Form.itself (form : Form) : Sites := fun edit => edit form

/-- An envelope is a record, and its body has others. -/
def inEnvelope (body : Sites) : Sites := fun edit t t' =>
  edit .envelope t t' ∨ Within "body" (body edit) t t'

/-- A command with an instruction has the records of the instruction. -/
def inCommand (instruction : Sites) : Sites := fun edit => Within "Rollout" (instruction edit)

/-- One text holds a tree, and the other one holds what has become of it. -/
def Rewrites (edit : Edit) (text text' : String) : Prop :=
  ∃ t t', Tree.parse? text = some t ∧ Tree.parse? text' = some t' ∧ edit t t'

/-- A message is decoded to the same value after any number of revisions of its records, and it is
not decoded once one of them has a member twice. What has become of a tree that stands in some text
stands in some text again. -/
structure Compatible {α : Type} (read : Reader α) (sites : Sites) : Prop where
  revised : ∀ {text text' : String} {v : α},
    Rewrites (ReflTransGen (sites Form.Revises)) text text' →
      decode? read text = some v → decode? read text' = some v
  repeated : ∀ {text text' : String},
    Rewrites (sites Form.Repeats) text text' → decode? read text' = none
  written : ∀ {t t' : Tree}, t.Written →
    ReflTransGen (sites Form.Revises) t t' ∨ sites Form.Repeats t t' → t'.Written

/-! ## Edits of a record -/

variable {form : Form} {t t' : Tree} {levels : Nat}

lemma legible_extended {members members' : List (Literal × Tree)} {label : Literal} {value : Tree}
    (h : Tree.Legible (.object members)) (hlabel : Tree.Written (.text label))
    (hvalue : value.Written) (hperm : members'.Perm ((label, value) :: members)) :
    Tree.Legible (.object members') := by
  have hname := Tree.legible_text_iff.mp (Tree.legible_iff_written.mpr hlabel)
  have hvalue := Tree.legible_iff_written.mpr hvalue
  have hmembers := Tree.legible_object_cons_iff.mpr ⟨⟨hname, hvalue⟩, h⟩
  exact hmembers.perm hperm.symm

lemma Form.Revises.legible (h : form.Revises t t') (ht : t.Legible) : t'.Legible := by
  cases h with
  | permute hperm => exact ht.perm hperm
  | extend _ _ hlabel hvalue hperm => exact legible_extended ht hlabel hvalue hperm
  | reduce _ _ hperm => exact (Tree.legible_object_cons_iff.mp (ht.perm hperm)).2

lemma Form.Repeats.legible (h : form.Repeats t t') (ht : t.Legible) : t'.Legible := by
  cases h with
  | repeated _ _ _ _ hlabel hvalue hperm => exact legible_extended ht hlabel hvalue hperm

lemma Form.Revises.exists_object (h : form.Revises t t') :
    ∃ members members', t = .object members ∧ t' = .object members' := by
  cases h with
  | _ => exact ⟨_, _, rfl, rfl⟩

/-- What a record holds and what its revision holds agree. -/
lemma Form.Revises.exists_holds {members members' : List (Literal × Tree)}
    (h : form.Revises (.object members) (.object members')) {f : String → Option Tree}
    (hf : Holds form.names members f) :
    ∃ f', Holds form.names members' f' ∧ form.Agree f f' := by
  cases h with
  | permute hperm => exact ⟨f, hf.perm hperm, .refl form f⟩
  | extend hlabel hname _ _ hperm =>
    have hextended := Holds.perm ((holds_cons_iff_of_notMem hlabel hname).mpr hf) hperm.symm
    exact ⟨f, hextended, .refl form f⟩
  | @reduce _ _ label name hlabel hname hperm =>
    have hknown := form.optional_mem name hname
    obtain ⟨hnull, hrest⟩ := (holds_cons_iff hlabel hknown).mp (hf.perm hperm)
    refine ⟨_, hrest, fun name' _ => ?_⟩
    by_cases heq : name' = name
    · subst heq
      exact .inr ⟨hname, hnull, Function.update_self _ _ _⟩
    · exact .inl (Function.update_of_ne heq _ _)

/-- A revision of a record is a record again. -/
lemma Form.Revises.exists_record? (h : form.Revises t t') {r : Nat × List (Option Tree)}
    (hr : record? form.names levels t = some r) :
    ∃ inner f f', record? form.names levels t = some (inner, form.names.map f) ∧
      record? form.names levels t' = some (inner, form.names.map f') ∧ form.Agree f f' := by
  obtain ⟨members, members', rfl, rfl⟩ := h.exists_object
  obtain ⟨inner, f, rfl, hf, rfl⟩ := record?_object_iff.mp hr
  obtain ⟨f', hf', hagree⟩ := h.exists_holds hf
  exact ⟨inner, f, f', hr, record?_object_iff.mpr ⟨inner, f', rfl, hf', rfl⟩, hagree⟩

/-- A record with a member twice is none. -/
lemma Form.Repeats.record?_eq_none (h : form.Repeats t t') (levels : Nat) :
    record? form.names levels t' = none := by
  cases h with
  | repeated hm hfirst hname hlabel _ _ hperm =>
    by_contra hsome
    obtain ⟨r, hr⟩ := Option.ne_none_iff_exists'.mp hsome
    obtain ⟨_, f, -, hf, -⟩ := record?_object_iff.mp hr
    obtain ⟨-, hrest⟩ := (holds_cons_iff hlabel hname).mp (hf.perm hperm)
    have hvalue := hrest.eq_some_of_mem hm hfirst hname
    rw [Function.update_self] at hvalue
    cases hvalue

/-! ## Edits of a message -/

/-- What revisions and repetitions of the records of a message mean to its reader, and that they
leave trees legible. -/
structure Faithful {α : Type} (read : Reader α) (sites : Sites) : Prop where
  revises : ∀ {t t' levels v},
    sites Form.Revises t t' → read levels t = some v → read levels t' = some v
  repeats : ∀ {t t'}, sites Form.Repeats t t' → ∀ levels, read levels t' = none
  legible_revised : ∀ {t t'}, sites Form.Revises t t' → t.Legible → t'.Legible
  legible_repeated : ∀ {t t'}, sites Form.Repeats t t' → t.Legible → t'.Legible

variable {α μ ε β : Type} {sites : Sites}

lemma Form.ReadBy.faithful {read : Reader α} (h : form.ReadBy read) :
    Faithful read form.itself where
  revises := by
    intro t t' levels v hedit hv
    obtain ⟨r, hr⟩ := h.exists_record? hv
    obtain ⟨inner, f, f', hf, hf', hagree⟩ := Form.Revises.exists_record? hedit hr
    rw [h.agrees hf hf' hagree, hv]
  repeats := fun hedit levels => h.refuses (Form.Repeats.record?_eq_none hedit levels)
  legible_revised := Form.Revises.legible
  legible_repeated := Form.Repeats.legible

lemma Within.legible {name : String} {edit : Edit} (h : Within name edit t t')
    (hedit : ∀ {x y}, edit x y → x.Legible → y.Legible) (ht : t.Legible) : t'.Legible := by
  cases h with
  | member hlabel hvalue =>
    have hfirst := Tree.legible_object_cons_iff.mp (ht.perm List.perm_middle)
    have hmembers := Tree.legible_object_cons_iff.mpr
      ⟨⟨hfirst.1.1, hedit hvalue hfirst.1.2⟩, hfirst.2⟩
    exact hmembers.perm List.perm_middle.symm

/-- The value that stands in the place of another one is what the changed object holds. -/
lemma Within.exists_value {name : String} {edit : Edit} (h : Within name edit t t')
    {names : List String} (hname : name ∈ names) {r : Nat × List (Option Tree)}
    (hr : record? names levels t' = some r) :
    ∃ inner f x y, edit x y ∧ f name = some y ∧ r = (inner, names.map f) := by
  cases h with
  | @member before after label x y hlabel hvalue =>
    obtain ⟨inner, f, -, hf, rfl⟩ := record?_object_iff.mp hr
    have hmem : (label, y) ∈ before ++ (label, y) :: after :=
      List.mem_append_right _ List.mem_cons_self
    exact ⟨inner, f, x, y, hvalue, hf.eq_some_of_mem hmem hlabel hname, rfl⟩

lemma Within.exists_record? {name : String} {edit : Edit} (h : Within name edit t t')
    {names : List String} (hname : name ∈ names) {r : Nat × List (Option Tree)}
    (hr : record? names levels t = some r) :
    ∃ inner f x y, edit x y ∧ f name = some x ∧ record? names levels t = some (inner, names.map f) ∧
      record? names levels t' = some (inner, names.map (Function.update f name (some y))) := by
  cases h with
  | @member before after label x y hlabel hvalue =>
    obtain ⟨inner, f, rfl, hf, rfl⟩ := record?_object_iff.mp hr
    have hmem : (label, x) ∈ before ++ (label, x) :: after :=
      List.mem_append_right _ List.mem_cons_self
    have hchanged := record?_object_iff.mpr ⟨inner, _, rfl, hf.replace hlabel hname y, rfl⟩
    exact ⟨inner, f, x, y, hvalue, hf.eq_some_of_mem hmem hlabel hname, hr, hchanged⟩

lemma envelope?_eq_some_iff {body? : Reader β} {e : Envelope β} {inner : Nat}
    {f : String → Option Tree}
    (h : record? Form.envelope.names levels t = some (inner, Form.envelope.names.map f)) :
    envelope? body? levels t = some e ↔
      required? string? inner (f "source") = some e.source ∧
        required? tag? inner (f "tag") = some e.tag ∧
          required? session? inner (f "session") = some e.session ∧
            required? body? inner (f "body") = some e.body := by
  simp only [Form.envelope, List.map_cons, List.map_nil] at h
  simp only [envelope?, h, Option.bind_eq_bind, Option.bind_some, Option.bind_eq_some_iff,
    Option.some.injEq]
  constructor
  · rintro ⟨_, hsource, _, htag, _, hsession, _, hbody, rfl⟩
    exact ⟨hsource, htag, hsession, hbody⟩
  · rintro ⟨hsource, htag, hsession, hbody⟩
    exact ⟨_, hsource, _, htag, _, hsession, _, hbody, rfl⟩

/-- An envelope is read as before if its body is. -/
lemma envelope?_of_within {body? : Reader β} {edit : Edit} {e : Envelope β}
    (h : Within "body" edit t t')
    (hedit : ∀ {x y inner}, edit x y → body? inner x = some e.body → body? inner y = some e.body)
    (he : envelope? body? levels t = some e) : envelope? body? levels t' = some e := by
  obtain ⟨r, hr⟩ := (Form.readBy_envelope body?).exists_record? he
  obtain ⟨inner, f, x, y, hvalue, hx, hf, hf'⟩ := h.exists_record? (by decide) hr
  obtain ⟨hsource, htag, hsession, hbody⟩ := (envelope?_eq_some_iff hf).mp he
  rw [hx] at hbody
  apply (envelope?_eq_some_iff hf').mpr
  simp (disch := decide) only [Function.update_of_ne, Function.update_self]
  exact ⟨hsource, htag, hsession, hedit hvalue hbody⟩

lemma envelope?_eq_none_of_within {body? : Reader β} {edit : Edit} (h : Within "body" edit t t')
    (hedit : ∀ {x y}, edit x y → ∀ inner, body? inner y = none) :
    envelope? body? levels t' = none := by
  by_contra hsome
  obtain ⟨e, he⟩ := Option.ne_none_iff_exists'.mp hsome
  obtain ⟨r, hr⟩ := (Form.readBy_envelope body?).exists_record? he
  obtain ⟨inner, f, x, y, hvalue, hy, rfl⟩ := h.exists_value (by decide) hr
  obtain ⟨-, -, -, hbody⟩ := (envelope?_eq_some_iff hr).mp he
  rw [hy, required?, hedit hvalue] at hbody
  cases hbody

lemma Faithful.envelope {body? : Reader β} (h : Faithful body? sites) :
    Faithful (envelope? body?) (inEnvelope sites) where
  revises := by
    intro t t' levels e hedit he
    rcases hedit with hedit | hedit
    · exact (Form.readBy_envelope body?).faithful.revises hedit he
    · exact envelope?_of_within hedit h.revises he
  repeats := by
    intro t t' hedit levels
    rcases hedit with hedit | hedit
    · exact (Form.readBy_envelope body?).faithful.repeats hedit levels
    · exact envelope?_eq_none_of_within hedit h.repeats
  legible_revised := by
    intro t t' hedit ht
    rcases hedit with hedit | hedit
    · exact Form.Revises.legible hedit ht
    · exact hedit.legible h.legible_revised ht
  legible_repeated := by
    intro t t' hedit ht
    rcases hedit with hedit | hedit
    · exact Form.Repeats.legible hedit ht
    · exact hedit.legible h.legible_repeated ht

lemma command?_rollout_iff {model? : Reader μ} {c : Command μ} {label : Literal} {x : Tree}
    {before after : List (Literal × Tree)} (h : label.value? = some "Rollout") :
    command? model? levels (.object (before ++ (label, x) :: after)) = some c ↔
      (before = [] ∧ after = []) ∧
        ∃ inner i, levels = inner + 1 ∧ instruction? model? inner x = some i ∧ c = .rollout i := by
  by_cases halone : before = [] ∧ after = []
  · obtain ⟨rfl, rfl⟩ := halone
    cases levels with
    | zero => simp [command?, choice?, enter?]
    | succ inner =>
      have hchoice : choice? (inner + 1) (.object ([] ++ (label, x) :: [])) =
          some (inner, "Rollout", some x) := by
        simp [choice?, enter?, h]
      simp only [command?, hchoice, Option.bind_eq_bind, Option.bind_some,
        Option.bind_eq_some_iff, Option.some.injEq, and_self, true_and]
      constructor
      · rintro ⟨i, hi, rfl⟩
        exact ⟨inner, i, rfl, hi, rfl⟩
      · rintro ⟨_, i, hinner, hi, rfl⟩
        obtain rfl := Nat.succ.inj hinner
        exact ⟨i, hi, rfl⟩
  · have hchoice : choice? levels (.object (before ++ (label, x) :: after)) = none := by
      cases before with
      | nil =>
        cases after with
        | nil => exact absurd ⟨rfl, rfl⟩ halone
        | cons m after => rfl
      | cons m before =>
        cases before with
        | nil => rfl
        | cons m before => rfl
    simp [command?, hchoice, halone]

lemma Faithful.command {model? : Reader μ} (h : Faithful (instruction? model?) sites) :
    Faithful (command? model?) (inCommand sites) where
  revises := by
    intro t t' levels c hedit hc
    cases hedit with
    | member hlabel hvalue =>
      obtain ⟨halone, inner, i, rfl, hi, rfl⟩ := (command?_rollout_iff hlabel).mp hc
      exact (command?_rollout_iff hlabel).mpr ⟨halone, inner, i, rfl, h.revises hvalue hi, rfl⟩
  repeats := by
    intro t t' hedit levels
    cases hedit with
    | member hlabel hvalue =>
      by_contra hsome
      obtain ⟨c, hc⟩ := Option.ne_none_iff_exists'.mp hsome
      obtain ⟨-, inner, i, -, hi, -⟩ := (command?_rollout_iff hlabel).mp hc
      rw [h.repeats hvalue] at hi
      cases hi
  legible_revised := fun hedit ht => Within.legible hedit h.legible_revised ht
  legible_repeated := fun hedit ht => Within.legible hedit h.legible_repeated ht

/-! ## Any number of revisions -/

section Faithful

variable {read : Reader α} (h : Faithful read sites)

include h

lemma Faithful.run (hrun : ReflTransGen (sites Form.Revises) t t') {v : α}
    (hv : read levels t = some v) : read levels t' = some v := by
  induction hrun with
  | refl => exact hv
  | tail _ hstep ih => exact h.revises hstep ih

lemma Faithful.legible_run (hrun : ReflTransGen (sites Form.Revises) t t') (ht : t.Legible) :
    t'.Legible := by
  induction hrun with
  | refl => exact ht
  | tail _ hstep ih => exact h.legible_revised hstep ih

lemma Faithful.compatible : Compatible read sites where
  revised := by
    intro text text' v hrevised hv
    obtain ⟨t, t', ht, ht', hrun⟩ := hrevised
    rw [decode?, ht] at hv
    rw [decode?, ht']
    exact h.run hrun hv
  repeated := by
    intro text text' hrepeated
    obtain ⟨t, t', -, ht', hedit⟩ := hrepeated
    rw [decode?, ht']
    exact h.repeats hedit depthLimit
  written := by
    intro t t' ht hedit
    have ht := Tree.legible_iff_written.mpr ht
    apply Tree.legible_iff_written.mp
    rcases hedit with hrun | hedit
    · exact h.legible_run hrun ht
    · exact h.legible_repeated hedit ht

end Faithful

/-- Instructions, results, envelopes of results and of commands, and configurations are compatible
with other versions, whatever models and experiences are. -/
theorem compatibility_of_messages (model? : Reader μ) (experiences? : Reader ε) :
    Compatible (instruction? model?) Form.instruction.itself ∧
    Compatible (result? experiences?) Form.result.itself ∧
    Compatible (envelope? (result? experiences?)) (inEnvelope Form.result.itself) ∧
    Compatible (envelope? (command? model?)) (inEnvelope (inCommand Form.instruction.itself)) ∧
    Compatible coordinatorConfig? Form.coordinatorConfig.itself ∧
    Compatible storeConfig? Form.storeConfig.itself := by
  have hinstruction := (Form.readBy_instruction model?).faithful
  have hresult := (Form.readBy_result experiences?).faithful
  exact ⟨hinstruction.compatible, hresult.compatible, hresult.envelope.compatible,
    hinstruction.command.envelope.compatible, Form.readBy_coordinatorConfig.faithful.compatible,
    Form.readBy_storeConfig.faithful.compatible⟩

/-- What compatibility says of the texts that trees are printed as. -/
lemma Compatible.print {read : Reader α} (h : Compatible read sites) {t t' twice : Tree} {v : α}
    (ht : t.Legible) (hread : read depthLimit t = some v)
    (hrun : ReflTransGen (sites Form.Revises) t t') (hrepeats : sites Form.Repeats t twice) :
    decode? read t.print = some v ∧ decode? read t'.print = some v ∧
      decode? read twice.print = none := by
  have hparse {s : Tree} (hs : s.Written) : Tree.parse? s.print = some s :=
    Tree.parse?_print (Tree.legible_iff_written.mpr hs)
  have hwritten := Tree.legible_iff_written.mp ht
  have hrevised := hparse (h.written hwritten (.inl hrun))
  have hrepeated := hparse (h.written hwritten (.inr hrepeats))
  have hv : decode? read t.print = some v := (decode?_print ht).trans hread
  exact ⟨hv, h.revised ⟨t, t', hparse hwritten, hrevised, hrun⟩ hv,
    h.repeated ⟨t, twice, hparse hwritten, hrepeated, hrepeats⟩⟩

/-- A number that no double can hold, inside two containers. -/
def foreignValue : Tree :=
  .array [.ofMembers [("tag", .number ⟨false, ['9'], [], some (false, ['9', '9', '9'])⟩)]]

/-- The members of a record from its end, behind one that is not known here. -/
def turned (unknown : String) (members : List (String × Tree)) : Tree :=
  .ofMembers ((unknown, foreignValue) :: members.reverse)

/-- A record with one more member in front, under a name in any spelling. -/
def prefixed (label : Literal) (value : Tree) (members : List (String × Tree)) : Tree :=
  .object ((label, value) :: members.map fun m => (Literal.ofString m.1, m.2))

lemma revises_turned (form : Form) (before after : List (String × Tree)) (absent unknown : String)
    (habsent : absent ∈ form.optional) (hunknown : unknown ∉ form.names) :
    ReflTransGen form.Revises (.ofMembers (before ++ (absent, .null) :: after))
      (turned unknown (before ++ after)) := by
  have hwritten {t : Tree} (h : t.Legible) : t.Written := Tree.legible_iff_written.mp h
  let ofMember (m : String × Tree) : Literal × Tree := (Literal.ofString m.1, m.2)
  have hreduced : ((before ++ (absent, .null) :: after).map ofMember).Perm
      ((Literal.ofString absent, .null) :: (before ++ after).map ofMember) :=
    List.perm_middle.map ofMember
  apply ReflTransGen.tail (.tail (.single (.reduce (Literal.value?_ofString absent) habsent
    hreduced)) (.permute ((List.reverse_perm (before ++ after)).symm.map ofMember)))
  exact .extend (Literal.value?_ofString unknown) hunknown
    (hwritten (Tree.legible_ofString unknown)) (hwritten (t := foreignValue) (by decide)) (.refl _)

lemma repeats_prefixed {form : Form} {members : List (String × Tree)} {name : String}
    {value : Tree} {label : Literal} (hm : (name, value) ∈ members) (hname : name ∈ form.names)
    (hlabel : label.value? = some name) (hwritten : Tree.Legible (.text label))
    (hvalue : value.Legible) :
    form.Repeats (.ofMembers members) (prefixed label value members) :=
  .repeated (List.mem_map_of_mem hm) (Literal.value?_ofString name) hname hlabel
    (Tree.legible_iff_written.mp hwritten) (Tree.legible_iff_written.mp hvalue) (.refl _)

/-- The members of an envelope in the order in which they are written. -/
def envelopeMembers (source tag : String) (body : Tree) : List (String × Tree) :=
  [("source", .ofString source), ("tag", .ofString tag), ("session", .ofString "Task"),
    ("body", body)]

lemma within_body {source tag : String} {edit : Edit} {t t' : Tree} (h : edit t t') :
    Within "body" edit (.ofMembers (envelopeMembers source tag t))
      (.ofMembers (envelopeMembers source tag t')) :=
  @Within.member _ _ [_, _, _] [] _ _ _ (Literal.value?_ofString "body") h

/-- An order to run a segment without a model. -/
def plainOrder : Envelope (Command Datum) :=
  ⟨"c", .rollout, .task, .rollout { rolloutIndex := 1, segmentIndex := 0, numSteps := 3 }⟩

/-- A report on a segment without a reward. -/
def plainReport : Envelope (Result Datum) :=
  ⟨"a.0", .rolloutResult, .task,
    { rolloutIndex := 1, segmentIndex := 0, numExperiences := 2, numSteps := 3, envEnd := true,
      experiences := .text "e" }⟩

def plainConfig : StoreConfig := ⟨["s"], .bounded 3, none⟩

/-- The members of the instruction before and after its model. -/
def orderStart : List (String × Tree) :=
  [("rollout_index", .ofNat 1), ("segment_index", .ofNat 0), ("num_steps", .ofNat 3)]

def orderEnd : List (String × Tree) :=
  [("exploration_params", .null), ("return_env_metrics", .bool false)]

/-- The members of the result but for the metrics at its end. -/
def reportStart : List (String × Tree) :=
  [("rollout_index", .ofNat 1), ("segment_index", .ofNat 0), ("num_experiences", .ofNat 2),
    ("num_steps", .ofNat 3), ("env_end", .bool true), ("total_reward", .null),
    ("experiences", .ofString "e")]

/-- The members of the configuration but for the policy at its end. -/
def configStart : List (String × Tree) :=
  [("keys", .array [.ofString "s"]), ("capacity", .ofMembers [("Bounded", .ofNat 3)])]

/-- An order, a report and a configuration come with the members of a record turned round, one that
is `null` left out, and one that is not known here; and with a member twice. The tag of the order
is repeated in a spelling with a code. -/
theorem compatibility_of_foreignMessages :
    let order? := envelope? (command? Datum.read?)
    let report? := envelope? (result? Datum.read?)
    let order := ofEnvelope (ofCommand Datum.tree) plainOrder
    let report := ofEnvelope (ofResult Datum.tree) plainReport
    let foreignOrder := Tree.ofMembers (envelopeMembers "c" "Rollout"
      (.ofMembers [("Rollout", turned "tag" (orderStart ++ orderEnd))]))
    let foreignReport := Tree.ofMembers
      (envelopeMembers "a.0" "RolloutResult" (turned "tag" reportStart)).reverse
    (decode? order? order.print = some plainOrder ∧
      decode? order? foreignOrder.print = some plainOrder ∧
      decode? order? (prefixed [.char 't', .unit 0x61, .char 'g'] (.ofString "Rollout")
        (envelopeMembers "c" "Rollout" (ofCommand Datum.tree plainOrder.body))).print = none) ∧
    (decode? report? report.print = some plainReport ∧
      decode? report? foreignReport.print = some plainReport ∧
      decode? report? (Tree.ofMembers (envelopeMembers "a.0" "RolloutResult"
        (prefixed (Literal.ofString "num_steps") (.ofNat 3)
          (reportStart ++ [("env_metrics", .null)])))).print = none) ∧
    (decode? storeConfig? (ofStoreConfig plainConfig).print = some plainConfig ∧
      decode? storeConfig? (turned "version" configStart).print = some plainConfig ∧
      decode? storeConfig? (prefixed (Literal.ofString "keys") (.array [.ofString "s"])
        (configStart ++ [("overwrite_policy", .null)])).print = none) := by
  intro order? report? order report foreignOrder foreignReport
  obtain ⟨-, -, hreport, horder, -, hconfig⟩ := compatibility_of_messages Datum.read? Datum.read?
  have hname (name : String) : (Literal.ofString name).value? = some name :=
    Literal.value?_ofString name
  have hplain : plainOrder.body.Plain := ⟨by decide, by decide, by decide, nofun, nofun⟩
  have hreportPlain : plainReport.body.Plain :=
    ⟨by decide, by decide, by decide, by decide, rfl, trivial, nofun⟩
  refine ⟨horder.print (legible_ofEnvelope legible_ofCommand _) ?_ ?_ ?_,
    hreport.print (legible_ofEnvelope legible_ofResult _) ?_ ?_ ?_,
    hconfig.print (legible_ofStoreConfig _) ?_ ?_ ?_⟩
  · exact envelope?_ofEnvelope (by decide) fun _ => command?_ofCommand hplain
  · have hturned := revises_turned Form.instruction orderStart orderEnd "models" "tag" (by decide)
      (by decide)
    refine ReflTransGen.lift (fun x => Tree.ofMembers (envelopeMembers "c" "Rollout"
      (.ofMembers [("Rollout", x)]))) (fun x y hedit => .inr (within_body ?_)) _ _ hturned
    exact @Within.member _ _ [] [] _ _ _ (hname "Rollout") hedit
  · exact .inl (repeats_prefixed (List.mem_cons_of_mem _ List.mem_cons_self) (by decide) rfl
      (by decide) (by decide))
  · exact envelope?_ofEnvelope (by decide) fun _ => result?_ofResult hreportPlain
  · have hturned := revises_turned Form.result reportStart [] "env_metrics" "tag" (by decide)
      (by decide)
    exact ReflTransGen.tail (ReflTransGen.lift
      (fun x => Tree.ofMembers (envelopeMembers "a.0" "RolloutResult" x))
      (fun x y hedit => .inr (within_body hedit)) _ _ hturned)
      (.inl (.permute (List.reverse_perm _).symm))
  · have hsteps : ("num_steps", Tree.ofNat 3) ∈ reportStart ++ [("env_metrics", .null)] :=
      List.mem_of_getElem? (i := 3) rfl
    exact .inr (within_body (repeats_prefixed hsteps (by decide) (hname "num_steps") (by decide)
      (by decide)))
  · exact storeConfig?_ofStoreConfig (by decide)
  · exact revises_turned Form.storeConfig configStart [] _ _ (by decide) (by decide)
  · exact repeats_prefixed List.mem_cons_self (by decide) (hname "keys") (by decide) (by decide)

end ExperienceCollection.Wire
