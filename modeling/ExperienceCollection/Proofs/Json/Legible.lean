import ExperienceCollection.Proofs.Json.Tree

/-!
# Writing what was read

Whatever is read from a text is legible. The reader of characters keeps the pieces and the tokens
that it has read legible, and the reader of tokens the values. The legible trees are therefore those
that some text holds, and each of them is read from its own compact text.
-/

namespace ExperienceCollection.Json

/-- What each step keeps holds at the end of a run if it held at its start. -/
lemma of_foldlM {σ α : Type} {step : σ → α → Option σ} {P : σ → Prop} {l : List α} {s s' : σ}
    (hrun : l.foldlM step s = some s') (hs : P s)
    (hstep : ∀ a ∈ l, ∀ s s', P s → step s a = some s' → P s') : P s' := by
  induction l generalizing s with
  | nil =>
    obtain rfl := Option.some.inj hrun
    exact hs
  | cons a l ih =>
    rw [List.foldlM_cons] at hrun
    obtain ⟨middle, hfirst, hrest⟩ := Option.bind_eq_some_iff.mp hrun
    obtain ⟨ha, hl⟩ := List.forall_mem_cons.mp hstep
    exact ih hrest (ha _ _ hs hfirst) hl

/-! ## Tokens -/

lemma hexValue?_lt {c : Char} {n : Nat} (h : hexValue? c = some n) : n < 16 := by
  unfold hexValue? at h
  split_ifs at h with hdigit hlower hupper
  · have hlast : c.toNat ≤ '9'.toNat := hdigit.2
    have hvalue := Option.some.inj h
    simp only [Char.reduceToNat] at hlast hvalue
    omega
  · have hlast : c.toNat ≤ 'f'.toNat := hlower.2
    have hvalue := Option.some.inj h
    simp only [Char.reduceToNat] at hlast hvalue
    omega
  · have hlast : c.toNat ≤ 'F'.toNat := hupper.2
    have hvalue := Option.some.inj h
    simp only [Char.reduceToNat] at hlast hvalue
    omega

lemma Token.legible_of_ofBare? {cs : List Char} {t : Token} (h : ofBare? cs = some t) :
    t.Legible := by
  unfold ofBare? at h
  split_ifs at h
  · obtain rfl := Option.some.inj h
    trivial
  · obtain rfl := Option.some.inj h
    trivial
  · obtain rfl := Option.some.inj h
    trivial
  · obtain ⟨n, hn, rfl⟩ := Option.map_eq_some_iff.mp h
    exact Numeral.ofChars?_chars (Numeral.regular_of_ofChars? hn)

/-- The pieces read so far are legible, and a code fits 16 bits whatever its missing digits are. -/
def Place.Legible : Place → Prop
  | between => True
  | bare _ => True
  | quoted read => ∀ p ∈ read, p.Legible
  | escaped read => ∀ p ∈ read, p.Legible
  | coded read value missing =>
    (∀ p ∈ read, p.Legible) ∧ (value + 1) * 16 ^ (missing + 1) ≤ 0x10000

namespace Scan

structure Legible (s : Scan) : Prop where
  place : s.place.Legible
  tokens : ∀ t ∈ s.tokens, t.Legible

lemma legible_enter {tokens : List Token} {c : Char} {s : Scan} (h : ∀ t ∈ tokens, t.Legible)
    (hs : enter tokens c = some s) : s.Legible := by
  have hput {t : Token} (ht : t.Legible) (hs : some ⟨.between, t :: tokens⟩ = some s) :
      s.Legible := by
    obtain rfl := Option.some.inj hs
    exact ⟨trivial, List.forall_mem_cons.mpr ⟨ht, h⟩⟩
  unfold enter at hs
  split_ifs at hs
  · obtain rfl := Option.some.inj hs
    exact ⟨trivial, h⟩
  · exact hput (t := .openArray) trivial hs
  · exact hput (t := .closeArray) trivial hs
  · exact hput (t := .openObject) trivial hs
  · exact hput (t := .closeObject) trivial hs
  · exact hput (t := .comma) trivial hs
  · exact hput (t := .colon) trivial hs
  · obtain rfl := Option.some.inj hs
    exact ⟨nofun, h⟩
  · obtain rfl := Option.some.inj hs
    exact ⟨trivial, h⟩

lemma legible_escapePlace {read : Literal} {c : Char} {place : Place}
    (h : ∀ p ∈ read, p.Legible) (hplace : escapePlace read c = some place) : place.Legible := by
  have hput {d : Char} (hd : ¬d < ' ' ∨ shortEscape? d ≠ none)
      (hplace : some (.quoted (.char d :: read)) = some place) : place.Legible := by
    obtain rfl := Option.some.inj hplace
    exact List.forall_mem_cons.mpr ⟨hd, h⟩
  unfold escapePlace at hplace
  split_ifs at hplace with hitself
  · rcases hitself with rfl | rfl | rfl
    · exact hput (.inl (by decide)) hplace
    · exact hput (.inl (by decide)) hplace
    · exact hput (.inl (by decide)) hplace
  · exact hput (.inr (by decide)) hplace
  · exact hput (.inr (by decide)) hplace
  · exact hput (.inr (by decide)) hplace
  · exact hput (.inr (by decide)) hplace
  · exact hput (.inr (by decide)) hplace
  · obtain rfl := Option.some.inj hplace
    exact ⟨h, by decide⟩

/-- One more digit of a code leaves sixteen times as few values open. -/
lemma coded_succ {value digit missing : Nat} (hdigit : digit < 16)
    (h : (value + 1) * 16 ^ (missing + 1 + 1) ≤ 0x10000) :
    (16 * value + digit + 1) * 16 ^ (missing + 1) ≤ 0x10000 := by
  calc (16 * value + digit + 1) * 16 ^ (missing + 1)
      ≤ (value + 1) * 16 * 16 ^ (missing + 1) := Nat.mul_le_mul_right _ (by omega)
    _ = (value + 1) * 16 ^ (missing + 1 + 1) := by rw [Nat.mul_assoc, ← Nat.pow_succ']
    _ ≤ 0x10000 := h

lemma Legible.step {s s' : Scan} {c : Char} (h : s.Legible) (hstep : s.step c = some s') :
    s'.Legible := by
  obtain ⟨place, tokens⟩ := s
  obtain ⟨hplace, htokens⟩ := h
  cases place with
  | between => exact legible_enter htokens hstep
  | bare read =>
    simp only [Scan.step] at hstep
    split at hstep
    · obtain rfl := Option.some.inj hstep
      exact ⟨trivial, htokens⟩
    · obtain ⟨t, ht, hstep⟩ := Option.bind_eq_some_iff.mp hstep
      have hall := List.forall_mem_cons.mpr ⟨Token.legible_of_ofBare? ht, htokens⟩
      exact legible_enter hall hstep
  | quoted read =>
    rw [step_quoted] at hstep
    split_ifs at hstep with hquote hescape hcontrol
    · obtain rfl := Option.some.inj hstep
      have htext : (Token.text read.reverse).Legible :=
        fun p hp => hplace p (List.mem_reverse.mp hp)
      exact ⟨trivial, List.forall_mem_cons.mpr ⟨htext, htokens⟩⟩
    · obtain rfl := Option.some.inj hstep
      exact ⟨hplace, htokens⟩
    · obtain rfl := Option.some.inj hstep
      exact ⟨List.forall_mem_cons.mpr ⟨.inl hcontrol, hplace⟩, htokens⟩
  | escaped read =>
    rw [step_escaped] at hstep
    obtain ⟨place, hread, rfl⟩ := Option.map_eq_some_iff.mp hstep
    exact ⟨legible_escapePlace hplace hread, htokens⟩
  | coded read value missing =>
    obtain ⟨hread, hfits⟩ := hplace
    obtain ⟨digit, hhex, hstep⟩ := Option.bind_eq_some_iff.mp hstep
    have hdigit := hexValue?_lt hhex
    cases missing with
    | zero =>
      obtain rfl := Option.some.inj hstep
      have hunit : (Piece.unit (16 * value + digit)).Legible := by
        change 16 * value + digit < 0x10000
        omega
      exact ⟨List.forall_mem_cons.mpr ⟨hunit, hread⟩, htokens⟩
    | succ missing =>
      obtain rfl := Option.some.inj hstep
      exact ⟨⟨hread, coded_succ hdigit hfits⟩, htokens⟩

lemma Legible.finish {s : Scan} {tokens : List Token} (h : s.Legible)
    (hfinish : s.finish = some tokens) : ∀ t ∈ tokens, t.Legible := by
  obtain ⟨place, read⟩ := s
  cases place with
  | between =>
    obtain rfl := Option.some.inj hfinish
    exact fun t ht => h.tokens t (List.mem_reverse.mp ht)
  | bare cs =>
    obtain ⟨word, hword, htokens⟩ := Option.bind_eq_some_iff.mp hfinish
    obtain rfl := Option.some.inj htokens
    have hall := List.forall_mem_cons.mpr ⟨Token.legible_of_ofBare? hword, h.tokens⟩
    exact fun t ht => hall t (List.mem_reverse.mp ht)
  | _ => cases hfinish

end Scan

/-- The tokens of any text are legible. -/
theorem Token.legible_of_scan? {cs : List Char} {tokens : List Token}
    (h : scan? cs = some tokens) : ∀ t ∈ tokens, t.Legible := by
  obtain ⟨s, hrun, hfinish⟩ := Option.bind_eq_some_iff.mp h
  have hstart : Scan.Legible ⟨.between, []⟩ := ⟨trivial, nofun⟩
  have hend : s.Legible := of_foldlM hrun hstart fun _ _ _ _ hs hstep => hs.step hstep
  exact hend.finish hfinish

/-! ## Trees -/

def Frame.Legible : Frame → Prop
  | array items => ∀ item ∈ items, item.Legible
  | object members name => Tree.Legible (.object members) ∧ (Token.text name).Legible

def Focus.Legible : Focus → Prop
  | name members => Tree.Legible (.object members)
  | colon members label => Tree.Legible (.object members) ∧ (Token.text label).Legible
  | after t => t.Legible
  | _ => True

namespace Tree

lemma legible_text_iff {l : Literal} : Legible (.text l) ↔ (Token.text l).Legible :=
  List.forall_mem_singleton

lemma legible_object_cons_iff {name : Literal} {value : Tree} {members : List (Literal × Tree)} :
    Legible (.object ((name, value) :: members)) ↔
      ((Token.text name).Legible ∧ value.Legible) ∧ Legible (.object members) := by
  rw [legible_object_iff, legible_object_iff, List.forall_mem_cons]

lemma Legible.perm {members members' : List (Literal × Tree)} (h : Legible (.object members))
    (hperm : members.Perm members') : Legible (.object members') :=
  legible_object_iff.mpr fun m hm => legible_object_iff.mp h m (hperm.mem_iff.mpr hm)

end Tree

namespace Reading

structure Legible (r : Reading) : Prop where
  frames : ∀ frame ∈ r.frames, frame.Legible
  focus : r.focus.Legible

lemma legible_enter {frames : List Frame} {token : Token} {r : Reading}
    (h : ∀ frame ∈ frames, frame.Legible) (htoken : token.Legible)
    (hr : enter frames token = some r) : r.Legible := by
  have hvalue {t : Tree} (ht : t.tokens = [token]) (hr : some ⟨frames, .after t⟩ = some r) :
      r.Legible := by
    obtain rfl := Option.some.inj hr
    exact ⟨h, Tree.legible_of_token ht htoken⟩
  cases token with
  | null => exact hvalue (t := .null) rfl hr
  | bool b => exact hvalue (t := .bool b) rfl hr
  | number n => exact hvalue (t := .number n) rfl hr
  | text l => exact hvalue (t := .text l) rfl hr
  | openArray =>
    obtain rfl := Option.some.inj hr
    exact ⟨h, trivial⟩
  | openObject =>
    obtain rfl := Option.some.inj hr
    exact ⟨h, trivial⟩
  | _ => cases hr

lemma legible_leave {frames : List Frame} {t : Tree} {token : Token} {r : Reading}
    (h : ∀ frame ∈ frames, frame.Legible) (ht : t.Legible)
    (hr : leave frames t token = some r) : r.Legible := by
  cases frames with
  | nil => cases hr
  | cons frame rest =>
    obtain ⟨hframe, hrest⟩ := List.forall_mem_cons.mp h
    cases frame with
    | array items =>
      have hitems : ∀ item ∈ t :: items, item.Legible := List.forall_mem_cons.mpr ⟨ht, hframe⟩
      cases token with
      | comma =>
        obtain rfl := Option.some.inj hr
        exact ⟨List.forall_mem_cons.mpr ⟨hitems, hrest⟩, trivial⟩
      | closeArray =>
        obtain rfl := Option.some.inj hr
        exact ⟨hrest, Tree.legible_array fun item hitem => hitems item (List.mem_reverse.mp hitem)⟩
      | _ => cases hr
    | object members name =>
      have hmembers := Tree.legible_object_cons_iff.mpr ⟨⟨hframe.2, ht⟩, hframe.1⟩
      cases token with
      | comma =>
        obtain rfl := Option.some.inj hr
        exact ⟨hrest, hmembers⟩
      | closeObject =>
        obtain rfl := Option.some.inj hr
        exact ⟨hrest, hmembers.perm (List.reverse_perm _).symm⟩
      | _ => cases hr

lemma Legible.step {r r' : Reading} {token : Token} (h : r.Legible) (htoken : token.Legible)
    (hstep : r.step token = some r') : r'.Legible := by
  obtain ⟨frames, focus⟩ := r
  obtain ⟨hframes, hfocus⟩ := h
  have hempty : Tree.Legible (.object []) := Tree.legible_object_iff.mpr nofun
  cases focus with
  | value => exact legible_enter hframes htoken hstep
  | firstItem =>
    have hframe : ∀ frame ∈ Frame.array [] :: frames, frame.Legible :=
      List.forall_mem_cons.mpr ⟨nofun, hframes⟩
    cases token with
    | closeArray =>
      obtain rfl := Option.some.inj hstep
      exact ⟨hframes, Tree.legible_array nofun⟩
    | _ => exact legible_enter hframe htoken hstep
  | firstName =>
    cases token with
    | closeObject =>
      obtain rfl := Option.some.inj hstep
      exact ⟨hframes, hempty⟩
    | text name =>
      obtain rfl := Option.some.inj hstep
      exact ⟨hframes, hempty, htoken⟩
    | _ => cases hstep
  | name members =>
    cases token with
    | text name =>
      obtain rfl := Option.some.inj hstep
      exact ⟨hframes, hfocus, htoken⟩
    | _ => cases hstep
  | colon members name =>
    cases token with
    | colon =>
      obtain rfl := Option.some.inj hstep
      exact ⟨List.forall_mem_cons.mpr ⟨hfocus, hframes⟩, trivial⟩
    | _ => cases hstep
  | after t => exact legible_leave hframes hfocus hstep

lemma Legible.finish {r : Reading} {t : Tree} (h : r.Legible) (hfinish : r.finish = some t) :
    t.Legible := by
  have hfocus := h.focus
  unfold Reading.finish at hfinish
  split at hfinish
  · rename_i hafter
    obtain rfl := Option.some.inj hfinish
    rw [hafter] at hfocus
    exact hfocus
  · cases hfinish

end Reading

namespace Tree

/-- The tree of any text is legible. -/
theorem legible_of_parse? {text : String} {t : Tree} (h : parse? text = some t) : t.Legible := by
  obtain ⟨tokens, hscan, hread⟩ := Option.bind_eq_some_iff.mp h
  obtain ⟨r, hrun, hfinish⟩ := Option.bind_eq_some_iff.mp hread
  have htokens := Token.legible_of_scan? hscan
  have hstart : Reading.Legible ⟨[], .value⟩ := ⟨nofun, trivial⟩
  have hend : r.Legible := of_foldlM hrun hstart fun token htoken _ _ hr hstep =>
    hr.step (htokens token htoken) hstep
  exact hend.finish hfinish

/-- A tree that stands in some text. -/
def Written (t : Tree) : Prop := ∃ text, parse? text = some t

theorem legible_iff_written {t : Tree} : t.Legible ↔ t.Written :=
  ⟨fun h => ⟨t.print, parse?_print h⟩, fun ⟨_, h⟩ => legible_of_parse? h⟩

end Tree

end ExperienceCollection.Json
