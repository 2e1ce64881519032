import ExperienceCollection.Json.Token
import ExperienceCollection.Proofs.Json.Numeral
import Mathlib.Data.List.Chain
import Mathlib.Tactic.IntervalCases
import Mathlib.Tactic.Lemma

/-!
# Reading tokens back

Tokens are read from their characters again, one after another, as long as no two words, which are
`null`, `true`, `false` and the numerals, stand next to each other. What is between two words ends
the first one; all other tokens end by themselves.
-/

namespace ExperienceCollection.Json

/-- A piece that stands for itself in a string literal. -/
def Piece.Legible : Piece → Prop
  | char c => ¬c < ' ' ∨ shortEscape? c ≠ none
  | unit u => u < 0x10000

def Token.Legible : Token → Prop
  | number n => Numeral.ofChars? n.chars = some n
  | text l => ∀ p ∈ l, p.Legible
  | _ => True

instance : DecidablePred Piece.Legible
  | .char c => inferInstanceAs (Decidable (¬c < ' ' ∨ shortEscape? c ≠ none))
  | .unit u => inferInstanceAs (Decidable (u < 0x10000))

instance : DecidablePred Token.Legible
  | .number n => inferInstanceAs (Decidable (Numeral.ofChars? n.chars = some n))
  | .text l => inferInstanceAs (Decidable (∀ p ∈ l, p.Legible))
  | .openArray | .closeArray | .openObject | .closeObject | .comma | .colon | .null | .bool _ =>
    .isTrue trivial

def Token.isWord : Token → Bool
  | null => true
  | bool _ => true
  | number _ => true
  | _ => false

/-- Of any two neighbours one is not a word. -/
def Apart (tokens : List Token) : Prop :=
  tokens.IsChain fun s t => s.isWord = false ∨ t.isWord = false

lemma Piece.legible_ofChar (c : Char) : (ofChar c).Legible := by
  unfold ofChar
  split
  · rename_i hcontrol
    have hlow : c.toNat < 0x20 := hcontrol.1
    exact Nat.lt_trans hlow (by decide)
  · rename_i hplain
    by_cases hlow : c < ' '
    · exact .inr fun hnone => hplain ⟨hlow, hnone⟩
    · exact .inl hlow

lemma legible_ofString (s : String) : (Token.text (Literal.ofString s)).Legible := by
  intro p hp
  obtain ⟨c, -, rfl⟩ := List.mem_map.mp hp
  exact Piece.legible_ofChar c

/-! ## Words -/

lemma isBare_of_isDigit {c : Char} (h : c.isDigit = true) : isBare c = true := by
  simp [isBare, Char.isAlphanum, h]

/-- A numeral is written with digits, signs, a point and the letter of its exponent. -/
lemma isBare_of_mem_chars {n : Numeral} (h : n.Regular) : ∀ c ∈ n.chars, isBare c = true := by
  have hdigits {cs : List Char} (hcs : ∀ c ∈ cs, c.isDigit = true) : ∀ c ∈ cs, isBare c = true :=
    fun c hc => isBare_of_isDigit (hcs c hc)
  rw [Numeral.chars_eq, Numeral.tailChars]
  simp only [List.forall_mem_append]
  refine ⟨?_, hdigits h.digits, ?_, ?_⟩
  · cases n.negative with
    | true => exact List.all_eq_true.mp rfl
    | false => exact List.forall_mem_nil _
  · split
    · exact List.forall_mem_nil _
    · exact List.forall_mem_cons.mpr ⟨rfl, hdigits h.fraction⟩
  · cases hexponent : n.exponent with
    | none => exact List.forall_mem_nil _
    | some e =>
      obtain ⟨negative, digits⟩ := e
      have hdigits := hdigits (h.exponent _ hexponent).2
      cases negative with
      | true =>
        exact List.forall_mem_cons.mpr ⟨rfl, List.forall_mem_cons.mpr ⟨rfl, hdigits⟩⟩
      | false => exact List.forall_mem_cons.mpr ⟨rfl, hdigits⟩

/-- A word consists of bare characters and is read from them. -/
lemma Token.Legible.word {t : Token} (h : t.Legible) (hword : t.isWord = true) :
    t.chars ≠ [] ∧ (∀ c ∈ t.chars, isBare c = true) ∧ Token.ofBare? t.chars = some t := by
  cases t with
  | null => exact ⟨List.cons_ne_nil _ _, List.all_eq_true.mp rfl, rfl⟩
  | bool b =>
    cases b with
    | _ => exact ⟨List.cons_ne_nil _ _, List.all_eq_true.mp rfl, rfl⟩
  | number n =>
    have hread : Numeral.ofChars? n.chars = some n := h
    have hne {cs : List Char} (hcs : Numeral.ofChars? cs = none) : n.chars ≠ cs := by
      rintro rfl
      rw [hcs] at hread
      cases hread
    refine ⟨hne (by decide), isBare_of_mem_chars (Numeral.regular_of_ofChars? hread), ?_⟩
    rw [chars, ofBare?, if_neg (hne (by decide)), if_neg (hne (by decide)),
      if_neg (hne (by decide)), hread, Option.map_some]
  | _ => cases hword

namespace Scan

lemma step_quoted (read : Literal) (tokens : List Token) (c : Char) :
    step ⟨.quoted read, tokens⟩ c =
      if c = '"' then some ⟨.between, .text read.reverse :: tokens⟩
      else if c = '\\' then some ⟨.escaped read, tokens⟩
      else if c < ' ' then none
      else some ⟨.quoted (.char c :: read), tokens⟩ := rfl

lemma step_escaped (read : Literal) (tokens : List Token) (c : Char) :
    step ⟨.escaped read, tokens⟩ c = (escapePlace read c).map fun place => ⟨place, tokens⟩ := rfl

lemma read_char (s : Scan) (c : Char) : [c].foldlM step s = step s c := bind_pure _

lemma enter_of_isBare {c : Char} (h : isBare c = true) (tokens : List Token) :
    enter tokens c = some ⟨.bare [c], tokens⟩ := by
  have hne {d : Char} (hd : isBare d = false) : c ≠ d := by
    rintro rfl
    rw [h] at hd
    cases hd
  have hblank : isBlank c = false := by
    simp [isBlank, hne (d := ' ') rfl, hne (d := '\n') rfl, hne (d := '\t') rfl,
      hne (d := '\r') rfl]
  rw [enter, hblank, if_neg Bool.false_ne_true, if_neg (hne rfl), if_neg (hne rfl),
    if_neg (hne rfl), if_neg (hne rfl), if_neg (hne rfl), if_neg (hne rfl), if_neg (hne rfl),
    if_pos h]

lemma read_bare {cs : List Char} (h : ∀ c ∈ cs, isBare c = true) (read : List Char)
    (tokens : List Token) :
    cs.foldlM step ⟨.bare read, tokens⟩ = some ⟨.bare (cs.reverse ++ read), tokens⟩ := by
  induction cs generalizing read with
  | nil => rfl
  | cons c cs ih =>
    obtain ⟨hc, hcs⟩ := List.forall_mem_cons.mp h
    have hstep : step ⟨.bare read, tokens⟩ c = some ⟨.bare (c :: read), tokens⟩ := if_pos hc
    rw [List.foldlM_cons, hstep, Option.bind_eq_bind, Option.bind_some, ih hcs, List.reverse_cons,
      List.append_assoc]
    rfl

/-! ## Strings -/

lemma hexValue?_hexDigit {n : Nat} (h : n < 16) : hexValue? (hexDigit n) = some n := by
  interval_cases n <;> rfl

lemma escapePlace_of_shortEscape? {c letter : Char} (h : shortEscape? c = some letter)
    (read : Literal) : escapePlace read letter = some (.quoted (.char c :: read)) := by
  unfold shortEscape? at h
  repeat
    split at h
    · subst c
      obtain rfl := Option.some.inj h
      rfl
  cases h

lemma read_unitCode {u : Nat} (h : u < 0x10000) (read : Literal) (tokens : List Token) :
    (unitCode u).foldlM step ⟨.quoted read, tokens⟩ = some ⟨.quoted (.unit u :: read), tokens⟩ := by
  have hdigit (n : Nat) := hexValue?_hexDigit (Nat.mod_lt n (y := 16) (by decide))
  have hmore (value missing n : Nat) :
      step ⟨.coded read value (missing + 1), tokens⟩ (hexDigit (n % 16)) =
        some ⟨.coded read (16 * value + n % 16) missing, tokens⟩ := by
    simp [step, hdigit]
  have hlast (value n : Nat) :
      step ⟨.coded read value 0, tokens⟩ (hexDigit (n % 16)) =
        some ⟨.quoted (.unit (16 * value + n % 16) :: read), tokens⟩ := by
    simp [step, hdigit]
  have hvalue : 16 * (16 * (16 * (16 * 0 + u / 4096 % 16) + u / 256 % 16) + u / 16 % 16) + u % 16 =
      u := by
    omega
  have hslash : step ⟨.quoted read, tokens⟩ '\\' = some ⟨.escaped read, tokens⟩ := by rfl
  have hletter : step ⟨.escaped read, tokens⟩ 'u' = some ⟨.coded read 0 3, tokens⟩ := by rfl
  simp only [unitCode, List.foldlM_cons, List.foldlM_nil, Option.bind_eq_bind, Option.bind_some,
    hslash, hletter, hmore, hlast, hvalue]
  rfl

lemma read_piece {p : Piece} (h : p.Legible) (read : Literal) (tokens : List Token) :
    p.form.foldlM step ⟨.quoted read, tokens⟩ = some ⟨.quoted (p :: read), tokens⟩ := by
  cases p with
  | unit u => exact read_unitCode h read tokens
  | char c =>
    rw [Piece.form]
    cases hescape : shortEscape? c with
    | some letter =>
      have hslash : step ⟨.quoted read, tokens⟩ '\\' = some ⟨.escaped read, tokens⟩ := by rfl
      rw [List.foldlM_cons, hslash, Option.bind_eq_bind, Option.bind_some, read_char,
        step_escaped, escapePlace_of_shortEscape? hescape, Option.map_some]
    | none =>
      have hplain : ¬c < ' ' := h.resolve_right fun hne => hne hescape
      have hquote : c ≠ '"' := by
        rintro rfl
        cases hescape
      have hslash : c ≠ '\\' := by
        rintro rfl
        cases hescape
      rw [read_char, step_quoted, if_neg hquote, if_neg hslash, if_neg hplain]

lemma read_literal {l : Literal} (h : ∀ p ∈ l, p.Legible) (read : Literal) (tokens : List Token) :
    (l.flatMap Piece.form).foldlM step ⟨.quoted read, tokens⟩ =
      some ⟨.quoted (l.reverse ++ read), tokens⟩ := by
  induction l generalizing read with
  | nil => rfl
  | cons p l ih =>
    obtain ⟨hp, hl⟩ := List.forall_mem_cons.mp h
    rw [List.flatMap_cons, List.foldlM_append, read_piece hp, Option.bind_eq_bind, Option.bind_some,
      ih hl, List.reverse_cons, List.append_assoc]
    rfl

/-! ## Sequences of tokens -/

/-- Where the reader stands behind some tokens, last first: it is done with all of them but a word,
which might go on. -/
def behind : List Token → Scan
  | [] => ⟨.between, []⟩
  | t :: tokens => if t.isWord then ⟨.bare t.chars.reverse, tokens⟩ else ⟨.between, t :: tokens⟩

lemma behind_of_not_isWord {t : Token} (h : t.isWord = false) (tokens : List Token) :
    behind (t :: tokens) = ⟨.between, t :: tokens⟩ := by
  rw [behind, if_neg (by simp [h])]

lemma finish_behind {tokens : List Token} (h : ∀ t ∈ tokens, t.Legible) :
    (behind tokens).finish = some tokens.reverse := by
  cases tokens with
  | nil => rfl
  | cons t tokens =>
    by_cases hword : t.isWord = true
    · obtain ⟨-, -, hread⟩ := (h t List.mem_cons_self).word hword
      rw [behind, if_pos hword, finish]
      simp [hread]
    · rw [behind, if_neg hword]
      rfl

/-- The first character of a token ends the word in front of it, if it is not part of a word. -/
lemma step_behind {tokens : List Token} (h : ∀ t ∈ tokens, t.Legible) {c : Char}
    (hc : (∀ t ∈ tokens.head?, t.isWord = false) ∨ isBare c = false) :
    step (behind tokens) c = enter tokens c := by
  cases tokens with
  | nil => rfl
  | cons t tokens =>
    by_cases hword : t.isWord = true
    · obtain ⟨-, -, hread⟩ := (h t List.mem_cons_self).word hword
      have hc : isBare c = false := by
        apply hc.resolve_left
        intro hhead
        rw [hhead t rfl] at hword
        cases hword
      rw [behind, if_pos hword, step]
      simp [hc, hread]
    · rw [behind, if_neg hword]
      rfl

lemma read_token {t : Token} {tokens : List Token} (ht : t.Legible)
    (h : ∀ t ∈ tokens, t.Legible)
    (hapart : ∀ s ∈ tokens.head?, s.isWord = false ∨ t.isWord = false) :
    t.chars.foldlM step (behind tokens) = some (behind (t :: tokens)) := by
  -- A word stays open at its end; any other token is complete with its last character.
  by_cases hword : t.isWord = true
  · obtain ⟨hne, hbare, -⟩ := ht.word hword
    rw [behind, if_pos hword]
    cases hchars : t.chars with
    | nil => exact absurd hchars hne
    | cons c cs =>
      rw [hchars] at hbare
      obtain ⟨hc, hcs⟩ := List.forall_mem_cons.mp hbare
      have hfree : ∀ s ∈ tokens.head?, s.isWord = false := by
        intro s hs
        exact (hapart s hs).resolve_right (by simp [hword])
      rw [List.foldlM_cons, step_behind h (.inl hfree), enter_of_isBare hc, Option.bind_eq_bind,
        Option.bind_some, read_bare hcs, List.reverse_cons]
  · rw [Bool.not_eq_true] at hword
    rw [behind_of_not_isWord hword]
    have hsign {c : Char} (hc : isBare c = false) : step (behind tokens) c = enter tokens c :=
      step_behind h (.inr hc)
    cases t with
    | text l =>
      have hquote : enter tokens '"' = some ⟨.quoted [], tokens⟩ := by rfl
      have hclose : step ⟨.quoted l.reverse, tokens⟩ '"' = some ⟨.between, .text l :: tokens⟩ := by
        rw [step_quoted, if_pos rfl, List.reverse_reverse]
      rw [Token.chars, List.foldlM_cons, hsign rfl, hquote, Option.bind_eq_bind, Option.bind_some,
        List.foldlM_append, read_literal ht, List.append_nil, Option.bind_eq_bind, Option.bind_some,
        read_char, hclose]
    | null => cases hword
    | bool b => cases hword
    | number n => cases hword
    | _ =>
      rw [Token.chars, read_char, hsign rfl]
      rfl

lemma read_tokens {tokens : List Token} (h : ∀ t ∈ tokens, t.Legible) (hapart : Apart tokens)
    {read : List Token} (hread : ∀ t ∈ read, t.Legible)
    (hnext : ∀ s ∈ read.head?, ∀ t ∈ tokens.head?, s.isWord = false ∨ t.isWord = false) :
    (tokens.flatMap Token.chars).foldlM step (behind read) =
      some (behind (tokens.reverse ++ read)) := by
  induction tokens generalizing read with
  | nil => rfl
  | cons t tokens ih =>
    obtain ⟨ht, htokens⟩ := List.forall_mem_cons.mp h
    obtain ⟨hhead, htail⟩ := List.isChain_cons.mp hapart
    have hstep := read_token ht hread fun s hs => hnext s hs t rfl
    have hrest := ih htokens htail (List.forall_mem_cons.mpr ⟨ht, hread⟩) (by
      intro s hs
      obtain rfl := Option.some.inj hs
      exact hhead)
    rw [List.flatMap_cons, List.foldlM_append, hstep, Option.bind_eq_bind, Option.bind_some, hrest,
      List.reverse_cons, List.append_assoc]
    rfl

end Scan

/-- Legible tokens are read from their characters again. -/
theorem Token.scan?_chars {tokens : List Token} (h : ∀ t ∈ tokens, t.Legible)
    (hapart : Apart tokens) : scan? (tokens.flatMap Token.chars) = some tokens := by
  have hread : (tokens.flatMap Token.chars).foldlM Scan.step (Scan.behind []) =
      some (Scan.behind (tokens.reverse ++ [])) := Scan.read_tokens h hapart nofun nofun
  have hlegible : ∀ t ∈ tokens.reverse, t.Legible := by
    intro t ht
    exact h t (List.mem_reverse.mp ht)
  have hfinish := Scan.finish_behind hlegible
  rw [List.append_nil] at hread
  rw [List.reverse_reverse] at hfinish
  have hstart : Scan.behind [] = ⟨.between, []⟩ := by rfl
  rw [scan?, ← hstart, hread, Option.bind_eq_bind, Option.bind_some, hfinish]

end ExperienceCollection.Json
