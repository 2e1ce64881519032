import ExperienceCollection.Json.Numeral
import Mathlib.Data.List.TakeWhile
import Mathlib.Data.Option.Basic
import Mathlib.Tactic.Lemma

/-!
# Reading numerals back

The numerals that are read are the regular ones, and each of them is read from its characters again.
A numeral that was made from an integer is regular, and denotes that integer when it is in range.
-/

namespace ExperienceCollection.Json.Numeral

lemma head?_toDigits {n : Nat} (h : 0 < n) : (Nat.toDigits 10 n).head? ≠ some '0' := by
  induction n using Nat.strongRecOn with
  | ind n ih =>
    by_cases hn : n < 10
    · rw [Nat.toDigits_of_lt_base hn]
      intro hzero
      have hdigit := Option.some.inj hzero
      rw [Nat.digitChar_eq_zero] at hdigit
      omega
    · have hfront := ih (n / 10) (by omega) (by omega)
      rw [Nat.toDigits_of_base_le (by decide) (by omega)]
      cases hdigits : Nat.toDigits 10 (n / 10) with
      | nil => exact absurd hdigits Nat.toDigits_ne_nil
      | cons c cs =>
        rw [hdigits] at hfront
        exact hfront

lemma isWhole_cons {c : Char} (h : c ≠ '0') (cs : List Char) : isWhole (c :: cs) = true := by
  unfold isWhole
  split
  · contradiction
  · rfl
  · rename_i hcons
    obtain ⟨rfl, -⟩ := List.cons.inj hcons
    simpa using h

lemma isWhole_toDigits (n : Nat) : isWhole (Nat.toDigits 10 n) = true := by
  rcases Nat.eq_zero_or_pos n with rfl | hn
  · rfl
  · have hhead := head?_toDigits hn
    cases hdigits : Nat.toDigits 10 n with
    | nil => exact absurd hdigits Nat.toDigits_ne_nil
    | cons c cs =>
      apply isWhole_cons
      rintro rfl
      rw [hdigits] at hhead
      exact hhead rfl

/-- The parts of a numeral consist of digits, as many as there have to be. -/
structure Regular (n : Numeral) : Prop where
  digits : ∀ c ∈ n.whole, c.isDigit = true
  whole : isWhole n.whole = true
  fraction : ∀ c ∈ n.fraction, c.isDigit = true
  exponent : ∀ e ∈ n.exponent, e.2 ≠ [] ∧ ∀ c ∈ e.2, c.isDigit = true

/-- An exponent as it is written. -/
def exponentChars : Option (Bool × List Char) → List Char
  | none => []
  | some (negative, digits) => 'e' :: (if negative then '-' :: digits else digits)

lemma exponentOf?_exponentChars {exponent : Option (Bool × List Char)}
    (h : ∀ e ∈ exponent, e.2 ≠ [] ∧ ∀ c ∈ e.2, c.isDigit = true) :
    exponentOf? (exponentChars exponent) = some exponent := by
  cases exponent with
  | none => rfl
  | some e =>
    obtain ⟨negative, digits⟩ := e
    obtain ⟨hne, hdigits⟩ := h _ rfl
    have hall : digits.all Char.isDigit = true := List.all_eq_true.mpr hdigits
    cases negative with
    | true =>
      simp [exponentChars, exponentOf?, hne, hall]
    | false =>
      cases digits with
      | nil => exact absurd rfl hne
      | cons c cs =>
        have hminus : c ≠ '-' := by
          rintro rfl
          exact absurd (hdigits '-' List.mem_cons_self) (by decide)
        have hplus : c ≠ '+' := by
          rintro rfl
          exact absurd (hdigits '+' List.mem_cons_self) (by decide)
        simp [exponentChars, exponentOf?, hminus, hplus, hall]

/-- Digits end where something else begins. -/
lemma span_digits {digits rest : List Char} (h : ∀ c ∈ digits, c.isDigit = true)
    (hrest : ∀ c ∈ rest.head?, c.isDigit = false) :
    (digits ++ rest).takeWhile Char.isDigit = digits ∧
      (digits ++ rest).dropWhile Char.isDigit = rest := by
  rw [List.takeWhile_append_of_pos h, List.dropWhile_append_of_pos h]
  cases rest with
  | nil => exact ⟨List.append_nil digits, rfl⟩
  | cons c rest =>
    have hc : c.isDigit = false := hrest c rfl
    simp [hc]

lemma head?_exponentChars (exponent : Option (Bool × List Char)) :
    ∀ c ∈ (exponentChars exponent).head?, c.isDigit = false := by
  intro c hc
  cases exponent with
  | none => cases hc
  | some e =>
    obtain rfl := Option.some.inj hc
    rfl

/-- The characters of a numeral behind its sign and its whole part. -/
def tailChars (n : Numeral) : List Char :=
  (if n.fraction.isEmpty then [] else '.' :: n.fraction) ++ exponentChars n.exponent

lemma chars_eq (n : Numeral) :
    n.chars = (if n.negative then ['-'] else []) ++ (n.whole ++ n.tailChars) := by
  rw [chars, tailChars, List.append_assoc, List.append_assoc]
  rfl

lemma head?_tailChars (n : Numeral) : ∀ c ∈ n.tailChars.head?, c.isDigit = false := by
  intro c hc
  unfold tailChars at hc
  split at hc
  · exact head?_exponentChars n.exponent c hc
  · obtain rfl := Option.some.inj hc
    rfl

lemma head?_whole_append {n : Numeral} (h : n.Regular) (rest : List Char) :
    ∀ c ∈ (n.whole ++ rest).head?, c ≠ '-' := by
  intro c hc
  cases hwhole : n.whole with
  | nil =>
    have hfull := h.whole
    rw [hwhole] at hfull
    cases hfull
  | cons d digits =>
    rw [hwhole] at hc
    obtain rfl := Option.some.inj hc
    rintro rfl
    exact absurd (h.digits '-' (hwhole ▸ List.mem_cons_self)) (by decide)

/-- A sign is told from what does not begin with one. -/
lemma split_sign (negative : Bool) {unsigned : List Char} (h : ∀ c ∈ unsigned.head?, c ≠ '-') :
    (match (if negative then ['-'] else []) ++ unsigned with
      | '-' :: rest => (true, rest)
      | rest => (false, rest)) = (negative, unsigned) := by
  cases negative with
  | true => rfl
  | false =>
    rw [if_neg Bool.false_ne_true, List.nil_append]
    split
    · exact absurd rfl (h '-' rfl)
    · rfl

/-- A regular numeral is read from its characters. -/
lemma ofChars?_chars {n : Numeral} (h : n.Regular) : ofChars? n.chars = some n := by
  have hexponent := exponentOf?_exponentChars h.exponent
  have hguard := (Option.guard_eq_some' ()).mpr h.whole
  obtain ⟨htake, hdrop⟩ := span_digits h.digits n.head?_tailChars
  rw [chars_eq]
  unfold ofChars?
  split
  rename_i sign unsigned hsplit
  have hsign := (split_sign n.negative (head?_whole_append h n.tailChars)).symm.trans hsplit
  obtain ⟨rfl, rfl⟩ := Prod.mk.inj hsign
  simp only [htake, hdrop, hguard, Option.bind_eq_bind, Option.bind_some]
  obtain ⟨negative, whole, fraction, exponent⟩ := n
  cases fraction with
  | nil =>
    have htail : tailChars ⟨negative, whole, [], exponent⟩ = exponentChars exponent := rfl
    rw [htail]
    split
    · rename_i rest hrest
      cases exponent with
      | none => cases hrest
      | some e => cases (List.cons.inj hrest).1
    · rw [hexponent, Option.bind_some]
  | cons c fraction =>
    have htail : tailChars ⟨negative, whole, c :: fraction, exponent⟩ =
        '.' :: (c :: fraction ++ exponentChars exponent) := rfl
    obtain ⟨htake, hdrop⟩ := span_digits h.fraction (head?_exponentChars exponent)
    dsimp only at htake hdrop hexponent
    simp only [htail, htake, hdrop, hexponent, Option.bind_some]
    rfl

lemma regular_of_exponentOf? {cs : List Char} {exponent : Option (Bool × List Char)}
    (h : exponentOf? cs = some exponent) :
    ∀ e ∈ exponent, e.2 ≠ [] ∧ ∀ c ∈ e.2, c.isDigit = true := by
  cases cs with
  | nil =>
    obtain rfl := Option.some.inj h
    exact nofun
  | cons letter rest =>
    have hread {negative : Bool} {digits : List Char}
        (h : (if (letter = 'e' ∨ letter = 'E') ∧ digits ≠ [] ∧ digits.all Char.isDigit then
          some (some (negative, digits)) else none) = some exponent) :
        ∀ e ∈ exponent, e.2 ≠ [] ∧ ∀ c ∈ e.2, c.isDigit = true := by
      split at h
      · rename_i hparts
        obtain rfl := Option.some.inj h
        intro e he
        obtain rfl := Option.some.inj he
        exact ⟨hparts.2.1, List.all_eq_true.mp hparts.2.2⟩
      · cases h
    unfold exponentOf? at h
    dsimp only at h
    split at h
    · exact hread h
    · exact hread h
    · exact hread h

/-- Whatever numeral is read is regular. -/
lemma regular_of_ofChars? {cs : List Char} {n : Numeral} (h : ofChars? cs = some n) :
    n.Regular := by
  unfold ofChars? at h
  split at h
  simp only [Option.bind_eq_bind, Option.bind_eq_some_iff] at h
  obtain ⟨_, hwhole, h⟩ := h
  split at h
  · simp only [Option.bind_eq_some_iff] at h
    obtain ⟨-, -, exponent, hexponent, hn⟩ := h
    obtain rfl := Option.some.inj hn
    exact ⟨fun c hc => List.mem_takeWhile_imp hc, (Option.guard_eq_some' _).mp hwhole,
      fun c hc => List.mem_takeWhile_imp hc, regular_of_exponentOf? hexponent⟩
  · obtain ⟨exponent, hexponent, hn⟩ := Option.bind_eq_some_iff.mp h
    obtain rfl := Option.some.inj hn
    exact ⟨fun c hc => List.mem_takeWhile_imp hc, (Option.guard_eq_some' _).mp hwhole,
      List.forall_mem_nil _, regular_of_exponentOf? hexponent⟩

lemma regular_ofNat (n : Nat) : (ofNat n).Regular where
  digits := fun _ hc => Nat.isDigit_of_mem_toDigits (by decide) (by decide) hc
  whole := isWhole_toDigits n
  fraction := nofun
  exponent := nofun

lemma regular_ofInt (i : Int) : (ofInt i).Regular := by
  cases i with
  | ofNat n => exact regular_ofNat n
  | negSucc n =>
    refine ⟨fun _ hc => ?_, isWhole_toDigits (n + 1), nofun, nofun⟩
    exact Nat.isDigit_of_mem_toDigits (by decide) (by decide) hc

lemma ofChars?_ofNat (n : Nat) : ofChars? (ofNat n).chars = some (ofNat n) :=
  ofChars?_chars (regular_ofNat n)

lemma ofChars?_ofInt (i : Int) : ofChars? (ofInt i).chars = some (ofInt i) :=
  ofChars?_chars (regular_ofInt i)

lemma le_ofDigitChars (n : Nat) (cs : List Char) : n ≤ Nat.ofDigitChars 10 cs n := by
  rw [Nat.ofDigitChars_eq_ofDigitChars_zero]
  exact Nat.le_add_right_of_le (Nat.le_mul_of_pos_left n (Nat.pow_pos (by decide)))

lemma absorb_eq {n : Nat} {cs : List Char} (h : Nat.ofDigitChars 10 cs n ≤ Counter.top) :
    absorb n cs = (Nat.ofDigitChars 10 cs n, []) := by
  induction cs generalizing n with
  | nil => rw [absorb, Nat.ofDigitChars_nil]
  | cons c cs ih =>
    rw [Nat.ofDigitChars_cons] at h ⊢
    have hfits : 10 * n + digitValue c ≤ Counter.top := Nat.le_trans (le_ofDigitChars _ cs) h
    rw [absorb, if_pos hfits]
    exact ih h

lemma absorb_toDigits {n : Nat} (h : n ≤ Counter.top) : absorb 0 (Nat.toDigits 10 n) = (n, []) := by
  have hvalue : Nat.ofDigitChars 10 (Nat.toDigits 10 n) 0 = n :=
    Nat.ofDigitChars_toDigits (by decide) (by decide)
  rw [absorb_eq (hvalue.symm ▸ h), hvalue]

lemma integer?_ofNat {n : Nat} (h : n ≤ Counter.top) : (ofNat n).integer? = some (n : Int) := by
  simp [integer?, ofNat, absorb_toDigits h]

lemma integer?_ofInt {i : Int} (hlow : -0x8000000000000000 ≤ i) (hhigh : i ≤ Counter.top) :
    (ofInt i).integer? = some i := by
  cases i with
  | ofNat n => exact integer?_ofNat (Int.ofNat_le.mp hhigh)
  | negSucc n =>
    have hn : n + 1 ≤ 0x8000000000000000 := by omega
    have htop : n + 1 ≤ Counter.top := by
      unfold Counter.top
      omega
    have habsorb := absorb_toDigits htop
    simp only [integer?, ofInt, habsorb, if_true]
    rw [if_pos ⟨Nat.succ_pos n, hn⟩]
    rfl

end ExperienceCollection.Json.Numeral
