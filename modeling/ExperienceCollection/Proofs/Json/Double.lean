import ExperienceCollection.Proofs.Json.Numeral

/-!
# Numerals of doubles

The shortest digits of a double begin with one that is not zero, so the numeral that is made of them
is regular and can be read again.
-/

namespace ExperienceCollection

namespace Decimal

/-- Digits of which the first is not zero. -/
structure Digits.Leading (d : Digits) : Prop where
  digits : ∀ c ∈ d.digits, c.isDigit = true
  leads : ∃ c cs, d.digits = c :: cs ∧ c ≠ '0'

/-- The zeros at the end go, but never the first digit. -/
lemma Digits.leading_ofScaled {c : Nat} (hc : 0 < c) (k : Int) : (Digits.ofScaled c k).Leading := by
  refine ⟨?_, ?_⟩
  · intro d hd
    have hall := (List.dropWhile_sublist _).subset (List.mem_reverse.mp hd)
    exact Nat.isDigit_of_mem_toDigits (by decide) (by decide) (List.mem_reverse.mp hall)
  · have hhead := Json.Numeral.head?_toDigits hc
    cases hdigits : Nat.toDigits 10 c with
    | nil => exact absurd hdigits Nat.toDigits_ne_nil
    | cons d ds =>
      have hd : d ≠ '0' := by
        rintro rfl
        rw [hdigits] at hhead
        exact hhead rfl
      rw [Digits.ofScaled, hdigits, List.reverse_cons, List.dropWhile_append]
      split
      · exact ⟨d, [], by simp [hd], hd⟩
      · exact ⟨d, _, List.reverse_concat, hd⟩

lemma Interval.nearest?_pos {tie : Nat → Nat} (htie : ∀ c, c ≤ tie c) {i : Interval} {k : Int}
    {c : Nat} (h : i.nearest? tie k = some c) : 0 < c := by
  unfold nearest? at h
  dsimp only at h
  split at h
  · rename_i hlow _
    obtain ⟨-, hlow⟩ := Bool.and_eq_true_iff.mp hlow
    have hpos := Nat.pos_of_ne_zero (bne_iff_ne.mp hlow)
    have htied := htie (i.value * tenTo (-k).toNat / (i.den * tenTo k.toNat))
    obtain rfl := Option.some.inj h
    split
    · exact hpos
    · split <;> omega
  · rename_i hlow _
    obtain ⟨-, hlow⟩ := Bool.and_eq_true_iff.mp hlow
    obtain rfl := Option.some.inj h
    exact Nat.pos_of_ne_zero (bne_iff_ne.mp hlow)
  · obtain rfl := Option.some.inj h
    exact Nat.succ_pos _
  · cases h

lemma leading_shortest {tie : Nat → Nat} (htie : ∀ c, c ≤ tie c) (m : Nat) (q : Int) :
    (shortest tie m q).Leading ∨ shortest tie m q = ⟨['0'], 1⟩ := by
  unfold shortest
  dsimp only
  cases hfound : List.findSome? _ _ with
  | none => exact .inr rfl
  | some d =>
    obtain ⟨k, -, hk⟩ := List.exists_of_findSome?_eq_some hfound
    obtain ⟨c, hc, rfl⟩ := Option.map_eq_some_iff.mp hk
    exact .inl (Digits.leading_ofScaled (Interval.nearest?_pos htie hc) k)

end Decimal

namespace Json.Numeral

open Decimal (Digits)

lemma isDigit_zero : ∀ c ∈ ['0'], c.isDigit = true := by
  intro c hc
  rw [List.mem_singleton.mp hc]
  decide

lemma isDigit_replicate {n : Nat} {c : Char} (h : c ∈ List.replicate n '0') : c.isDigit = true := by
  rw [List.eq_of_mem_replicate h]
  decide

/-- What is split in two at the point are digits, and no zero is put in front of them. -/
lemma split_of_leading {d : Digits} (hd : d.Leading) :
    (∀ c ∈ d.split.1, c.isDigit = true) ∧ isWhole d.split.1 = true ∧
      ∀ c ∈ d.split.2, c.isDigit = true := by
  obtain ⟨hdigits, c, cs, hcons, hc⟩ := hd
  unfold Digits.split
  dsimp only
  split
  · refine ⟨isDigit_zero, rfl, fun x hx => ?_⟩
    exact (List.mem_append.mp hx).elim isDigit_replicate (hdigits x)
  · rename_i hpoint
    split
    · refine ⟨fun x hx => ?_, ?_, isDigit_zero⟩
      · exact (List.mem_append.mp hx).elim (hdigits x) isDigit_replicate
      · rw [hcons, List.cons_append]
        exact isWhole_cons hc _
    · refine ⟨fun x hx => hdigits x (List.mem_of_mem_take hx), ?_,
        fun x hx => hdigits x (List.mem_of_mem_drop hx)⟩
      obtain ⟨n, hn⟩ := Nat.exists_eq_succ_of_ne_zero (n := d.point.toNat) (by omega)
      rw [hcons, hn, List.take_succ_cons]
      exact isWhole_cons hc _

lemma regular_zero (negative : Bool) : Regular ⟨negative, ['0'], ['0'], none⟩ :=
  ⟨isDigit_zero, rfl, isDigit_zero, nofun⟩

lemma regular_ofDigits {d : Digits} (hd : d.Leading) (negative : Bool) :
    (ofDigits negative d).Regular := by
  unfold ofDigits
  split
  · obtain ⟨hwhole, hfirst, hfraction⟩ := split_of_leading hd
    exact ⟨hwhole, hfirst, hfraction, nofun⟩
  · obtain ⟨hdigits, c, cs, hcons, hc⟩ := hd
    refine ⟨fun x hx => hdigits x (List.mem_of_mem_take hx), ?_,
      fun x hx => hdigits x (List.mem_of_mem_drop hx), ?_⟩
    · rw [hcons]
      exact isWhole_cons hc _
    · rintro e he
      obtain rfl := Option.some.inj he
      exact ⟨Nat.toDigits_ne_nil, fun x hx =>
        Nat.isDigit_of_mem_toDigits (by decide) (by decide) hx⟩

theorem regular_ofFloat {x : Float} {n : Numeral} (h : ofFloat? x = some n) : n.Regular := by
  unfold ofFloat? at h
  split at h
  · rename_i negative m q _
    split at h
    · obtain rfl := Option.some.inj h
      exact regular_zero negative
    · obtain rfl := Option.some.inj h
      rcases Decimal.leading_shortest (fun c => Nat.le_add_right c _) m q with hd | hd
      · exact regular_ofDigits hd negative
      · rw [hd]
        exact regular_zero negative
  · cases h

end Json.Numeral

end ExperienceCollection
