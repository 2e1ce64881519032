import ExperienceCollection.Counter
import Mathlib.Algebra.GroupWithZero.Nat
import Mathlib.Tactic.Lemma

/-!
# Counters over lists

A total that every entry of a list adds to is a sum that stops at `top`. A count that some of the
entries move on is their number, as long as it does not turn.
-/

namespace ExperienceCollection.Counter

variable {σ α : Type} {f : σ → α → σ}

/-- A total that every entry of a list adds to holds the sum of what they add, or `top` when the sum
is larger. -/
lemma foldl_total {total : σ → Nat} {amount : α → Nat}
    (h : ∀ s x, total (f s x) = add (total s) (amount x)) {s : σ} (hs : total s = 0)
    (xs : List α) : total (xs.foldl f s) = min top (xs.map amount).sum := by
  have hfold (s : σ) : total (xs.foldl f s) = (xs.map amount).foldl add (total s) := by
    induction xs generalizing s with
    | nil => rfl
    | cons x xs ih => rw [List.foldl_cons, ih, h, List.map_cons, List.foldl_cons]
  rw [hfold, hs, ← Nat.min_zero top, foldl_add, ← List.sum_eq_foldl]

/-- A count that goes up by one for some entries of a list is not turned by few enough of them. -/
lemma foldl_count {count : σ → Nat} {p : α → Bool}
    (h : ∀ s x, count (f s x) = if p x then next (count s) else count s) {s : σ} {xs : List α}
    (hs : count s + xs.length ≤ top) : count (xs.foldl f s) = count s + xs.countP p := by
  induction xs generalizing s with
  | nil => rfl
  | cons x xs ih =>
    rw [List.length_cons] at hs
    have hnext : next (count s) = count s + 1 := next_of_lt (by omega)
    have hx := h s x
    rw [List.foldl_cons, List.countP_cons]
    cases hp : p x with
    | false =>
      rw [hp, if_neg (by simp)] at hx
      rw [ih (by omega), hx]
      rfl
    | true =>
      rw [hp, if_pos rfl, hnext] at hx
      rw [ih (by omega), hx, if_pos rfl]
      omega

/-- Counts may as well stop at `top` before they are summed up to `top`. -/
lemma min_sum_min (counts : List Nat) :
    min top (counts.map (min top)).sum = min top counts.sum := by
  induction counts with
  | nil => rfl
  | cons count counts ih =>
    rw [List.map_cons, List.sum_cons, List.sum_cons]
    omega

end ExperienceCollection.Counter
