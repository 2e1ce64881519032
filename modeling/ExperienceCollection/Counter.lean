/-!
# Counters

Counters are natural numbers up to the largest 64-bit value. A sum of counts stops there instead of
passing it, or goes on from zero.
-/

namespace ExperienceCollection.Counter

def top : Nat := 0xffffffffffffffff

/-- The sum of two counts, or `top` when the sum is larger. -/
def add (a b : Nat) : Nat := min top (a + b)

/-- The sum of two counts where nothing stops it: after `top` it goes on from zero. -/
def plus (a b : Nat) : Nat := (a + b) % (top + 1)

/-- One more than a count; after `top` comes zero. -/
def next (n : Nat) : Nat := plus n 1

/-- The double nearest to a count of at most `top`. -/
def toFloat (n : Nat) : Float := n.toUInt64.toFloat

theorem plus_of_le {a b : Nat} (h : a + b ≤ top) : plus a b = a + b :=
  Nat.mod_eq_of_lt (Nat.lt_succ_of_le h)

theorem next_of_lt {n : Nat} (h : n < top) : next n = n + 1 :=
  plus_of_le h

theorem add_comm (a b : Nat) : add a b = add b a := by
  unfold add
  omega

theorem add_assoc (a b c : Nat) : add (add a b) c = add a (add b c) := by
  unfold add
  omega

/-- Counts added one after another stop at `top` once their sum passes it. -/
theorem foldl_add (counts : List Nat) (n : Nat) :
    counts.foldl add (min top n) = min top (counts.foldl (· + ·) n) := by
  induction counts generalizing n with
  | nil => rfl
  | cons count counts ih =>
    have hadd : add (min top n) count = min top (n + count) := by
      unfold add
      omega
    rw [List.foldl_cons, hadd, ih, List.foldl_cons]

end ExperienceCollection.Counter
