import ExperienceCollection.Decimal.Binary

/-!
# Fixed decimal places

A double is written with a given number of decimal places. Its exact value is rounded once; a
value half way between two neighbours goes to the even one.
-/

namespace ExperienceCollection.Decimal

/-- The integer nearest to `num / den`; half way the even one. -/
def roundHalfEven (num den : Nat) : Nat :=
  let low := num / den
  let rest := 2 * (num % den)
  if rest < den then low
  else if den < rest then low + 1
  else if low % 2 = 0 then low
  else low + 1

/-- `m * 2 ^ q` in units of `10 ^ (-places)`, rounded to an integer. -/
def unitsOf (places m : Nat) (q : Int) : Nat :=
  roundHalfEven (m * tenTo places * twoTo q.toNat) (twoTo (-q).toNat)

/-- A count of units of `10 ^ (-places)` as digits with a point; `places` is positive. -/
def pointed (places units : Nat) : String :=
  let low := toString (units % tenTo places)
  toString (units / tenTo places) ++ "." ++
    String.ofList (List.replicate (places - low.length) '0') ++ low

/-- The text of a double with `places` decimal places, without an exponent. -/
def fixed (places : Nat) (x : Float) : String :=
  match Binary.ofFloat x with
  | .notANumber => "NaN"
  | .infinite negative => sign negative ++ "inf"
  | .finite negative m q => sign negative ++ pointed places (unitsOf places m q)

end ExperienceCollection.Decimal
