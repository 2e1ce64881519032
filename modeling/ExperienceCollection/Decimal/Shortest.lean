import ExperienceCollection.Decimal.Binary

/-!
# Shortest decimal text

The text of a double has the fewest digits that still lie in the interval of reals rounding to
that double; among texts of that length it is the nearest one. Of two equally near the larger is
taken, or another one where a different rule is given. Everything is computed with exact integers.
-/

namespace ExperienceCollection.Decimal

/-- A positive decimal: the value `0.d₁d₂… * 10 ^ point` for the given digits. -/
structure Digits where
  digits : List Char
  point : Int
  deriving Repr, DecidableEq

/-- The reals that round to `m * 2 ^ q`, over the common denominator `den`: the value itself, the
two ends, and whether the ends belong to it. -/
structure Interval where
  low : Nat
  value : Nat
  high : Nat
  den : Nat
  closed : Bool
  deriving Repr, DecidableEq

/-- The rounding interval of a positive double. Below a power of two the neighbour is only half as
far away, except among the smallest doubles, which are evenly spaced. -/
def Interval.ofBinary (m : Nat) (q : Int) : Interval :=
  let scale := twoTo (q - 2).toNat
  let below := if m = twoTo 52 ∧ q ≠ -1074 then 1 else 2
  { low := (4 * m - below) * scale
    value := 4 * m * scale
    high := (4 * m + 2) * scale
    den := twoTo (2 - q).toNat
    closed := m % 2 = 0 }

/-- Whether `num / den * 10 ^ k` lies in the interval. -/
def Interval.holds (i : Interval) (c : Nat) (k : Int) : Bool :=
  let c := c * tenTo k.toNat * i.den
  let shift := tenTo (-k).toNat
  if i.closed then i.low * shift ≤ c && c ≤ i.high * shift
  else i.low * shift < c && c < i.high * shift

def digitCount (n : Nat) : Nat := (Nat.toDigits 10 n).length

/-- The `e` with `10 ^ (e - 1) ≤ num / den < 10 ^ e`, for a positive fraction. -/
def magnitude (num den : Nat) : Int :=
  if den ≤ num then digitCount (num / den)
  else
    let zeros := digitCount (den / num)
    if den ≤ num * tenTo (zeros - 1) then 2 - (zeros : Int) else 1 - (zeros : Int)

/-- The multiple of `10 ^ k` in the interval that is nearest to the value, if one of the two
neighbours of the value is in the interval at all. Half way between them, `tie` of the lower one is
taken. -/
def Interval.nearest? (tie : Nat → Nat) (i : Interval) (k : Int) : Option Nat :=
  let num := i.value * tenTo (-k).toNat
  let den := i.den * tenTo k.toNat
  let c := num / den
  match i.holds c k && c != 0, i.holds (c + 1) k with
  | true, true =>
    some (if 2 * (num % den) < den then c else if 2 * (num % den) = den then tie c else c + 1)
  | true, false => some c
  | false, true => some (c + 1)
  | false, false => none

/-- The digits of `c * 10 ^ k` without zeros at the end. -/
def Digits.ofScaled (c : Nat) (k : Int) : Digits :=
  let all := Nat.toDigits 10 c
  { digits := (all.reverse.dropWhile (· == '0')).reverse
    point := k + all.length }

/-- The shortest digits of a positive double. Seventeen digits always suffice. -/
def shortest (tie : Nat → Nat) (m : Nat) (q : Int) : Digits :=
  let i := Interval.ofBinary m q
  let e := magnitude i.value i.den
  let tries := (List.range 17).map fun n : Nat => e - 1 - (n : Int)
  (tries.findSome? fun k => (i.nearest? tie k).map fun c => Digits.ofScaled c k).getD ⟨['0'], 1⟩

/-- The digits before and after the point; a whole number keeps one zero after the point. -/
def Digits.split (d : Digits) : List Char × List Char :=
  let n : Int := d.digits.length
  if d.point ≤ 0 then (['0'], List.replicate (-d.point).toNat '0' ++ d.digits)
  else if n ≤ d.point then (d.digits ++ List.replicate (d.point - n).toNat '0', ['0'])
  else (d.digits.take d.point.toNat, d.digits.drop d.point.toNat)

/-- Digits with a point and without an exponent. -/
def Digits.positional (d : Digits) : String :=
  String.ofList d.split.1 ++ "." ++ String.ofList d.split.2

/-- Digits with an exponent; the point is left out when a single digit stands before it. -/
def Digits.exponential (d : Digits) : String :=
  let tail := d.digits.drop 1
  String.ofList (d.digits.take 1) ++
    (if tail.isEmpty then "" else "." ++ String.ofList tail) ++ "e" ++ toString (d.point - 1)

/-- Values from `10 ^ (-4)` up to `10 ^ 16` are written without an exponent. -/
def Digits.text (d : Digits) : String :=
  if -4 < d.point ∧ d.point ≤ 16 then d.positional else d.exponential

def text (x : Float) : String :=
  match Binary.ofFloat x with
  | .notANumber => "NaN"
  | .infinite negative => sign negative ++ "inf"
  | .finite negative m q =>
    sign negative ++ if m = 0 then "0.0" else (shortest (· + 1) m q).text

end ExperienceCollection.Decimal
