import ExperienceCollection.Counter
import ExperienceCollection.Decimal.Shortest

/-!
# Numerals

A numeral is the written form of a JSON number. It denotes an integer when it has neither a point
nor an exponent and fits the 64-bit ranges, and every other numeral denotes a double.

The double is computed from a 64-bit significand and a power of ten with at most a few rounded
operations, so it can differ in the last place from the double nearest to the written value. A
double is written with the fewest digits that single it out.
-/

namespace ExperienceCollection.Json

/-- A number as written: sign, digits before and after the point, and the exponent with its sign. -/
structure Numeral where
  negative : Bool
  whole : List Char
  fraction : List Char
  exponent : Option (Bool × List Char)
  deriving Repr, DecidableEq

namespace Numeral

def ofNat (n : Nat) : Numeral := ⟨false, Nat.toDigits 10 n, [], none⟩

def ofInt : Int → Numeral
  | .ofNat n => ofNat n
  | .negSucc n => ⟨true, Nat.toDigits 10 (n + 1), [], none⟩

/-- Values from `10 ^ (-5)` up to `10 ^ 16` are written without an exponent. -/
def ofDigits (negative : Bool) (d : Decimal.Digits) : Numeral :=
  if -5 < d.point ∧ d.point ≤ 16 then ⟨negative, d.split.1, d.split.2, none⟩
  else
    ⟨negative, d.digits.take 1, d.digits.drop 1,
      some (decide (d.point < 1), Nat.toDigits 10 (d.point - 1).natAbs)⟩

/-- The shortest numeral of a finite double; of two equally near ones the one with an even last
digit. -/
def ofFloat? (x : Float) : Option Numeral :=
  match Decimal.Binary.ofFloat x with
  | .finite negative m q =>
    if m = 0 then some ⟨negative, ['0'], ['0'], none⟩
    else some (ofDigits negative (Decimal.shortest (fun c => c + c % 2) m q))
  | _ => none

/-- Digits before the point: not empty, and no zero in front of another digit. -/
def isWhole : List Char → Bool
  | [] => false
  | ['0'] => true
  | c :: _ => c != '0'

/-- Reads the exponent of a numeral, up to its end. -/
def exponentOf? : List Char → Option (Option (Bool × List Char))
  | [] => some none
  | e :: rest =>
    let (negative, digits) := match rest with
      | '-' :: digits => (true, digits)
      | '+' :: digits => (false, digits)
      | digits => (false, digits)
    if (e = 'e' ∨ e = 'E') ∧ digits ≠ [] ∧ digits.all Char.isDigit then
      some (some (negative, digits))
    else none

/-- Reads a numeral that takes up all the characters. -/
def ofChars? (cs : List Char) : Option Numeral := do
  let (negative, cs) := match cs with
    | '-' :: rest => (true, rest)
    | rest => (false, rest)
  let whole := cs.takeWhile Char.isDigit
  guard (isWhole whole)
  match cs.dropWhile Char.isDigit with
  | '.' :: rest =>
    let fraction := rest.takeWhile Char.isDigit
    guard (!fraction.isEmpty)
    let exponent ← exponentOf? (rest.dropWhile Char.isDigit)
    some ⟨negative, whole, fraction, exponent⟩
  | rest =>
    let exponent ← exponentOf? rest
    some ⟨negative, whole, [], exponent⟩

def chars (n : Numeral) : List Char :=
  (if n.negative then ['-'] else []) ++ n.whole ++
    (if n.fraction.isEmpty then [] else '.' :: n.fraction) ++
    match n.exponent with
    | none => []
    | some (negative, digits) => 'e' :: (if negative then '-' :: digits else digits)

def digitValue (c : Char) : Nat := c.toNat - '0'.toNat

/-- Appends digits to `n` as long as the result fits in 64 bits, and returns the digits left. -/
def absorb (n : Nat) : List Char → Nat × List Char
  | [] => (n, [])
  | c :: cs =>
    if 10 * n + digitValue c ≤ Counter.top then absorb (10 * n + digitValue c) cs
    else (n, c :: cs)

/-- The integer denoted by a numeral: from `-2 ^ 63` to `2 ^ 64 - 1`, and not the negative zero. -/
def integer? (n : Numeral) : Option Int :=
  match n.fraction, n.exponent, absorb 0 n.whole with
  | [], none, (value, []) =>
    if n.negative then
      if 0 < value ∧ value ≤ 0x8000000000000000 then some (-(value : Int)) else none
    else some value
  | _, _, _ => none

def powerOfTen (e : Nat) : Float := Float.ofScientific 1 false e

/-- `f * 10 ^ e` in double arithmetic: one multiplication or division for exponents up to 308,
repeated divisions for smaller ones. `none` when the result is too large. -/
def scaled? (f : Float) (e : Int) : Option Float :=
  if 0 ≤ e then
    if e ≤ 308 then
      let r := f * powerOfTen e.toNat
      if r.isInf then none else some r
    else if f == 0.0 then some f
    else none
  else if -308 ≤ e then some (f / powerOfTen (-e).toNat)
  else if f == 0.0 then some f
  else scaled? (f / powerOfTen 308) (e + 308)
termination_by (-e).toNat
decreasing_by omega

/-- The exponent as written, zero if there is none. -/
def exponentValue (n : Numeral) : Int :=
  match n.exponent with
  | none => 0
  | some (negative, digits) =>
    let value : Nat := Nat.ofDigitChars 10 digits 0
    if negative then -(value : Int) else value

/-- The double denoted by a numeral; `none` when it is too large. Digits before the point that no
longer fit the significand scale it by ten each, such digits after the point are dropped. -/
def float? (n : Numeral) : Option Float :=
  match n.integer? with
  | some (.ofNat value) => some (Counter.toFloat value)
  | some (.negSucc value) => some (-(Counter.toFloat (value + 1)))
  | none =>
    let (significand, scaling) := absorb 0 n.whole
    let (significand, dropped) := absorb significand n.fraction
    let places := n.fraction.length - dropped.length
    let e := (scaling.length : Int) - places + n.exponentValue
    (scaled? (Counter.toFloat significand) e).map fun f => if n.negative then -f else f

end Numeral

end ExperienceCollection.Json
