/-!
# Binary value of a double

`Binary.ofFloat` reads the sign, significand and exponent out of the bits of a double, so that
its exact value can be handled with integers.
-/

namespace ExperienceCollection.Decimal

def twoTo (k : Nat) : Nat := Nat.pow 2 k

def tenTo (k : Nat) : Nat := Nat.pow 10 k

/-- A double as an exact value: `finite negative m q` stands for `m * 2 ^ q` with a sign. -/
inductive Binary where
  | notANumber
  | infinite (negative : Bool)
  | finite (negative : Bool) (m : Nat) (q : Int)
  deriving Repr, DecidableEq

/-- The value denoted by 64 bits: one sign bit, eleven exponent bits, 52 fraction bits. -/
def Binary.ofBits (bits : Nat) : Binary :=
  let negative := bits / twoTo 63 % 2 == 1
  let exponent : Nat := bits / twoTo 52 % twoTo 11
  let fraction : Nat := bits % twoTo 52
  if exponent = 2047 then
    if fraction = 0 then .infinite negative else .notANumber
  else if exponent = 0 then .finite negative fraction (-1074)
  else .finite negative (twoTo 52 + fraction) ((exponent : Int) - 1075)

def Binary.ofFloat (x : Float) : Binary := ofBits x.toBits.toNat

def sign (negative : Bool) : String := if negative then "-" else ""

end ExperienceCollection.Decimal
