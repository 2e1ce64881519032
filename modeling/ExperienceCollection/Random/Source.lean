/-!
# Random sources

A random source yields words of 32 or of 64 bits, one after another, as they are asked for.
-/

namespace ExperienceCollection.Random

/-- A type whose values yield words; drawing one returns the source as it is afterwards. -/
class Source (ρ : Type) where
  next : ρ → UInt32 × ρ
  nextLong : ρ → UInt64 × ρ

/-- Words given in advance, followed by the upper halves of the words of a 64-bit generator whose
state advances by a fixed odd step. A long word always comes from the generator. -/
structure WordStream where
  words : List UInt32 := []
  state : UInt64 := 0
  deriving Repr, DecidableEq

namespace WordStream

def scramble (z : UInt64) : UInt64 :=
  let z := (z ^^^ (z >>> 30)) * 0xbf58476d1ce4e5b9
  let z := (z ^^^ (z >>> 27)) * 0x94d049bb133111eb
  z ^^^ (z >>> 31)

def nextLong (s : WordStream) : UInt64 × WordStream :=
  let state := s.state + 0x9e3779b97f4a7c15
  (scramble state, { s with state })

def next (s : WordStream) : UInt32 × WordStream :=
  match s.words with
  | word :: rest => (word, { s with words := rest })
  | [] =>
    let (word, s) := s.nextLong
    ((word >>> 32).toUInt32, s)

instance : Source WordStream := ⟨next, nextLong⟩

end WordStream

end ExperienceCollection.Random
