import ExperienceCollection.Random.Source

/-!
# Random samples

Sampling without replacement: `sample length amount` yields `amount` different numbers below
`length`. Small samples are built up one by one, larger ones by shuffling the front of the list of
all numbers, and those that are large but sparse by drawing again whatever was drawn before. Which
way is taken decides how many words are drawn and what they lead to.

Some words are refused and others drawn in their place, as often as it takes. A source may yield
nothing but words that are refused, so a draw has a result only if it comes to an end.
-/

namespace ExperienceCollection.Random

variable {ρ : Type} [Source ρ]

/-- The two widths of words that numbers are made of. -/
inductive Width where
  | short
  | long
  deriving Repr, DecidableEq

/-- How many words of a width there are. -/
def Width.count : Width → Nat
  | short => 0x100000000
  | long => 0x10000000000000000

def Width.draw : Width → ρ → Nat × ρ
  | short, r =>
    let (word, r) := Source.next r
    (word.toNat, r)
  | long, r =>
    let (word, r) := Source.nextLong r
    (word.toNat, r)

/-- Maps a word to a number below `n`, drawing again while the low half of the product lies beyond
`zone`, so that all numbers are equally likely. -/
def Width.scaledWord (w : Width) (n zone : Nat) (r : ρ) : Option (Nat × ρ) :=
  let (word, r) := w.draw r
  let product := word * n
  if product % w.count ≤ zone then some (product / w.count, r) else w |>.scaledWord n zone r
partial_fixpoint

/-- A number from `low` to `high`, both included. The zone is the largest multiple of the count of
numbers by a power of two that fits in a word, less one. -/
def between (low high : Nat) (r : ρ) : Option (Nat × ρ) := do
  let n := high - low + 1
  let (k, r) ← Width.short.scaledWord n (n <<< (31 - n.log2) - 1) r
  some (low + k, r)

/-- Adds one number to a small sample: a number `t` below `j + 1`, or `j` itself when `t` was taken
already. In an ordered sample `j` then goes in front of the number it stands for. -/
def addSmall (ordered : Bool) (taken : List Nat) (j t : Nat) : List Nat :=
  match taken.idxOf? t with
  | none => taken ++ [t]
  | some position => if ordered then taken.insertIdx position j else taken ++ [j]

def grow (ordered : Bool) : List Nat → List Nat → ρ → Option (List Nat × ρ)
  | [], taken, r => some (taken, r)
  | j :: rest, taken, r => do
    let (t, r) ← between 0 j r
    grow ordered rest (addSmall ordered taken j t) r

/-- Exchanges the number at `i` with one at a random place from `i` to the end, for each `i` of a
list. -/
def shuffleFront (last : Nat) : List Nat → Array Nat → ρ → Option (Array Nat × ρ)
  | [], a, r => some (a, r)
  | i :: rest, a, r => do
    let (j, r) ← between i last r
    shuffleFront last rest (a.swapIfInBounds i j) r

/-- Exchanges the number at `i` with one at a random place up to `i`, for each `i` of a list. -/
def shuffleBack : List Nat → Array Nat → ρ → Option (Array Nat × ρ)
  | [], a, r => some (a, r)
  | i :: rest, a, r => do
    let (j, r) ← between 0 i r
    shuffleBack rest (a.swapIfInBounds i j) r

/-- A number below `n`. The zone is the largest multiple of `n` that fits in a word, less one. -/
def Width.below (w : Width) (n : Nat) (r : ρ) : Option (Nat × ρ) :=
  w.scaledWord n (w.count - 1 - w.count % n) r

/-- A number below `length` that is not taken. While the number drawn is taken another one is drawn
instead. -/
def Width.untaken (w : Width) (length : Nat) (taken : List Nat) (r : ρ) : Option (Nat × ρ) := do
  let (i, r) ← w.below length r
  if i ∈ taken then w |>.untaken length taken r else some (i, r)
partial_fixpoint

/-- Adds a number of untaken ones to a sample. -/
def scatter (w : Width) (length : Nat) : Nat → List Nat → ρ → Option (List Nat × ρ)
  | 0, taken, r => some (taken, r)
  | count + 1, taken, r => do
    let (i, r) ← w.untaken length taken r
    scatter w length count (taken ++ [i]) r

/-- Samples of fewer than fifty numbers are kept in order while they grow; others are shuffled
once complete. -/
def orderedBelow : Nat := 50

def sampleByGrowth (length amount : Nat) (r : ρ) : Option (List Nat × ρ) := do
  let (taken, r) ← grow (amount < orderedBelow) (List.range' (length - amount) amount) [] r
  if amount < orderedBelow then some (taken, r)
  else
    let (shuffled, r) ← shuffleBack (List.range' 1 (amount - 1)).reverse taken.toArray r
    some (shuffled.toList, r)

/-- A sample from the front of a shuffled list of all numbers. -/
def sampleByShuffle (length amount : Nat) (r : ρ) : Option (List Nat × ρ) := do
  let (shuffled, r) ← shuffleFront (length - 1) (List.range amount) (Array.range length) r
  some (shuffled.toList.take amount, r)

/-- The ways to draw a sample. -/
inductive Method where
  | growth
  | shuffle
  | scatter (w : Width)
  deriving Repr, DecidableEq

/-- The way that is estimated to cost least, in single precision. The factors of the estimates
change with long lists, and only long words reach the numbers of a list as long as there are short
words. -/
def Method.cheapest (length amount : Nat) : Method :=
  let a := amount.toFloat32
  let isShort := length < 500000
  let slope : Float32 := if isShort then 1.6 else 8.0 / 45.0
  let base : Float32 := if isShort then 10 else 70.0 / 9.0
  let sparse : Float32 := if isShort then 270 else 330.0 / 9.0
  if Width.short.count ≤ length then .scatter .long
  else if amount < 163 then
    if amount < 12 || !(length.toFloat32 < (base + slope * a) * a) then .growth else .shuffle
  else if length.toFloat32 < sparse * a then .shuffle
  else .scatter .short

/-- `amount` different numbers below `length`, for `amount ≤ length`, if the draw ends. -/
def sample? (length amount : Nat) (r : ρ) : Option (List Nat × ρ) :=
  match Method.cheapest length amount with
  | .growth => sampleByGrowth length amount r
  | .shuffle => sampleByShuffle length amount r
  | .scatter w => scatter w length amount [] r

/-- A draw that goes on for ever has no sample, and the call that asks for it never answers. The
first numbers are named for it only to make a function of it. -/
def sample (length amount : Nat) (r : ρ) : List Nat × ρ :=
  (sample? length amount r).getD (List.range amount, r)

end ExperienceCollection.Random
