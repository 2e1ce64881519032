import Mathlib.Data.Int.ModEq
import Mathlib.Tactic.Lemma

/-!
# Arithmetic on machine words

Sizes and places are words of 64 bits, and a rolling write counts with signed ones. Each operation
is done on words and then checked: it ends in a fault unless its value is the one of exact
arithmetic. The main statements say what is enough for that, and that the value is then the word of
the exact one.
-/

namespace ExperienceCollection

/-- Why an operation on words stops: it has no value, or not the exact one. -/
inductive Fault where
  | overflow
  | noExcess
  | inexactCast
  | zeroModulus
  | outside (index length : Nat)
  | oversample (length amount : Nat)
  deriving Repr, DecidableEq

namespace Word

def add (a b : UInt64) : Except Fault UInt64 :=
  if (a + b).toNat = a.toNat + b.toNat then .ok (a + b) else .error .overflow

/-- By how much a word exceeds another one, which it has to do. -/
def excess (a b : UInt64) : Except Fault UInt64 :=
  if b < a then .ok (a - b) else .error .noExcess

/-- The signed word with the same bits. -/
def toSigned (a : UInt64) : Except Fault Int64 :=
  if a.toInt64.toInt = a.toNat then .ok a.toInt64 else .error .inexactCast

def addSigned (a b : Int64) : Except Fault Int64 :=
  if (a + b).toInt = a.toInt + b.toInt then .ok (a + b) else .error .overflow

def subSigned (a b : Int64) : Except Fault Int64 :=
  if (a - b).toInt = a.toInt - b.toInt then .ok (a - b) else .error .overflow

/-- The remainder that is not negative, from the one that has the sign of `a`. -/
def remainder (a b : Int64) : Except Fault Int64 :=
  if b = 0 then .error .zeroModulus
  else if a = Int64.minValue ∧ b = -1 then .error .overflow
  else
    let r := a % b
    .ok (if r < 0 then (if b < 0 then r - b else r + b) else r)

/-- The word with the same bits as a signed one that is a place below `length`. -/
def place (a : Int64) (length : UInt64) : Except Fault UInt64 :=
  if 0 ≤ a ∧ a.toUInt64 < length then .ok a.toUInt64
  else .error (.outside a.toUInt64.toNat length.toNat)

/-- The words from `first` on that are below `last`. -/
def range (first last : UInt64) : List UInt64 :=
  (List.range' first.toNat (last.toNat - first.toNat)).map UInt64.ofNat

def signedRange (first last : Int64) : List Int64 :=
  (List.range (last.toInt - first.toInt).toNat).map fun j : Nat => .ofInt (first.toInt + j)

/-- Numbers as words. -/
def ofNats (ns : List Nat) : List UInt64 := ns.map UInt64.ofNat

@[simp] lemma length_ofNats (ns : List Nat) : (ofNats ns).length = ns.length := List.length_map _

lemma ofNats_append (ms ns : List Nat) : ofNats (ms ++ ns) = ofNats ms ++ ofNats ns :=
  List.map_append

lemma toNat_ofNat {n : Nat} (h : n < 2 ^ 64) : (UInt64.ofNat n).toNat = n :=
  UInt64.toNat_ofNat_of_lt' h

lemma map_toNat_ofNats {ns : List Nat} (h : ∀ n ∈ ns, n < 2 ^ 64) :
    (ofNats ns).map UInt64.toNat = ns := by
  rw [ofNats, List.map_map]
  calc ns.map (UInt64.toNat ∘ UInt64.ofNat)
      = ns.map id := List.map_congr_left fun n hn => toNat_ofNat (h n hn)
    _ = ns := List.map_id ns

lemma ofNat_lt_iff {m n : Nat} (hm : m < 2 ^ 64) (hn : n < 2 ^ 64) :
    UInt64.ofNat m < UInt64.ofNat n ↔ m < n :=
  UInt64.ofNat_lt_iff_lt hm hn

lemma ofNat_le_iff {m n : Nat} (hm : m < 2 ^ 64) (hn : n < 2 ^ 64) :
    UInt64.ofNat m ≤ UInt64.ofNat n ↔ m ≤ n :=
  UInt64.ofNat_le_iff_le hm hn

lemma toNat_min_ofNat {m n : Nat} (hm : m < 2 ^ 64) (hn : n < 2 ^ 64) :
    (min (UInt64.ofNat m) (.ofNat n)).toNat = min m n := by
  have hmin : min (UInt64.ofNat m) (.ofNat n) =
      if UInt64.ofNat m ≤ .ofNat n then UInt64.ofNat m else .ofNat n := rfl
  have hle := ofNat_le_iff hm hn
  rw [hmin, Nat.min_def]
  by_cases h : m ≤ n
  · rw [if_pos (hle.mpr h), if_pos h, toNat_ofNat hm]
  · rw [if_neg (mt hle.mp h), if_neg h, toNat_ofNat hn]

/-- The first word beyond a bound is the one of the first number beyond it. -/
lemma find?_ofNats {ns : List Nat} {bound : Nat} (hns : ∀ n ∈ ns, n < 2 ^ 64)
    (hbound : bound < 2 ^ 64) :
    (ofNats ns).find? (fun i => UInt64.ofNat bound ≤ i) =
      (ns.find? fun i => bound ≤ i).map UInt64.ofNat := by
  induction ns with
  | nil => rfl
  | cons n ns ih =>
    obtain ⟨hn, hns⟩ := List.forall_mem_cons.mp hns
    have hle := ofNat_le_iff hbound hn
    rw [ofNats, List.map_cons, List.find?_cons, List.find?_cons]
    by_cases hbeyond : bound ≤ n
    · simp [hle, hbeyond]
    · simp only [hle, hbeyond, decide_false]
      exact ih hns

lemma add_ofNat {m n : Nat} (h : m + n < 2 ^ 64) :
    add (.ofNat m) (.ofNat n) = .ok (.ofNat (m + n)) := by
  have hm : m < 2 ^ 64 := by omega
  have hn : n < 2 ^ 64 := by omega
  rw [add, ← UInt64.ofNat_add, toNat_ofNat h, toNat_ofNat hm, toNat_ofNat hn, if_pos rfl]

lemma excess_ofNat {m n : Nat} (hm : m < 2 ^ 64) (h : n < m) :
    excess (.ofNat m) (.ofNat n) = .ok (.ofNat (m - n)) := by
  have hn : n < 2 ^ 64 := by omega
  rw [excess, if_pos ((ofNat_lt_iff hn hm).mpr h), ← UInt64.ofNat_sub h.le]

lemma toSigned_ofNat {n : Nat} (h : n < 2 ^ 63) : toSigned (.ofNat n) = .ok (.ofInt n) := by
  have hn : n < 2 ^ 64 := by omega
  rw [toSigned, UInt64.toInt64_ofNat', Int64.toInt_ofNat_of_lt h, toNat_ofNat hn, if_pos rfl,
    Int64.ofInt_eq_ofNat]

/-- The first number beyond the signed words is cast to another one. -/
example : toSigned 0x8000000000000000 = .error .inexactCast := by decide

/-- What a signed word can be. -/
def Signed (i : Int) : Prop := -2 ^ 63 ≤ i ∧ i < 2 ^ 63

lemma Signed.toInt_ofInt {i : Int} (h : Signed i) : (Int64.ofInt i).toInt = i :=
  Int64.toInt_ofInt_of_le h.1 h.2

lemma addSigned_ofInt {i j : Int} (hi : Signed i) (hj : Signed j) (h : Signed (i + j)) :
    addSigned (.ofInt i) (.ofInt j) = .ok (.ofInt (i + j)) := by
  rw [addSigned, ← Int64.ofInt_add, h.toInt_ofInt, hi.toInt_ofInt, hj.toInt_ofInt, if_pos rfl]

lemma subSigned_ofInt {i j : Int} (hi : Signed i) (hj : Signed j) (h : Signed (i - j)) :
    subSigned (.ofInt i) (.ofInt j) = .ok (.ofInt (i - j)) := by
  rw [subSigned, ← Int64.ofInt_sub, h.toInt_ofInt, hi.toInt_ofInt, hj.toInt_ofInt, if_pos rfl]

/-- From the remainder that has the sign of the dividend to the one that is not negative. -/
lemma tmod_wrap {i n : Int} (hn : 0 < n) :
    (if i.tmod n < 0 then i.tmod n + n else i.tmod n) = i % n := by
  have htmod := Int.tmod_eq_emod (a := i) (b := n)
  have hlow := Int.emod_nonneg i hn.ne'
  have hhigh := Int.emod_lt_of_pos i hn
  split at htmod <;> omega

/-- By a positive number, the remainder is the one of exact arithmetic. -/
lemma remainder_ofInt {i n : Int} (hi : Signed i) (hn : Signed n) (hpos : 0 < n) :
    remainder (.ofInt i) (.ofInt n) = .ok (.ofInt (i % n)) := by
  have hmod : (Int64.ofInt i % Int64.ofInt n).toInt = i.tmod n := by
    rw [Int64.toInt_mod, hi.toInt_ofInt, hn.toInt_ofInt]
  have hnonneg : ¬Int64.ofInt n < 0 := by
    rw [Int64.lt_iff_toInt_lt, hn.toInt_ofInt, Int64.toInt_zero]
    omega
  have hzero : Int64.ofInt n ≠ 0 := by
    intro hzero
    have hval := hn.toInt_ofInt
    rw [hzero, Int64.toInt_zero] at hval
    omega
  have hminus : Int64.ofInt n ≠ -1 := by
    intro hminus
    exact hnonneg (hminus ▸ by decide)
  have hneg : Int64.ofInt i % Int64.ofInt n < 0 ↔ i.tmod n < 0 := by
    rw [Int64.lt_iff_toInt_lt, hmod, Int64.toInt_zero]
  rw [remainder, if_neg hzero, if_neg fun h => hminus h.2]
  dsimp only
  rw [if_neg hnonneg, ← tmod_wrap hpos]
  congr 1
  by_cases h : i.tmod n < 0
  · rw [if_pos (hneg.mpr h), if_pos h, Int64.ofInt_add, ← hmod, Int64.ofInt_toInt]
  · rw [if_neg (mt hneg.mp h), if_neg h, ← hmod, Int64.ofInt_toInt]

/-- A place below the length passes through a signed word unharmed. -/
lemma place_ofInt {n length : Nat} (hn : n < length) (hlength : length < 2 ^ 63) :
    place (.ofInt n) (.ofNat length) = .ok (.ofNat n) := by
  have hword : (Int64.ofInt n).toUInt64 = .ofNat n := by
    rw [Int64.ofInt_eq_ofNat, Int64.toUInt64_ofNat']
  have hnonneg : 0 ≤ Int64.ofInt n := by
    rw [Int64.le_iff_toInt_le, Int64.toInt_zero, Int64.ofInt_eq_ofNat,
      Int64.toInt_ofNat_of_lt (hn.trans hlength)]
    omega
  have hbelow : UInt64.ofNat n < .ofNat length := (ofNat_lt_iff (by omega) (by omega)).mpr hn
  rw [place, hword, if_pos ⟨hnonneg, hbelow⟩]

lemma range_ofNat {first last : Nat} (h : first ≤ last) (hlast : last < 2 ^ 64) :
    range (.ofNat first) (.ofNat last) = ofNats (List.range' first (last - first)) := by
  have hfirst : first < 2 ^ 64 := by omega
  rw [range, toNat_ofNat hfirst, toNat_ofNat hlast]
  rfl

lemma signedRange_ofInt {i : Int} {n : Nat} (hi : Signed i) (h : Signed (i + n)) :
    signedRange (.ofInt i) (.ofInt (i + n)) =
      (List.range n).map fun j : Nat => .ofInt (i + j) := by
  have hcount : (i + n - i).toNat = n := by omega
  rw [signedRange, hi.toInt_ofInt, h.toInt_ofInt, hcount]

end Word

end ExperienceCollection
