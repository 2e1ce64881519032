/-!
# String literals

Between its quotes a JSON string holds characters and `\u` codes. A code names one 16-bit unit;
two units in sequence may stand for one character outside the basic plane. A literal denotes a
string unless a unit of such a pair stands without its partner.
-/

namespace ExperienceCollection.Json

/-- One element of a string literal: a character, or a 16-bit unit given by its code. -/
inductive Piece where
  | char (c : Char)
  | unit (u : Nat)
  deriving Repr, DecidableEq

abbrev Literal := List Piece

/-- The character a pair of units stands for, the first from `D800` and the second from `DC00`. -/
def pairedChar (high low : Nat) : Char :=
  Char.ofNat (0x10000 + (high - 0xD800) * 0x400 + (low - 0xDC00))

/-- The characters of a literal; `none` if a unit of a pair stands alone. -/
def Literal.chars? : Literal → Option (List Char)
  | [] => some []
  | .char c :: rest => (Literal.chars? rest).map (c :: ·)
  | .unit high :: .unit low :: rest =>
    if 0xD800 ≤ high ∧ high ≤ 0xDBFF then
      if 0xDC00 ≤ low ∧ low ≤ 0xDFFF then
        (Literal.chars? rest).map (pairedChar high low :: ·)
      else none
    else if 0xDC00 ≤ high ∧ high ≤ 0xDFFF then none
    else (Literal.chars? (.unit low :: rest)).map (Char.ofNat high :: ·)
  | .unit u :: rest =>
    if 0xD800 ≤ u ∧ u ≤ 0xDFFF then none
    else (Literal.chars? rest).map (Char.ofNat u :: ·)

def Literal.value? (l : Literal) : Option String := (Literal.chars? l).map String.ofList

/-- Lower case hexadecimal digit of a number below sixteen. -/
def hexDigit (n : Nat) : Char := Nat.digitChar n

/-- A unit written as a code. -/
def unitCode (u : Nat) : List Char :=
  ['\\', 'u', hexDigit (u / 4096 % 16), hexDigit (u / 256 % 16), hexDigit (u / 16 % 16),
    hexDigit (u % 16)]

/-- The letter that stands for a character behind a backslash. -/
def shortEscape? (c : Char) : Option Char :=
  if c = '"' then some '"'
  else if c = '\\' then some '\\'
  else if c = '\x08' then some 'b'
  else if c = '\x0c' then some 'f'
  else if c = '\n' then some 'n'
  else if c = '\r' then some 'r'
  else if c = '\t' then some 't'
  else none

/-- The written form of a piece: characters with a short escape are escaped. -/
def Piece.form : Piece → List Char
  | .char c =>
    match shortEscape? c with
    | some letter => ['\\', letter]
    | none => [c]
  | .unit u => unitCode u

/-- The piece for a character of a string: a control without a short escape is given by its code,
all other characters stand for themselves. -/
def Piece.ofChar (c : Char) : Piece :=
  if c < ' ' ∧ shortEscape? c = none then .unit c.toNat else .char c

def Literal.ofString (s : String) : Literal := s.toList.map Piece.ofChar

theorem Literal.value?_ofString (s : String) : (Literal.ofString s).value? = some s := by
  have cons (c : Char) (l : Literal) :
      Literal.chars? (Piece.ofChar c :: l) = (Literal.chars? l).map (c :: ·) := by
    unfold Piece.ofChar
    split
    · next h =>
      have low : c.toNat < 0x20 := h.1
      cases l with
      | nil => simp [Literal.chars?, show ¬0xD800 ≤ c.toNat by omega]
      | cons p rest =>
        cases p with
        | char d => simp [Literal.chars?, show ¬0xD800 ≤ c.toNat by omega]
        | unit u =>
          simp [Literal.chars?, show ¬0xD800 ≤ c.toNat by omega,
            show ¬0xDC00 ≤ c.toNat by omega]
    · simp [Literal.chars?]
  have all (cs : List Char) : Literal.chars? (cs.map Piece.ofChar) = some cs := by
    induction cs with
    | nil => rfl
    | cons c rest ih => simp [cons, ih]
  simp [Literal.value?, Literal.ofString, all]

end ExperienceCollection.Json
