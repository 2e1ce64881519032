import ExperienceCollection.Json.Literal
import ExperienceCollection.Json.Numeral

/-!
# Tokens

JSON text as a sequence of tokens. Reading is a fold over the characters, one small step each;
blanks between tokens are skipped.
-/

namespace ExperienceCollection.Json

inductive Token where
  | openArray
  | closeArray
  | openObject
  | closeObject
  | comma
  | colon
  | null
  | bool (b : Bool)
  | number (n : Numeral)
  | text (l : Literal)
  deriving Repr, DecidableEq

namespace Token

def chars : Token → List Char
  | openArray => ['[']
  | closeArray => [']']
  | openObject => ['\x7b']
  | closeObject => ['\x7d']
  | comma => [',']
  | colon => [':']
  | null => ['n', 'u', 'l', 'l']
  | bool true => ['t', 'r', 'u', 'e']
  | bool false => ['f', 'a', 'l', 's', 'e']
  | number n => n.chars
  | text l => '"' :: (l.flatMap Piece.form ++ ['"'])

/-- The token of a run of characters without quotes, brackets and blanks. -/
def ofBare? (cs : List Char) : Option Token :=
  if cs = ['n', 'u', 'l', 'l'] then some null
  else if cs = ['t', 'r', 'u', 'e'] then some (bool true)
  else if cs = ['f', 'a', 'l', 's', 'e'] then some (bool false)
  else (Numeral.ofChars? cs).map number

end Token

def isBlank (c : Char) : Bool := c = ' ' || c = '\n' || c = '\t' || c = '\r'

/-- Characters of numerals and of the words `null`, `true` and `false`. -/
def isBare (c : Char) : Bool := c.isAlphanum || c = '-' || c = '+' || c = '.'

/-- The value of a hexadecimal digit of either case. -/
def hexValue? (c : Char) : Option Nat :=
  if '0' ≤ c ∧ c ≤ '9' then some (c.toNat - '0'.toNat)
  else if 'a' ≤ c ∧ c ≤ 'f' then some (c.toNat - 'a'.toNat + 10)
  else if 'A' ≤ c ∧ c ≤ 'F' then some (c.toNat - 'A'.toNat + 10)
  else none

/-- Where the reader of characters stands. Pieces and characters read so far come last first. -/
inductive Place where
  | between
  | bare (read : List Char)
  | quoted (read : Literal)
  | escaped (read : Literal)
  | coded (read : Literal) (value : Nat) (missing : Nat)
  deriving Repr, DecidableEq

/-- A reader of characters: where it stands, and the tokens read so far, last first. -/
structure Scan where
  place : Place
  tokens : List Token
  deriving Repr, DecidableEq

namespace Scan

/-- Reads the first character of a token, or a blank. -/
def enter (tokens : List Token) (c : Char) : Option Scan :=
  if isBlank c then some ⟨.between, tokens⟩
  else if c = '[' then some ⟨.between, .openArray :: tokens⟩
  else if c = ']' then some ⟨.between, .closeArray :: tokens⟩
  else if c = '\x7b' then some ⟨.between, .openObject :: tokens⟩
  else if c = '\x7d' then some ⟨.between, .closeObject :: tokens⟩
  else if c = ',' then some ⟨.between, .comma :: tokens⟩
  else if c = ':' then some ⟨.between, .colon :: tokens⟩
  else if c = '"' then some ⟨.quoted [], tokens⟩
  else if isBare c then some ⟨.bare [c], tokens⟩
  else none

/-- The place after the character that follows a backslash. -/
def escapePlace (read : Literal) (c : Char) : Option Place :=
  if c = '"' ∨ c = '\\' ∨ c = '/' then some (.quoted (.char c :: read))
  else if c = 'b' then some (.quoted (.char '\x08' :: read))
  else if c = 'f' then some (.quoted (.char '\x0c' :: read))
  else if c = 'n' then some (.quoted (.char '\n' :: read))
  else if c = 'r' then some (.quoted (.char '\r' :: read))
  else if c = 't' then some (.quoted (.char '\t' :: read))
  else if c = 'u' then some (.coded read 0 3)
  else none

/-- Reads one character. Controls must not stand inside a string. -/
def step (s : Scan) (c : Char) : Option Scan :=
  match s.place with
  | .between => enter s.tokens c
  | .bare read =>
    if isBare c then some ⟨.bare (c :: read), s.tokens⟩
    else do enter ((← Token.ofBare? read.reverse) :: s.tokens) c
  | .quoted read =>
    if c = '"' then some ⟨.between, .text read.reverse :: s.tokens⟩
    else if c = '\\' then some ⟨.escaped read, s.tokens⟩
    else if c < ' ' then none
    else some ⟨.quoted (.char c :: read), s.tokens⟩
  | .escaped read => (escapePlace read c).map fun place => ⟨place, s.tokens⟩
  | .coded read value missing => do
    let value := 16 * value + (← hexValue? c)
    match missing with
    | 0 => some ⟨.quoted (.unit value :: read), s.tokens⟩
    | missing + 1 => some ⟨.coded read value missing, s.tokens⟩

/-- The tokens once the text has ended; a string must have been closed. -/
def finish (s : Scan) : Option (List Token) :=
  match s.place with
  | .between => some s.tokens.reverse
  | .bare read => do some ((← Token.ofBare? read.reverse) :: s.tokens).reverse
  | _ => none

end Scan

def Token.scan? (cs : List Char) : Option (List Token) := do
  (← cs.foldlM Scan.step ⟨.between, []⟩).finish

end ExperienceCollection.Json
