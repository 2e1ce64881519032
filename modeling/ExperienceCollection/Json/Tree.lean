import ExperienceCollection.Json.Token

/-!
# JSON trees

`Tree` is a JSON value as written: numbers stay numerals, strings stay literals, and the members
of an object keep their order and their repetitions. Reading folds over the tokens with a stack of
the containers still open; writing is compact, without blanks.
-/

namespace ExperienceCollection.Json

inductive Tree where
  | null
  | bool (b : Bool)
  | number (n : Numeral)
  | text (l : Literal)
  | array (items : List Tree)
  | object (members : List (Literal × Tree))
  deriving Repr

namespace Tree

def ofString (s : String) : Tree := .text (Literal.ofString s)

def ofNat (n : Nat) : Tree := .number (Numeral.ofNat n)

/-- An object whose member names are given as strings. -/
def ofMembers (members : List (String × Tree)) : Tree :=
  .object (members.map fun m => (Literal.ofString m.1, m.2))

mutual
def tokens : Tree → List Token
  | .null => [.null]
  | .bool b => [.bool b]
  | .number n => [.number n]
  | .text l => [.text l]
  | .array items => .openArray :: (itemTokens items ++ [.closeArray])
  | .object members => .openObject :: (memberTokens members ++ [.closeObject])

/-- The tokens of the items of an array, parted by commas. -/
def itemTokens : List Tree → List Token
  | [] => []
  | [item] => item.tokens
  | item :: items => item.tokens ++ .comma :: itemTokens items

/-- The tokens of the members of an object, parted by commas. -/
def memberTokens : List (Literal × Tree) → List Token
  | [] => []
  | [(name, value)] => .text name :: .colon :: value.tokens
  | (name, value) :: members =>
    .text name :: .colon :: (value.tokens ++ .comma :: memberTokens members)
end

/-- The text of a tree, without blanks. -/
def print (t : Tree) : String := String.ofList (t.tokens.flatMap Token.chars)

end Tree

/-- A container still open, around a value that is being read: what was read of it, last first. -/
inductive Frame where
  | array (items : List Tree)
  | object (members : List (Literal × Tree)) (name : Literal)

/-- What has to come next, or the value just read. -/
inductive Focus where
  | value
  | firstItem
  | firstName
  | name (members : List (Literal × Tree))
  | colon (members : List (Literal × Tree)) (name : Literal)
  | after (t : Tree)

/-- A reader of tokens: the open containers from the inside out, and what has to come next. -/
structure Reading where
  frames : List Frame
  focus : Focus

namespace Reading

/-- Reads the first token of a value. -/
def enter (frames : List Frame) : Token → Option Reading
  | .null => some ⟨frames, .after .null⟩
  | .bool b => some ⟨frames, .after (.bool b)⟩
  | .number n => some ⟨frames, .after (.number n)⟩
  | .text l => some ⟨frames, .after (.text l)⟩
  | .openArray => some ⟨frames, .firstItem⟩
  | .openObject => some ⟨frames, .firstName⟩
  | _ => none

/-- Reads the token after a complete value. -/
def leave (frames : List Frame) (t : Tree) (token : Token) : Option Reading :=
  match frames, token with
  | .array items :: rest, .comma => some ⟨.array (t :: items) :: rest, .value⟩
  | .array items :: rest, .closeArray => some ⟨rest, .after (.array (t :: items).reverse)⟩
  | .object members name :: rest, .comma => some ⟨rest, .name ((name, t) :: members)⟩
  | .object members name :: rest, .closeObject =>
    some ⟨rest, .after (.object ((name, t) :: members).reverse)⟩
  | _, _ => none

def step (r : Reading) (token : Token) : Option Reading :=
  match r.focus with
  | .value => enter r.frames token
  | .firstItem =>
    match token with
    | .closeArray => some ⟨r.frames, .after (.array [])⟩
    | _ => enter (.array [] :: r.frames) token
  | .firstName =>
    match token with
    | .closeObject => some ⟨r.frames, .after (.object [])⟩
    | .text name => some ⟨r.frames, .colon [] name⟩
    | _ => none
  | .name members =>
    match token with
    | .text name => some ⟨r.frames, .colon members name⟩
    | _ => none
  | .colon members name =>
    match token with
    | .colon => some ⟨.object members name :: r.frames, .value⟩
    | _ => none
  | .after t => leave r.frames t token

/-- The tree once all tokens are read; no container may be open. -/
def finish (r : Reading) : Option Tree :=
  match r.frames, r.focus with
  | [], .after t => some t
  | _, _ => none

end Reading

namespace Tree

def ofTokens? (tokens : List Token) : Option Tree := do
  (← tokens.foldlM Reading.step ⟨[], .value⟩).finish

/-- Reads a text that holds one JSON value, with blanks around it. -/
def parse? (text : String) : Option Tree := do
  ofTokens? (← Token.scan? text.toList)

end Tree

end ExperienceCollection.Json
