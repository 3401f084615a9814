/-!
# Characters and tokens of YAML text

Which characters a YAML text may hold, how its lines end, where a reader is in it, and the tokens it
is read into.
-/

set_option autoImplicit false

namespace TilePyramid.Yaml

/-- The characters that a text may hold: no controls but the tab and the line ends. -/
def isAllowed (c : Char) : Bool :=
  let point := c.toNat
  c == '\t' || c == '\n' || c == '\r' || (0x20 ≤ point && point ≤ 0x7E) || point == 0x85 ||
    (0xA0 ≤ point && point ≤ 0xFFFD) || 0x10000 ≤ point

/-- The mark that may stand before a text. -/
def byteOrderMark : Char := Char.ofNat 0xFEFF

/-- The text with a line feed in place of every other way to end a line but the line and paragraph
separators, which are kept. -/
def normalLines : List Char → List Char
  | [] => []
  | '\r' :: '\n' :: rest => '\n' :: normalLines rest
  | c :: rest => (if c = '\r' ∨ c.toNat = 0x85 then '\n' else c) :: normalLines rest

/-- The character ends a line. -/
def isBreak (c : Char) : Bool := c == '\n' || c.toNat == 0x2028 || c.toNat == 0x2029

/-- The character separates words on a line. -/
def isSpace (c : Char) : Bool := c == ' ' || c == '\t'

/-- A space, a line end or the end of the text comes next. -/
def isBlankNext : List Char → Bool
  | [] => true
  | c :: _ => isSpace c || isBreak c

/-- The character can stand in names of anchors and directives. -/
def isNameChar (c : Char) : Bool := c.isAlphanum || c == '_' || c == '-'

/-- A line that separates documents starts here. -/
def isDocumentMark : List Char → Bool
  | '-' :: '-' :: '-' :: rest => isBlankNext rest
  | '.' :: '.' :: '.' :: rest => isBlankNext rest
  | _ => false

structure Position where
  index : Nat := 0
  line : Nat := 0
  column : Nat := 0

def Position.after (position : Position) (c : Char) : Position :=
  if isBreak c then ⟨position.index + 1, position.line + 1, 0⟩
  else ⟨position.index + 1, position.line, position.column + 1⟩

def Position.afterAll (position : Position) (text : List Char) : Position :=
  text.foldl Position.after position

/-- What was read, where the reader is then, and what follows. -/
structure Scanned (α : Type) where
  value : α
  position : Position
  rest : List Char

/-- Reads the characters that satisfy a condition. -/
def scanWhile (keep : Char → Bool) (position : Position) (text : List Char) :
    Scanned (List Char) :=
  let value := text.takeWhile keep
  ⟨value, position.afterAll value, text.dropWhile keep⟩

/-!
## Tokens of YAML

The signs that a YAML text consists of. Where a block starts and ends is told by tokens of its own.
-/

inductive Style where
  | plain
  | singleQuoted
  | doubleQuoted
  | literal
  | folded
deriving DecidableEq

inductive Token where
  | version (major minor : Nat)
  | tagHandle (handle start : String)
  | documentStart
  | documentEnd
  | blockSequenceStart
  | blockMappingStart
  | blockEnd
  | flowSequenceStart
  | flowSequenceEnd
  | flowMappingStart
  | flowMappingEnd
  | blockEntry
  | flowEntry
  | key
  | value
  | alias (name : String)
  | anchor (name : String)
  | tag (handle suffix : String)
  | scalar (style : Style) (text : String)
deriving DecidableEq

end TilePyramid.Yaml
