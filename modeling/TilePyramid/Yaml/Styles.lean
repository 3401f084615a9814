import TilePyramid.Yaml.Text

/-!
# Scalars in their styles

A scalar is plain, quoted, or a block of lines. How its text is read depends on its style, and so
does what becomes of its line ends.
-/

set_option autoImplicit false

/-!
## Folding of lines

Within plain and quoted scalars, spaces around a line end are dropped, a single line end becomes a
space, and of several line ends the first is dropped. An escaped line end leaves nothing.
-/

namespace TilePyramid.Yaml

/-- The text read so far and the spaces or line ends after it, latest first. -/
structure Folded where
  text : List Char := []
  spaces : List Char := []
  /-- The first line end, unless it was escaped, and those after it. -/
  breaks : Option (Option Char × List Char) := none

namespace Folded

/-- Nothing but text was read since the last character. -/
def isTight (folded : Folded) : Bool := folded.spaces.isEmpty && folded.breaks.isNone

/-- The text with what its trailing spaces or line ends become. -/
def settled (folded : Folded) : List Char :=
  match folded.breaks with
  | none => folded.spaces ++ folded.text
  | some (some '\n', []) => ' ' :: folded.text
  | some (some '\n', others) => others ++ folded.text
  | some (first, others) => others ++ first.toList ++ folded.text

def push (folded : Folded) (c : Char) : Folded := { text := c :: folded.settled }

def pushSpace (folded : Folded) (c : Char) : Folded :=
  if folded.breaks.isSome then folded else { folded with spaces := c :: folded.spaces }

/-- Reads a line end. -/
def pushBreak (folded : Folded) (c : Char) : Folded :=
  match folded.breaks with
  | none => { folded with spaces := [], breaks := some (some c, []) }
  | some (first, others) => { folded with breaks := some (first, c :: others) }

/-- Reads an escaped line end. -/
def pushEscapedBreak (folded : Folded) : Folded :=
  { text := folded.settled, breaks := some (none, []) }

/-- What was read, without trailing spaces and line ends. -/
def trimmed (folded : Folded) : String := String.ofList folded.text.reverse

/-- What was read, with what trailing spaces and line ends become. -/
def closed (folded : Folded) : String := String.ofList folded.settled.reverse

end Folded

/-!
## Plain scalars

A plain scalar ends before a colon that a space follows, before a comment, and in a flow collection
before the signs of the collection. It goes on over lines that are indented further than the block
it stands in.
-/

/-- Where a plain scalar stands: in a flow collection, and the least column of its further lines. -/
structure PlainPlace where
  inFlow : Bool
  indent : Nat

/-- A colon that a sign of a flow collection follows. -/
def isStrayColon (c : Char) (rest : List Char) : Bool :=
  c == ':' && (match rest.head? with
    | some next => [',', '?', '[', ']', '\x7b', '\x7d'].contains next
    | none => false)

def isFlowSign (c : Char) : Bool := [',', '[', ']', '\x7b', '\x7d'].contains c

/-- The character before `rest` ends a plain scalar. -/
def endsPlain (inFlow : Bool) (c : Char) (rest : List Char) : Bool :=
  (c == ':' && isBlankNext rest) || (inFlow && isFlowSign c)

/-- A scalar goes no further at a character that follows spaces or line ends. -/
def stopsPlain (place : PlainPlace) (position : Position) (folded : Folded) (c : Char)
    (rest : List Char) : Bool :=
  !folded.isTight &&
    (c == '#' || (position.column == 0 && isDocumentMark (c :: rest)) ||
      (!place.inFlow && position.column < place.indent))

def scanPlain (place : PlainPlace) (position : Position) (folded : Folded) :
    List Char → Option (Scanned Folded)
  | [] => some ⟨folded, position, []⟩
  | c :: rest =>
      if isBreak c then scanPlain place (position.after c) (folded.pushBreak c) rest
      else if isSpace c then
        if c = '\t' ∧ folded.breaks.isSome ∧ position.column < place.indent then none
        else scanPlain place (position.after c) (folded.pushSpace c) rest
      else if stopsPlain place position folded c rest then some ⟨folded, position, c :: rest⟩
      else if place.inFlow && isStrayColon c rest then none
      else if endsPlain place.inFlow c rest then some ⟨folded, position, c :: rest⟩
      else scanPlain place (position.after c) (folded.push c) rest

/-!
## Quoted scalars

Between single quotes a quote is written twice. Between double quotes a backslash starts an escape:
a sign for a character, the code point of one, or the end of a line that leaves no trace.
-/

def hexValue? (c : Char) : Option Nat :=
  if c.isDigit then some (c.toNat - '0'.toNat)
  else if 'a' ≤ c ∧ c ≤ 'f' then some (c.toNat - 'a'.toNat + 10)
  else if 'A' ≤ c ∧ c ≤ 'F' then some (c.toNat - 'A'.toNat + 10)
  else none

/-- What an escape sign stands for. -/
inductive Escape where
  | char (c : Char)
  | codePoint (digits : Nat)
  | unknown

def Escape.ofSign : Char → Escape
  | '0' => .char (Char.ofNat 0)
  | 'a' => .char (Char.ofNat 7)
  | 'b' => .char (Char.ofNat 8)
  | 't' | '\t' => .char '\t'
  | 'n' => .char '\n'
  | 'v' => .char (Char.ofNat 11)
  | 'f' => .char (Char.ofNat 12)
  | 'r' => .char '\r'
  | 'e' => .char (Char.ofNat 27)
  | ' ' => .char ' '
  | '"' => .char '"'
  | '/' => .char '/'
  | '\\' => .char '\\'
  | 'N' => .char (Char.ofNat 0x85)
  | '_' => .char (Char.ofNat 0xA0)
  | 'L' => .char (Char.ofNat 0x2028)
  | 'P' => .char (Char.ofNat 0x2029)
  | 'x' => .codePoint 2
  | 'u' => .codePoint 4
  | 'U' => .codePoint 8
  | _ => .unknown

def charOf? (point : Nat) : Option Char :=
  if point < 0xD800 ∨ (0xE000 ≤ point ∧ point < 0x110000) then some (Char.ofNat point) else none

/-- The part of an escape that was read: the backslash, or digits of a code point. -/
inductive EscapeState where
  | none
  | sign
  | digits (missing point : Nat)

/-- Reads on in a double-quoted scalar, up to and with the closing quote. -/
def scanDoubleQuoted (position : Position) (state : EscapeState) (folded : Folded) :
    List Char → Option (Scanned Folded)
  | [] => none
  | c :: rest =>
      let after := position.after c
      match state with
      | .digits missing point =>
          match hexValue? c with
          | none => none
          | some digit =>
              let point := point * 16 + digit
              if missing ≤ 1 then
                match charOf? point with
                | some char => scanDoubleQuoted after .none (folded.push char) rest
                | none => none
              else scanDoubleQuoted after (.digits (missing - 1) point) folded rest
      | .sign =>
          if isBreak c then scanDoubleQuoted after .none folded.pushEscapedBreak rest
          else
            match Escape.ofSign c with
            | .char char => scanDoubleQuoted after .none (folded.push char) rest
            | .codePoint digits => scanDoubleQuoted after (.digits digits 0) folded rest
            | .unknown => none
      | .none =>
          if position.column = 0 ∧ isDocumentMark (c :: rest) then none
          else if isBreak c then scanDoubleQuoted after .none (folded.pushBreak c) rest
          else if isSpace c then scanDoubleQuoted after .none (folded.pushSpace c) rest
          else if c = '"' then some ⟨folded, after, rest⟩
          else if c = '\\' then scanDoubleQuoted after .sign folded rest
          else scanDoubleQuoted after .none (folded.push c) rest

/-- Reads on in a single-quoted scalar, up to and with the closing quote. -/
def scanSingleQuoted (position : Position) (folded : Folded) :
    List Char → Option (Scanned Folded)
  | [] => none
  | '\'' :: '\'' :: rest =>
      scanSingleQuoted (position.afterAll ['\'', '\'']) (folded.push '\'') rest
  | c :: rest =>
      let after := position.after c
      if position.column = 0 ∧ isDocumentMark (c :: rest) then none
      else if isBreak c then scanSingleQuoted after (folded.pushBreak c) rest
      else if isSpace c then scanSingleQuoted after (folded.pushSpace c) rest
      else if c = '\'' then some ⟨folded, after, rest⟩
      else scanSingleQuoted after (folded.push c) rest

/-!
## Block scalars

A block scalar is a header and the lines below it that are indented further than the block it stands
in. A literal one keeps its line ends. A folded one joins lines that start with no space. The header
may give the indentation, and what to do with the line ends after the text: keep the first, keep
all, or drop all.
-/

/-- What becomes of the line ends after a block scalar. -/
inductive Chomping where
  | clip
  | keep
  | strip
deriving DecidableEq

structure BlockHeader where
  chomping : Chomping := .clip
  increment : Option Nat := none

/-- Reads a sign for the line ends. -/
def Chomping.ofSign? : Char → Option Chomping
  | '+' => some .keep
  | '-' => some .strip
  | _ => none

/-- Reads a sign for the line ends that may be missing. -/
def scanChomping : List Char → Chomping × List Char
  | [] => (.clip, [])
  | c :: rest =>
      match Chomping.ofSign? c with
      | some chomping => (chomping, rest)
      | none => (.clip, c :: rest)

/-- Reads the signs of a header, in either order. An indentation of nothing is none. -/
def scanHeader : List Char → Option (BlockHeader × List Char)
  | [] => some ({}, [])
  | c :: rest =>
      match Chomping.ofSign? c with
      | some chomping =>
          match rest with
          | d :: others =>
              if d = '0' then none
              else if d.isDigit then
                some ({ chomping, increment := some (d.toNat - '0'.toNat) }, others)
              else some ({ chomping }, rest)
          | [] => some ({ chomping }, [])
      | none =>
          if c = '0' then none
          else if c.isDigit then
            let (chomping, others) := scanChomping rest
            some ({ chomping, increment := some (c.toNat - '0'.toNat) }, others)
          else some ({}, c :: rest)

/-- The rest of a line that holds nothing but spaces and a comment, if it is such a line. -/
def skipLineRest (position : Position) (text : List Char) : Option (Position × List Char) :=
  let spaces := scanWhile isSpace position text
  let comment :=
    match spaces.rest with
    | '#' :: _ => scanWhile (fun c => !isBreak c) spaces.position spaces.rest
    | _ => ⟨[], spaces.position, spaces.rest⟩
  match comment.rest with
  | [] => some (comment.position, [])
  | c :: rest => if isBreak c then some (comment.position.after c, rest) else none

/-- What was read of a block scalar, latest first: its text, the line end after it, and the line
ends of empty lines that follow. -/
structure BlockState where
  folds : Bool
  /-- The indentation of the text, once it is known. -/
  indent : Option Nat
  /-- The least indentation. -/
  least : Nat
  /-- The widest margin of the empty lines before the text. -/
  margin : Nat := 0
  text : List Char := []
  lineEnd : List Char := []
  emptyLines : List Char := []
  /-- The line before starts with a space. -/
  spaced : Bool := false

namespace BlockState

/-- The column belongs to the margin. -/
def inMargin (state : BlockState) (column : Nat) : Bool := state.indent.all (column < ·)

/-- Notes how wide the margin of a line is. -/
def widen (state : BlockState) (column : Nat) : BlockState :=
  { state with margin := max state.margin column }

/-- The indentation of the text, given that a line which is not empty was reached. -/
def settledIndent (state : BlockState) : Nat :=
  state.indent.getD (max (max state.margin state.least) 1)

def startLine (state : BlockState) (first : Char) : BlockState :=
  let spaced := isSpace first
  let joins := state.folds && state.lineEnd == ['\n'] && !state.spaced && !spaced
  let between :=
    if joins then (if state.emptyLines.isEmpty then [' '] else state.emptyLines)
    else state.emptyLines ++ state.lineEnd
  { state with
    indent := some state.settledIndent
    text := first :: (between ++ state.text)
    lineEnd := []
    emptyLines := []
    spaced }

/-- What was read, with the line ends that the header asks for. -/
def closed (state : BlockState) (chomping : Chomping) : String :=
  let kept := match chomping with
    | .strip => []
    | .clip => state.lineEnd
    | .keep => state.emptyLines ++ state.lineEnd
  String.ofList (kept ++ state.text).reverse

end BlockState

/-- Reads on in a block scalar: within a line of text, or in the margin of a line. -/
def scanBlock (position : Position) (inLine : Bool) (state : BlockState) :
    List Char → Option (Scanned BlockState)
  | [] => some ⟨state, position, []⟩
  | c :: rest =>
      let after := position.after c
      if inLine then
        if isBreak c then scanBlock after false { state with lineEnd := [c] } rest
        else scanBlock after true { state with text := c :: state.text } rest
      else if c = ' ' ∧ state.inMargin position.column then scanBlock after false state rest
      else
        let state := state.widen position.column
        if c = '\t' ∧ state.inMargin position.column then none
        else if isBreak c then
          scanBlock after false { state with emptyLines := c :: state.emptyLines } rest
        else if position.column = state.settledIndent then
          scanBlock after true (state.startLine c) rest
        else some ⟨state, position, c :: rest⟩

end TilePyramid.Yaml
