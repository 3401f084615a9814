import TilePyramid.Text.Utf8
import TilePyramid.Yaml.Styles

/-!
# Scanning YAML text

A YAML text is read into tokens from left to right. Besides scalars and signs there are anchors,
tags and directives.
-/

set_option autoImplicit false

namespace TilePyramid.Yaml

/-!
## Anchors, tags and directives

The names that are given to nodes, the types that are asked for them, and the lines before a
document that say how it is written.
-/

/-- The character after a name ends it. -/
def endsName : List Char → Bool
  | [] => true
  | c :: _ => isSpace c || isBreak c || ['?', ':', ',', ']', '\x7d', '%', '@', '\x60'].contains c

def scanName (position : Position) (text : List Char) : Option (Scanned String) :=
  let name := scanWhile isNameChar position text
  if name.value ≠ [] ∧ endsName name.rest then
    some ⟨String.ofList name.value, name.position, name.rest⟩
  else none

/-- The character can stand in a tag; brackets and commas only in one that is written in full. -/
def isTagChar (full : Bool) (c : Char) : Bool :=
  isNameChar c ||
    [';', '/', '?', ':', '@', '&', '=', '+', '$', '.', '!', '~', '*', '\'', '(', ')'].contains c ||
    (full && [',', '[', ']'].contains c)

/-- The bytes of a part of a tag, where `%` and two digits write a byte. -/
def scanTagBytes (full : Bool) (position : Position) (bytes : List UInt8) :
    List Char → Option (Scanned (List UInt8))
  | '%' :: high :: low :: rest =>
      match hexValue? high, hexValue? low with
      | some h, some l =>
          scanTagBytes full (position.afterAll ['%', high, low])
            (UInt8.ofNat (h * 16 + l) :: bytes) rest
      | _, _ => none
  | [] => some ⟨bytes.reverse, position, []⟩
  | c :: rest =>
      if c = '%' then none
      else if isTagChar full c then
        scanTagBytes full (position.after c) (UInt8.ofNat c.toNat :: bytes) rest
      else some ⟨bytes.reverse, position, c :: rest⟩

def scanTagText (full : Bool) (position : Position) (text : List Char) :
    Option (Scanned String) := do
  let bytes ← scanTagBytes full position [] text
  match Text.Utf8.decode bytes.value with
  | .ok value => some ⟨value, bytes.position, bytes.rest⟩
  | .error _ => none

/-- A tag can end here. -/
def endsTag (inFlow : Bool) (text : List Char) : Bool :=
  isBlankNext text || (inFlow && text.head? == some ',')

/-- Reads the handle of a tag after its exclamation mark, and tells whether another one ends it. -/
def scanHandle (position : Position) (text : List Char) : Scanned (List Char) × Bool :=
  let name := scanWhile isNameChar position text
  match name.rest with
  | '!' :: rest => (⟨name.value, name.position.after '!', rest⟩, true)
  | _ => (name, false)

/-- Reads a tag after its exclamation mark: a handle and a suffix, a suffix alone, the whole tag in
angle brackets, or nothing. -/
def scanTagBody (position : Position) : List Char → Option (Scanned Token)
  | '<' :: rest => do
      let suffix ← scanTagText true (position.after '<') rest
      match suffix.rest with
      | '>' :: rest =>
          if suffix.value.isEmpty then none
          else some ⟨.tag "" suffix.value, suffix.position.after '>', rest⟩
      | _ => none
  | text => do
      let (handle, closed) := scanHandle position text
      if closed then
        let suffix ← scanTagText false handle.position handle.rest
        if suffix.value.isEmpty then none
        else
          let name := "!" ++ String.ofList handle.value ++ "!"
          some ⟨.tag name suffix.value, suffix.position, suffix.rest⟩
      else
        let suffix ← scanTagText false handle.position handle.rest
        let whole := String.ofList handle.value ++ suffix.value
        let token := if whole.isEmpty then .tag "" "!" else .tag "!" whole
        some ⟨token, suffix.position, suffix.rest⟩

/-- Reads a tag after its exclamation mark, up to a space or line end. -/
def scanTag (inFlow : Bool) (position : Position) (text : List Char) : Option (Scanned Token) := do
  let tag ← scanTagBody position text
  if endsTag inFlow tag.rest then some tag else none

/-- Reads a number of a version, of at most nine digits. -/
def scanVersionNumber (position : Position) (text : List Char) : Option (Scanned Nat) :=
  let digits := scanWhile Char.isDigit position text
  if digits.value ≠ [] ∧ digits.value.length ≤ 9 then
    some ⟨Nat.ofDigitChars 10 digits.value 0, digits.position, digits.rest⟩
  else none

/-- Reads the version that a directive names. -/
def scanVersion (position : Position) (text : List Char) : Option (Scanned Token) := do
  let spaces := scanWhile isSpace position text
  let major ← scanVersionNumber spaces.position spaces.rest
  match major.rest with
  | '.' :: rest =>
      let minor ← scanVersionNumber (major.position.after '.') rest
      some ⟨.version major.value minor.value, minor.position, minor.rest⟩
  | _ => none

/-- Reads the handle and the start of the tags that a directive names. -/
def scanTagHandle (position : Position) (text : List Char) : Option (Scanned Token) := do
  let spaces := scanWhile isSpace position text
  match spaces.rest with
  | '!' :: rest =>
      let (name, closed) := scanHandle (spaces.position.after '!') rest
      if !closed && name.value ≠ [] then none
      else
        let handle := "!" ++ String.ofList name.value ++ (if closed then "!" else "")
        let gap := scanWhile isSpace name.position name.rest
        if gap.value = [] then none
        else
          let start ← scanTagText true gap.position gap.rest
          if start.value.isEmpty ∨ !isBlankNext start.rest then none
          else some ⟨.tagHandle handle start.value, start.position, start.rest⟩
  | _ => none

/-- Reads a directive after its percent sign. -/
def scanDirective (position : Position) (text : List Char) : Option (Scanned Token) := do
  let name := scanWhile isNameChar position text
  if !isBlankNext name.rest then none
  else if name.value = "YAML".toList then scanVersion name.position name.rest
  else if name.value = "TAG".toList then scanTagHandle name.position name.rest
  else none

/-!
## From text to tokens

The reader keeps the columns of the blocks it is in. A token that starts a line further to the right
than its block starts a new block, and one further to the left ends blocks. Whether a node is a key
is known only at the colon after it; the place of every node that could be a key is kept until then.
Such a key lies on one line and has at most 1024 characters, and a node that starts a line of a
block of pairs has to be one.
-/

/-- A node that could turn out to be a key. -/
structure KeyPlace where
  /-- The number of tokens before the node. -/
  token : Nat
  position : Position
  /-- The node has to be a key. -/
  required : Bool

/-- Where the reader is, the blocks it is in, and the tokens it has read. -/
structure Scanner where
  position : Position := {}
  rest : List Char
  tokens : Array Token := #[]
  /-- The columns of the blocks, the innermost first. -/
  indents : List Nat := []
  /-- For the block context and every flow collection, the innermost first, the node that could be
  a key. -/
  keys : List (Option KeyPlace) := [none]
  /-- A key may start here. -/
  keyAllowed : Bool := true

namespace Scanner

def inFlow (scanner : Scanner) : Bool := 1 < scanner.keys.length

/-- The least column of what belongs to the innermost block. -/
def childColumn (scanner : Scanner) : Nat :=
  match scanner.indents with
  | [] => 0
  | indent :: _ => indent + 1

def emit (scanner : Scanner) (token : Token) : Scanner :=
  { scanner with tokens := scanner.tokens.push token }

def goOn {α : Type} (scanner : Scanner) (scanned : Scanned α) : Scanner :=
  { scanner with position := scanned.position, rest := scanned.rest }

def skip (scanner : Scanner) (count : Nat) : Scanner :=
  { scanner with
    position := scanner.position.afterAll (scanner.rest.take count)
    rest := scanner.rest.drop count }

/-- The node that could be a key is none. A node that has to be a key is an error. -/
def dropKey (scanner : Scanner) : Option Scanner :=
  match scanner.keys with
  | some place :: others =>
      if place.required then none else some { scanner with keys := none :: others }
  | _ => some scanner

/-- Notes that the node that starts here could be a key. -/
def noteKey (scanner : Scanner) : Option Scanner :=
  if scanner.keyAllowed then do
    let scanner ← scanner.dropKey
    let required := !scanner.inFlow && scanner.indents.head? == some scanner.position.column
    let place : KeyPlace := ⟨scanner.tokens.size, scanner.position, required⟩
    some { scanner with keys := some place :: scanner.keys.tail }
  else some scanner

/-- The node that is a key if a colon comes here. -/
def currentKey (scanner : Scanner) : Option (Option KeyPlace) :=
  match scanner.keys with
  | some place :: _ =>
      if place.position.line < scanner.position.line ∨
          place.position.index + 1024 < scanner.position.index then
        if place.required then none else some none
      else some (some place)
  | _ => some none

/-- Starts a block at a column further to the right; its first token goes to the given place. -/
def openBlock (scanner : Scanner) (column place : Nat) (token : Token) : Scanner :=
  if !scanner.inFlow && scanner.childColumn ≤ column then
    { scanner with
      indents := column :: scanner.indents
      tokens := scanner.tokens.insertIdxIfInBounds place token }
  else scanner

/-- Ends blocks, given the columns of the blocks to go through. -/
def closeThrough (scanner : Scanner) (column : Option Nat) : List Nat → Scanner
  | [] => { scanner with indents := [] }
  | indent :: others =>
      if column.all (· < indent) then
        (scanner.emit .blockEnd).closeThrough column others
      else { scanner with indents := indent :: others }

/-- Ends the blocks further to the right than a column, or all. -/
def closeBlocks (scanner : Scanner) (column : Option Nat) : Scanner :=
  if scanner.inFlow then scanner else scanner.closeThrough column scanner.indents

/-- Moves over spaces, comments and line ends. A tab is no indentation: it is skipped in flow
collections and where no key can start. -/
def skipGap (inFlow : Bool) (position : Position) (keyAllowed inComment : Bool) :
    List Char → Bool × Position × List Char
  | [] => (keyAllowed, position, [])
  | c :: rest =>
      let after := position.after c
      if isBreak c then skipGap inFlow after (keyAllowed || !inFlow) false rest
      else if inComment then skipGap inFlow after keyAllowed true rest
      else if c = ' ' ∨ (c = '\t' ∧ (inFlow || !keyAllowed)) then
        skipGap inFlow after keyAllowed false rest
      else if c = '#' then skipGap inFlow after keyAllowed true rest
      else (keyAllowed, position, c :: rest)

/-- Moves to the next token and ends the blocks that it does not belong to. -/
def toNextToken (scanner : Scanner) : Scanner :=
  let (keyAllowed, position, rest) :=
    skipGap scanner.inFlow scanner.position scanner.keyAllowed false scanner.rest
  { scanner with keyAllowed, position, rest }.closeBlocks (some position.column)

def documentMark (scanner : Scanner) (token : Token) : Option Scanner := do
  let scanner ← (scanner.closeBlocks none).dropKey
  some ({ scanner with keyAllowed := false }.skip 3 |>.emit token)

def directive (scanner : Scanner) : Option Scanner := do
  let scanner ← ((scanner.closeBlocks none).skip 1).dropKey
  let token ← scanDirective scanner.position scanner.rest
  let (position, rest) ← skipLineRest token.position token.rest
  some ({ scanner with keyAllowed := false, position, rest }.emit token.value)

/-- Reads the sign that starts a flow collection. -/
def openFlow (scanner : Scanner) (token : Token) : Option Scanner := do
  let scanner ← scanner.noteKey
  some ({ scanner with keys := none :: scanner.keys, keyAllowed := true }.skip 1 |>.emit token)

/-- Reads the sign that ends a flow collection. -/
def closeFlow (scanner : Scanner) (token : Token) : Option Scanner := do
  let scanner ← scanner.dropKey
  let keys := if scanner.inFlow then scanner.keys.tail else scanner.keys
  some ({ scanner with keys, keyAllowed := false }.skip 1 |>.emit token)

def flowEntry (scanner : Scanner) : Option Scanner := do
  let scanner ← scanner.dropKey
  some ({ scanner with keyAllowed := true }.skip 1 |>.emit .flowEntry)

/-- Reads the dash of a list entry. -/
def blockEntry (scanner : Scanner) : Option Scanner :=
  if !scanner.inFlow && !scanner.keyAllowed then none
  else do
    let scanner :=
      scanner.openBlock scanner.position.column scanner.tokens.size .blockSequenceStart
    let scanner ← scanner.dropKey
    some ({ scanner with keyAllowed := true }.skip 1 |>.emit .blockEntry)

/-- Reads the question mark of a key. -/
def explicitKey (scanner : Scanner) : Option Scanner :=
  if !scanner.inFlow && !scanner.keyAllowed then none
  else do
    let scanner :=
      scanner.openBlock scanner.position.column scanner.tokens.size .blockMappingStart
    let scanner ← scanner.dropKey
    some ({ scanner with keyAllowed := !scanner.inFlow }.skip 1 |>.emit .key)

/-- Reads the colon of a value. The node before it may turn out to be a key. -/
def value (scanner : Scanner) : Option Scanner := do
  match ← scanner.currentKey with
  | some place =>
      let scanner :=
        { scanner with tokens := scanner.tokens.insertIdxIfInBounds place.token .key }
      let scanner := scanner.openBlock place.position.column place.token .blockMappingStart
      let scanner := { scanner with keys := none :: scanner.keys.tail, keyAllowed := false }
      some (scanner.skip 1 |>.emit .value)
  | none =>
      if !scanner.inFlow && !scanner.keyAllowed then none
      else
        let scanner :=
          scanner.openBlock scanner.position.column scanner.tokens.size .blockMappingStart
        let scanner := { scanner with keys := none :: scanner.keys.tail }
        some ({ scanner with keyAllowed := !scanner.inFlow }.skip 1 |>.emit .value)

/-- Reads a name after its sign. -/
def named (scanner : Scanner) (token : String → Token) : Option Scanner := do
  let scanner ← scanner.noteKey
  let scanner := { scanner with keyAllowed := false }.skip 1
  let name ← scanName scanner.position scanner.rest
  some ((scanner.goOn name).emit (token name.value))

def tag (scanner : Scanner) : Option Scanner := do
  let scanner ← scanner.noteKey
  let scanner := { scanner with keyAllowed := false }.skip 1
  let token ← scanTag scanner.inFlow scanner.position scanner.rest
  some ((scanner.goOn token).emit token.value)

def blockScalar (scanner : Scanner) (style : Style) : Option Scanner := do
  let scanner ← scanner.dropKey
  let scanner := scanner.skip 1
  let (header, body) ← scanHeader scanner.rest
  let signs := scanner.rest.take (scanner.rest.length - body.length)
  let (position, rest) ← skipLineRest (scanner.position.afterAll signs) body
  let indent := header.increment.map (scanner.indents.headD 0 + ·)
  let start : BlockState := { folds := style == .folded, indent, least := scanner.childColumn }
  let scanned ← scanBlock position false start rest
  let text := scanned.value.closed header.chomping
  some (({ scanner with keyAllowed := true }.goOn scanned).emit (.scalar style text))

def singleQuoted (scanner : Scanner) : Option Scanner := do
  let scanner ← scanner.noteKey
  let scanner := { scanner with keyAllowed := false }.skip 1
  let scanned ← scanSingleQuoted scanner.position {} scanner.rest
  some ((scanner.goOn scanned).emit (.scalar .singleQuoted scanned.value.closed))

def doubleQuoted (scanner : Scanner) : Option Scanner := do
  let scanner ← scanner.noteKey
  let scanner := { scanner with keyAllowed := false }.skip 1
  let scanned ← scanDoubleQuoted scanner.position .none {} scanner.rest
  some ((scanner.goOn scanned).emit (.scalar .doubleQuoted scanned.value.closed))

/-- Reads a plain scalar. After line ends, a key may start again. -/
def plain (scanner : Scanner) : Option Scanner := do
  let scanner ← scanner.noteKey
  let place : PlainPlace := ⟨scanner.inFlow, scanner.childColumn⟩
  let scanned ← scanPlain place scanner.position {} scanner.rest
  let keyAllowed := scanned.value.breaks.isSome
  some (({ scanner with keyAllowed }.goOn scanned).emit (.scalar .plain scanned.value.trimmed))

/-- A plain scalar can start with the character before `rest`. -/
def startsPlain (inFlow : Bool) (c : Char) (rest : List Char) : Bool :=
  if c == '-' then (match rest.head? with
    | some next => !isSpace next
    | none => true)
  else if c == '?' || c == ':' then !inFlow && !isBlankNext rest
  else
    !(isSpace c || isBreak c ||
      [',', '[', ']', '\x7b', '\x7d', '#', '&', '*', '!', '|', '>', '\'', '"', '%', '@',
        '\x60'].contains c)

def readToken (scanner : Scanner) (c : Char) (rest : List Char) : Option Scanner :=
  let lineStart := scanner.position.column == 0
  if lineStart && c == '%' then scanner.directive
  else if lineStart && isDocumentMark (c :: rest) then
    scanner.documentMark (if c = '-' then .documentStart else .documentEnd)
  else if c = '[' then scanner.openFlow .flowSequenceStart
  else if c = '\x7b' then scanner.openFlow .flowMappingStart
  else if c = ']' then scanner.closeFlow .flowSequenceEnd
  else if c = '\x7d' then scanner.closeFlow .flowMappingEnd
  else if c = ',' then scanner.flowEntry
  else if c = '-' ∧ isBlankNext rest then scanner.blockEntry
  else if c = '?' ∧ (scanner.inFlow ∨ isBlankNext rest) then scanner.explicitKey
  else if c = ':' ∧ (scanner.inFlow ∨ isBlankNext rest) then scanner.value
  else if c = '*' then scanner.named .alias
  else if c = '&' then scanner.named .anchor
  else if c = '!' then scanner.tag
  else if c = '|' ∧ !scanner.inFlow then scanner.blockScalar .literal
  else if c = '>' ∧ !scanner.inFlow then scanner.blockScalar .folded
  else if c = '\'' then scanner.singleQuoted
  else if c = '"' then scanner.doubleQuoted
  else if startsPlain scanner.inFlow c rest then scanner.plain
  else none

/-- Reads to the end. Every token has a character, so there are no more tokens than characters. -/
def readAll : (characters : Nat) → Scanner → Option (List Token)
  | 0, _ => none
  | characters + 1, scanner =>
      let scanner := scanner.toNextToken
      match scanner.rest with
      | [] => (scanner.closeBlocks none).dropKey.map fun scanner => scanner.tokens.toList
      | c :: rest => do readAll characters (← scanner.readToken c rest)

end Scanner

/-- The tokens of a text, if it is one. -/
def Token.ofText? (text : List Char) : Option (List Token) :=
  let text := if text.head? = some byteOrderMark then text.drop 1 else text
  let text := normalLines text
  if text.all isAllowed then Scanner.readAll (text.length + 1) { rest := text } else none

end TilePyramid.Yaml
