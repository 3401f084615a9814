/-!
# Decoding UTF-8

`decode` reads bytes as UTF-8 and reports the first fault: where it starts, and how many bytes are
wrong, or that the bytes end within a character. `lines` cuts bytes into lines before they are read.
-/

set_option autoImplicit false

namespace TilePyramid.Text.Utf8

/-- Contents of files, inputs and cached tiles. -/
abbrev Bytes := List UInt8

/-- Bytes that are no UTF-8: the index of the first bad byte, and the number of bytes that belong
to the broken character unless the bytes end within it. -/
structure Fault where
  start : Nat
  width : Option Nat
deriving DecidableEq

def Fault.message : Fault → String
  | ⟨start, some width⟩ => s!"invalid utf-8 sequence of {width} bytes from index {start}"
  | ⟨start, none⟩ => s!"incomplete utf-8 byte sequence from index {start}"

/-- The first byte of a character: the bits it contributes, and the range of the next byte and the
number of bytes that follow. -/
inductive Lead where
  | single (point : Nat)
  | several (bits : Nat) (low high : Nat) (following : Nat)
  | wrong

/-- Reads the first byte of a character. The second byte is restricted where a shorter form, a
surrogate or a number above the last code point would follow. -/
def Lead.ofByte (byte : UInt8) : Lead :=
  let b := byte.toNat
  if b < 0x80 then .single b
  else if b < 0xC2 then .wrong
  else if b < 0xE0 then .several (b - 0xC0) 0x80 0xBF 1
  else if b < 0xF0 then
    .several (b - 0xE0) (if b = 0xE0 then 0xA0 else 0x80) (if b = 0xED then 0x9F else 0xBF) 2
  else if b < 0xF5 then
    .several (b - 0xF0) (if b = 0xF0 then 0x90 else 0x80) (if b = 0xF4 then 0x8F else 0xBF) 3
  else .wrong

/-- What a decoder has read of the character it is in. -/
inductive Progress where
  | between
  | within (start bits read low high missing : Nat)

/-- Decodes bytes; `index` is the number of bytes before them. -/
def decodeFrom : (index : Nat) → Progress → Bytes → Except Fault (List Char)
  | _, .between, [] => .ok []
  | _, .within start _ _ _ _ _, [] => .error ⟨start, none⟩
  | index, .between, byte :: rest =>
      match Lead.ofByte byte with
      | .single point => (decodeFrom (index + 1) .between rest).map (Char.ofNat point :: ·)
      | .several bits low high following =>
          decodeFrom (index + 1) (.within index bits 1 low high following) rest
      | .wrong => .error ⟨index, some 1⟩
  | index, .within start bits read low high missing, byte :: rest =>
      let b := byte.toNat
      if low ≤ b ∧ b ≤ high then
        let bits := bits * 64 + (b - 0x80)
        if missing ≤ 1 then
          (decodeFrom (index + 1) .between rest).map (Char.ofNat bits :: ·)
        else decodeFrom (index + 1) (.within start bits (read + 1) 0x80 0xBF (missing - 1)) rest
      else .error ⟨start, some read⟩

def decode (bytes : Bytes) : Except Fault String :=
  (decodeFrom 0 .between bytes).map String.ofList

/-- The UTF-8 form of a text. -/
def encode (text : String) : Bytes := text.toUTF8.toList

end TilePyramid.Text.Utf8

/-!
## Lines of a text

A line reaches to the next line feed, which belongs to it; what follows the last line feed is a line
unless it is empty.
-/

namespace TilePyramid.Text

open Utf8 (Bytes)

def lineFeed : UInt8 := 10

/-- The lines of a text, given the beginning of the line that the text continues, latest first. -/
def linesFrom (begun : Bytes) : Bytes → List Bytes
  | [] => if begun = [] then [] else [begun.reverse]
  | byte :: rest =>
      if byte = lineFeed then (byte :: begun).reverse :: linesFrom [] rest
      else linesFrom (byte :: begun) rest

/-- The lines of a text with their line feeds. -/
def lines (text : Bytes) : List Bytes := linesFrom [] text

/-- The line has been read up to its line feed. -/
def isComplete (line : Bytes) : Bool := line.getLast? == some lineFeed

theorem flatten_linesFrom (begun text : Bytes) :
    (linesFrom begun text).flatten = begun.reverse ++ text := by
  induction text generalizing begun with
  | nil =>
      by_cases nothing : begun = []
      · simp [linesFrom, nothing]
      · simp [linesFrom, nothing]
  | cons byte rest ih =>
      by_cases ends : byte = lineFeed
      · simp [linesFrom, ends, ih]
      · simp [linesFrom, ends, ih]

/-- The lines of a text make up the text. -/
theorem flatten_lines (text : Bytes) : (lines text).flatten = text := by
  simpa [lines] using flatten_linesFrom [] text

end TilePyramid.Text
