import TilePyramid.Text
import TilePyramid.Tile

/-!
# Tile names

Tiles are named by their level, column and row with a separator between them, such as `14/300/781`.
A name format is written as the separator followed by the letters `z`, `x` and `y` in the order of
the fields; `/zxy` is the usual one.
-/

set_option autoImplicit false

namespace TilePyramid

/-- The three numbers of a tile name. -/
inductive Axis where
  | z
  | x
  | y
deriving DecidableEq

def Axis.letter : Axis → Char
  | .z => 'z'
  | .x => 'x'
  | .y => 'y'

/-- A value for each of the three numbers. -/
structure Axes (α : Type) where
  z : α
  x : α
  y : α

/-- The orders that the three numbers can be written in. -/
inductive Layout where
  | zxy
  | zyx
  | xzy
  | xyz
  | yzx
  | yxz
deriving DecidableEq

namespace Layout

def write {α : Type} (values : Axes α) : Layout → List α
  | .zxy => [values.z, values.x, values.y]
  | .zyx => [values.z, values.y, values.x]
  | .xzy => [values.x, values.z, values.y]
  | .xyz => [values.x, values.y, values.z]
  | .yzx => [values.y, values.z, values.x]
  | .yxz => [values.y, values.x, values.z]

/-- The values of three fields in written order. -/
def assign {α : Type} (first second third : α) : Layout → Axes α
  | .zxy => ⟨first, second, third⟩
  | .zyx => ⟨first, third, second⟩
  | .xzy => ⟨second, first, third⟩
  | .xyz => ⟨third, first, second⟩
  | .yzx => ⟨second, third, first⟩
  | .yxz => ⟨third, second, first⟩

def letters (layout : Layout) : List Char := layout.write ⟨'z', 'x', 'y'⟩

def ofLetters? : List Char → Option Layout
  | ['z', 'x', 'y'] => some .zxy
  | ['z', 'y', 'x'] => some .zyx
  | ['x', 'z', 'y'] => some .xzy
  | ['x', 'y', 'z'] => some .xyz
  | ['y', 'z', 'x'] => some .yzx
  | ['y', 'x', 'z'] => some .yxz
  | _ => none

theorem eq_letters_of_ofLetters? {letters : List Char} {layout : Layout}
    (read : ofLetters? letters = some layout) : letters = layout.letters := by
  unfold ofLetters? at read
  split at read <;> first | (cases read; rfl) | cases read

end Layout

/-- Characters that separate no fields: digits and the letters of the numbers. -/
def isReserved (c : Char) : Bool := c.isDigit || c == 'z' || c == 'x' || c == 'y'

/-- The way tiles are named. -/
structure NameFormat where
  separator : Char
  layout : Layout
  separates : isReserved separator = false

namespace NameFormat

/-- The slash-separated names that tile servers use. -/
def slashes : NameFormat := ⟨'/', .zxy, rfl⟩

/-- Why a text is no name format. -/
inductive Reason where
  | length
  | separator
  | axes
deriving DecidableEq

/-- A text that is no name format. -/
structure Fault where
  format : String
  reason : Reason
deriving DecidableEq

def Reason.message : Reason → String
  | .length => "expected a separator followed by z, x and y"
  | .separator => "separator must not be a digit, z, x or y"
  | .axes => "z, x and y must each appear exactly once"

def Fault.message (fault : Fault) : String := s!"{fault.format}: {fault.reason.message}"

def ofChars : List Char → Except Reason NameFormat
  | [separator, first, second, third] =>
      if free : isReserved separator = false then
        match Layout.ofLetters? [first, second, third] with
        | some layout => .ok ⟨separator, layout, free⟩
        | none => .error .axes
      else .error .separator
  | _ => .error .length

def read (format : String) : Except Fault NameFormat :=
  (ofChars format.toList).mapError fun reason => ⟨format, reason⟩

def chars (format : NameFormat) : List Char := format.separator :: format.layout.letters

def text (format : NameFormat) : String := String.ofList format.chars

def nameOf (format : NameFormat) (tile : Tile) : List Char :=
  Text.joined format.separator (format.layout.write
    ⟨Nat.toDigits 10 tile.level, Nat.toDigits 10 tile.x, Nat.toDigits 10 tile.y⟩)

/-- Why a text names no tile. -/
inductive NameReason where
  | fieldCount (separator : Char) (count : Nat)
  | notANumber (axis : Axis) (field : List Char)
  | tooDeep (level : Nat)
  | offGrid (axis : Axis) (index last level : Nat)
deriving DecidableEq

/-- A text, without the blanks around it, that names no tile. -/
structure NameFault where
  name : List Char
  reason : NameReason
deriving DecidableEq

def NameReason.message : NameReason → String
  | .fieldCount separator count =>
      s!"expected 3 fields separated by '{separator}', found {count}"
  | .notANumber axis field => s!"{axis.letter} ({String.ofList field}) is not a valid number"
  | .tooDeep level => s!"z ({level}) must be <= {maxZoom}"
  | .offGrid axis index last level =>
      s!"{axis.letter} ({index}) must be <= {last} at zoom {level}"

def NameFault.message (fault : NameFault) : String :=
  s!"{String.ofList fault.name}: {fault.reason.message}"

def readAxis (axis : Axis) (field : List Char) : Except NameReason Nat :=
  match Text.readNatural Text.wordLimit field with
  | some value => .ok value
  | none => .error (.notANumber axis field)

/-- The tile with the given numbers, if tile names may name it. -/
def tileOf (numbers : Axes Nat) : Except NameReason Tile :=
  let last := lastIndex numbers.z
  if maxZoom < numbers.z then .error (.tooDeep numbers.z)
  else if last < numbers.x then .error (.offGrid .x numbers.x last numbers.z)
  else if last < numbers.y then .error (.offGrid .y numbers.y last numbers.z)
  else .ok ⟨numbers.z, numbers.x, numbers.y⟩

/-- The tile that the fields of a name write. Numbers are read in the order z, x, y. -/
def readFields (format : NameFormat) : List (List Char) → Except NameReason Tile
  | [first, second, third] => do
      let fields := format.layout.assign first second third
      let z ← readAxis .z fields.z
      let x ← readAxis .x fields.x
      let y ← readAxis .y fields.y
      tileOf ⟨z, x, y⟩
  | fields => .error (.fieldCount format.separator fields.length)

/-- The tile that a text names. Blanks around the name are ignored. -/
def readTile (format : NameFormat) (name : List Char) : Except NameFault Tile :=
  let name := Text.trim name
  (format.readFields (Text.fields format.separator name)).mapError fun reason => ⟨name, reason⟩

@[simp] theorem ofChars_chars (format : NameFormat) : ofChars format.chars = .ok format := by
  obtain ⟨separator, layout, separates⟩ := format
  cases layout <;> simp [ofChars, chars, Layout.letters, Layout.write, Layout.ofLetters?, separates]

theorem eq_chars_of_ofChars {letters : List Char} {format : NameFormat}
    (read : ofChars letters = .ok format) : letters = format.chars := by
  unfold ofChars at read
  split at read
  · split at read
    · split at read
      · next found =>
        cases read
        simp [chars, ← Layout.eq_letters_of_ofLetters? found]
      · cases read
    · cases read
  · cases read

end NameFormat

end TilePyramid
