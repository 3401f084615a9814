import TilePyramid.Decimal
import TilePyramid.Text

/-!
# Bounds

A region of the world between two meridians and two parallels, in degrees. Its corners are only
checked for their range: a region may name its east before its west.
-/

set_option autoImplicit false

namespace TilePyramid

/-- A region given by two opposite corners. -/
structure Bounds where
  west : Float
  south : Float
  east : Float
  north : Float

namespace Bounds

/-- The region that runs work on unless they name one. -/
def world : Bounds := ⟨-180.0, -85.0511, 180.0, 85.0511⟩

/-- Why numbers or a text are no bounds. -/
inductive Fault where
  | notANumber (field : List Char)
  | fieldCount (count : Nat)
  | longitude (value : Float)
  | latitude (value : Float)

def Fault.message : Fault → String
  | .notANumber field => s!"({String.ofList field}) is not a number"
  | .fieldCount count => s!"expected 4 comma separated values, got {count}"
  | .longitude value => s!"longitude ({Decimal.text value}) must be within [-180, 180]"
  | .latitude value => s!"latitude ({Decimal.text value}) must be within [-90, 90]"

/-- The value compares as at least `-limit` and at most `limit`; what is no number does not. -/
def isWithin (limit value : Float) : Bool := -limit ≤ value && value ≤ limit

def checkLongitude (value : Float) : Except Fault Unit :=
  if isWithin 180.0 value then .ok () else .error (.longitude value)

def checkLatitude (value : Float) : Except Fault Unit :=
  if isWithin 90.0 value then .ok () else .error (.latitude value)

/-- Accepts bounds whose longitudes and latitudes are in range. -/
def check (bounds : Bounds) : Except Fault Bounds := do
  checkLongitude bounds.west
  checkLongitude bounds.east
  checkLatitude bounds.south
  checkLatitude bounds.north
  return bounds

/-- The number that a field writes; blanks around it are ignored. -/
def readField (field : List Char) : Except Fault Float :=
  match Decimal.read? (Text.trim field) with
  | some value => .ok value
  | none => .error (.notANumber (Text.trim field))

def ofNumbers : List Float → Except Fault Bounds
  | [west, south, east, north] => check ⟨west, south, east, north⟩
  | numbers => .error (.fieldCount numbers.length)

/-- Reads west, south, east and north with commas between them. -/
def read (text : List Char) : Except Fault Bounds := do
  let numbers ← (Text.fields ',' text).mapM readField
  ofNumbers numbers

/-- The four numbers with commas between them. -/
def text (bounds : Bounds) : String :=
  String.intercalate ","
    ([bounds.west, bounds.south, bounds.east, bounds.north].map Decimal.text)

def centerLongitude (bounds : Bounds) : Float := (bounds.west + bounds.east) / 2.0

def centerLatitude (bounds : Bounds) : Float := (bounds.south + bounds.north) / 2.0

end Bounds

end TilePyramid
