import TilePyramid.Geo.Bounds
import TilePyramid.Tile

/-!
# The Mercator square

The projection that makes the world a square between the latitudes of about 85 degrees. The column
of a point depends on its longitude alone and its row on its latitude alone; both are on the grid
for every input, also for what is no number.
-/

set_option autoImplicit false

namespace TilePyramid.Mercator

/-- Half the circumference of the unit circle. -/
def pi : Float := 3.141592653589793

/-- The latitude where the square ends. -/
def latitudeLimit : Float := 85.05112877980659

def scale (level : Nat) : Float := Float.scaleB 1.0 level

/-- The grid index of a position. Positions beyond the last index, and what is no number, fall on
the last index, and negative positions on the first. -/
def index (level : Nat) (position : Float) : Nat :=
  if position ≤ 0.0 then 0
  else if position < scale level - 1.0 then min position.toUInt64.toNat (lastIndex level)
  else lastIndex level

def column (level : Nat) (longitude : Float) : Nat :=
  index level (scale level * (longitude / 360.0 + 0.5))

/-- A latitude moved into the square; what is no number stays so. -/
def clampLatitude (latitude : Float) : Float :=
  if latitude < -latitudeLimit then -latitudeLimit
  else if latitudeLimit < latitude then latitudeLimit
  else latitude

def row (level : Nat) (latitude : Float) : Nat :=
  let angle := clampLatitude latitude * pi / 360.0 + pi / 4.0
  index level (scale level * (0.5 - 0.5 * Float.log (Float.tan angle) / pi))

def tileAt (longitude latitude : Float) (level : Nat) : Tile :=
  ⟨level, column level longitude, row level latitude⟩

def longitude (level x : Nat) : Float := (Float.ofNat x / scale level - 0.5) * 360.0

def latitude (level y : Nat) : Float :=
  (Float.atan (Float.exp (pi * (1.0 - 2.0 * Float.ofNat y / scale level))) / pi - 0.25) * 360.0

def boundsOf (tile : Tile) : Bounds where
  west := longitude tile.level tile.x
  south := latitude tile.level (tile.y + 1)
  east := longitude tile.level (tile.x + 1)
  north := latitude tile.level tile.y

/-- The tiles of a level that cover a region, whatever the order of its corners. -/
def cover (bounds : Bounds) (level : Nat) : Block where
  level := level
  left := min (column level bounds.west) (column level bounds.east)
  top := min (row level bounds.south) (row level bounds.north)
  right := max (column level bounds.west) (column level bounds.east)
  bottom := max (row level bounds.south) (row level bounds.north)

/-- The tile of a level of the pyramid that holds a point. -/
def tileAt? (longitude latitude : Float) (level : Nat) : Except Tile.Fault Tile := do
  Tile.checkLevel level
  return tileAt longitude latitude level

/-- The tiles of a level of the pyramid that cover a region. -/
def cover? (bounds : Bounds) (level : Nat) : Except Tile.Fault Block := do
  Tile.checkLevel level
  return cover bounds level

/-- Degrees in units of a billionth, rounded with halves away from zero. -/
def billionths (degrees : Float) : Int := (degrees * 1e9).round.toInt64.toInt

theorem index_le (level : Nat) (position : Float) : index level position ≤ lastIndex level := by
  unfold index
  split
  · exact Nat.zero_le _
  · split
    · exact Nat.min_le_right _ _
    · exact Nat.le_refl _

end TilePyramid.Mercator
