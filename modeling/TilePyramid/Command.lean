import TilePyramid.Effect
import TilePyramid.Stream.Generators
import TilePyramid.Text.Quoted

/-!
# Commands

A command says what a user asks for: to seed or purge the tiles of a region, of a tile list or of
one tile name, for the maps of a configuration. It holds texts and numbers as they were given.
Reading them gives the scope of the command, or the error of a run that is not valid.
-/

set_option autoImplicit false

namespace TilePyramid

/-- How often a user asked for more and for less to be logged. -/
structure Verbosity where
  more : Nat := 0
  less : Nat := 0
deriving DecidableEq

/-- Entries of a level are shown. Usually all are; each request for less takes one level away. -/
def Verbosity.shows (verbosity : Verbosity) : LogLevel → Bool
  | .info => verbosity.less ≤ verbosity.more
  | .warning => verbosity.less ≤ verbosity.more + 1

/-- The tiles that a command is about, as they were given. -/
inductive Selection where
  | region (bounds : String)
  | list (file : Files.Path) (format : String)
  | tile (name format : String)
deriving DecidableEq

/-- A command to seed or purge tiles. -/
structure Command where
  activity : Activity
  config : Files.Path
  map : Option String := none
  concurrency : Option Nat := none
  overwrite : Bool := false
  logThreshold : Nat := 0
  minZoom : Option Nat := none
  maxZoom : Option Nat := none
  selection : Selection
  verbosity : Verbosity := {}
deriving DecidableEq

namespace Command

/-- The region of a command that names none: all that the projection shows. -/
def usualBounds : String := "-180,-85.0511,180,85.0511"

/-- The name format of a command that names none. -/
def usualFormat : String := "/zxy"

def shown (command : Command) (log : List LogEntry) : List LogEntry :=
  log.filter fun entry => command.verbosity.shows entry.level

end Command

/-!
## Values given by users

Bounds, zoom ranges, name formats and tile names as they are given to a run, with the error of the
run when they are not valid.
-/

namespace Input

def tile (level x y : Nat) : Except Error Tile :=
  (Tile.check ⟨level, x, y⟩).mapError fun fault => .invalidTileName fault.message

/-- Bounds given by their four numbers. -/
def corners (bounds : Bounds) : Except Error Bounds :=
  bounds.check.mapError fun fault => .invalidBounds fault.message

def bounds (text : String) : Except Error Bounds :=
  (Bounds.read text.toList).mapError fun fault => .invalidBounds fault.message

def zooms (low high : Nat) : Except Error ZoomRange :=
  match ZoomRange.ofBounds? low high with
  | some range => .ok range
  | none => .error (.invalidZoomRange low high)

def nameFormat (text : String) : Except Error NameFormat :=
  (NameFormat.read text).mapError fun fault => .invalidNameFormat fault.message

def tileName (format : NameFormat) (name : String) : Except Error Tile :=
  (format.readTile name.toList).mapError fun fault => .invalidTileName fault.message

end Input

/-!
## Scopes of commands

The scope of a command is its selection after all that was given has been read: a region or a named
tile with levels, or a tile list, which is only looked for when the scope is known.
-/

/-- The tiles that a command is about. -/
inductive Scope where
  | region (bounds : Bounds) (zooms : ZoomRange)
  | list (file : Files.Path) (format : NameFormat) (expansion : Expansion)
  | tile (tile : Tile) (expansion : Expansion)

namespace Command

/-- The levels of a region: all of them unless the command says otherwise. -/
def zooms (command : Command) : Except Error ZoomRange :=
  Input.zooms (command.minZoom.getD 0) (command.maxZoom.getD TilePyramid.maxZoom)

/-- How named tiles are expanded: not at all unless the command names a level, and to a single level
if it names the lowest only. -/
def expansion (command : Command) : Except Error Expansion :=
  if command.minZoom = none ∧ command.maxZoom = none then .ok { explicit := true }
  else
    let low := command.minZoom.getD 0
    (Input.zooms low (command.maxZoom.getD low)).map fun range => { zooms := range }

/-- The scope of a command. Of two mistakes the first in the order of reading is reported. -/
def scope (command : Command) : Except Error Scope :=
  match command.selection with
  | .region bounds => do return .region (← Input.bounds bounds) (← command.zooms)
  | .list file format => do
      return .list file (← Input.nameFormat format) (← command.expansion)
  | .tile name format => do
      return .tile (← Input.tileName (← Input.nameFormat format) name) (← command.expansion)

end Command

namespace TileList

/-- The name that stands for the input instead of a file. -/
def inputName : Files.Path := "-"

/-- The tile list in a file or in the input. A directory can be opened, but not read. -/
def ofFile (file : Files.Path) : Action (Except Report TileList) := do
  if file = inputName then return .ok (.ofBytes (← Action.of .readInput))
  match ← Action.of (.readFile file) with
  | .ok text => return .ok (.ofBytes text)
  | .error .isADirectory =>
      return .ok { lines := [], ending := .broken Files.Fault.isADirectory.message }
  | .error fault =>
      return .error
        (.within s!"opening tile list {Text.quoted .text file}" (.message fault.message))

end TileList

namespace Scope

def logEntry : Scope → LogEntry
  | .region _ zooms => .zooms (some zooms)
  | .list _ _ expansion | .tile _ expansion =>
      .zooms (if expansion.isExplicit then none else some expansion.zooms)

def generator (targets : List String) : Scope → Action (Except Report Generator)
  | .region bounds zooms => return .ok (.ofBounds bounds zooms)
  | .list file format expansion => do
      return (← TileList.ofFile file).map fun list => list.generate format expansion targets
  | .tile named expansion =>
      return (Generator.ofTile? named expansion targets).mapError .error

end Scope

end TilePyramid
