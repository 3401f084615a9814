import TilePyramid.Error
import TilePyramid.Files
import TilePyramid.Map
import TilePyramid.Program
import TilePyramid.Tile.Expansion

/-!
# Effects

What the work on tiles asks of the world: content kept in memory under texts, files, what is given
as input, the tiles of a source, the clock and the log.
-/

set_option autoImplicit false

namespace TilePyramid

open Text.Utf8 (Bytes)

/-- How much a log entry matters. -/
inductive LogLevel where
  | info
  | warning
deriving DecidableEq

def LogLevel.text : LogLevel → String
  | .info => "INFO"
  | .warning => "WARN"

inductive LogEntry where
  | skipped (job : Job)
  | seeded (job : Job) (milliseconds : Nat)
  | purged (job : Job)
  | zooms (range : Option ZoomRange)
  | finished (activity : Activity)
  | canceled (activity : Activity)
deriving DecidableEq

/-- Only a cancellation is more than information. -/
def LogEntry.level : LogEntry → LogLevel
  | .canceled _ => .warning
  | _ => .info

/-- The text of a log entry; `duration` writes milliseconds. -/
def LogEntry.text (duration : Nat → String) : LogEntry → String
  | .skipped job => s!"{job.text} is already cached, skipping"
  | .seeded job milliseconds => s!"seeding {job.text} took {duration milliseconds}ms"
  | .purged job => s!"purged {job.text}"
  | .zooms (some range) => s!"zoom list: {range.text}"
  | .zooms none => "zoom list: explicit"
  | .finished activity => s!"cache {activity.text} finished"
  | .canceled activity => s!"cache {activity.text} canceled"

inductive SourceAnswer where
  /-- The answer is there at once. -/
  | now (result : Except Report Bytes)
  /-- The answer comes some time later, unless the run is cancelled first. -/
  | later (result : Except Report Bytes)
  /-- No answer comes. -/
  | never

/-- What a source does when it is asked for a tile: it may cancel the run before it answers. -/
structure SourceReply where
  cancelsRun : Bool := false
  answer : SourceAnswer

inductive Effect where
  | lookup (slot : String)
  | store (slot : String) (content : Bytes)
  | discard (slot : String)
  | readFile (path : Files.Path)
  | makeDirectories (path : Files.Path)
  | writeFile (path : Files.Path) (content : Bytes)
  | moveFile (source target : Files.Path)
  | removeFile (path : Files.Path)
  | readInput
  | fetch (map : Map) (tile : Tile)
  | clock
  | log (entry : LogEntry)

@[reducible] def Effect.Reply : Effect → Type
  | .lookup _ => Option Bytes
  | .store _ _ => Unit
  | .discard _ => Unit
  | .readFile _ => Except Files.Fault Bytes
  | .makeDirectories _ => Except Files.Fault Unit
  | .writeFile _ _ => Except Files.Fault Unit
  | .moveFile _ _ => Except Files.Fault Unit
  | .removeFile _ => Except Files.Fault Unit
  | .readInput => Bytes
  | .fetch _ _ => SourceReply
  | .clock => Nat
  | .log _ => Unit

/-- Work on files takes time. -/
instance : Program.Lasting Effect where
  lasts
    | .readFile _ | .makeDirectories _ | .writeFile _ _ | .moveFile _ _ | .removeFile _ => true
    | _ => false

/-- A program that asks the world. -/
abbrev Action (α : Type) := Program Effect Effect.Reply α

/-- The program that asks the world once. -/
def Action.of (effect : Effect) : Action effect.Reply := .ask effect .done

end TilePyramid
