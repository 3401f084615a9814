import TilePyramid.Command.Arguments
import TilePyramid.Command.Run
import TilePyramid.Map.Address

/-!
# Command line program

Runs the command of a command line on the files of the system. Tiles in memory are kept as long as
the program runs.
-/

set_option autoImplicit false

namespace TilePyramid.Main

open Text.Utf8 (Bytes)

def faultOf : IO.Error → Files.Fault
  | .noFileOrDirectory _ _ _ => .notFound
  | .alreadyExists _ 17 _ => .exists
  | .inappropriateType _ 20 _ => .notADirectory
  | .inappropriateType _ 21 _ => .isADirectory
  | error => .other (toString error)

/-- An operation on files with its fault as a value. -/
def attempt {α : Type} (operation : IO α) : IO (Except Files.Fault α) :=
  try return .ok (← operation) catch error => return .error (faultOf error)

/-- What of the program's surroundings is not in files: the tiles in memory and how much to log. -/
structure Surroundings where
  store : IO.Ref (Table String Bytes)
  verbosity : Verbosity

def answer (surroundings : Surroundings) : (effect : Effect) → IO effect.Reply
  | .lookup slot => return (← surroundings.store.get).find? slot
  | .store slot content => surroundings.store.modify (·.put slot content)
  | .discard slot => surroundings.store.modify (·.erase slot)
  | .readFile path => attempt do return (← IO.FS.readBinFile path).toList
  | .makeDirectories path => attempt (IO.FS.createDirAll path)
  | .writeFile path content => attempt (IO.FS.writeBinFile path ⟨content.toArray⟩)
  | .moveFile source target => attempt (IO.FS.rename source target)
  | .removeFile path => attempt (IO.FS.removeFile path)
  | .readInput => return (← (← IO.getStdin).readBinToEnd).toList
  | .fetch map tile => return map.fetchOffline tile
  | .clock => IO.monoMsNow
  | .log entry => do
      if surroundings.verbosity.shows entry.level then
        let text := entry.text toString
        IO.eprintln s!"[{entry.level.text}] {text}"

/-- The text of a failure: what happened, and what it was caused by. -/
def failureText : List String → String
  | [] => "Error"
  | [text] => s!"Error: {text}"
  | text :: causes =>
      let lines := causes.map ("\n    " ++ ·)
      s!"Error: {text}\n\nCaused by:{String.join lines}"

def usageText : String :=
  "Usage: tilepyramid cache <seed|purge> --config <FILE> [OPTIONS]" ++
    " [tile-list <FILE> | tile-name <TILE>]"

def run (arguments : List String) : IO UInt32 := do
  match Command.ofArguments arguments with
  | .error usage =>
      if usage = .asked then IO.println usageText else IO.eprintln usageText
      return usage.exitCode.toUInt32
  | .ok command =>
      let store ← IO.mkRef Table.empty
      let ending ← command.run (answer ⟨store, command.verbosity⟩) 1
      if let some failure := ending.failure? then
        IO.eprintln (failureText (failure.chain "the document is no configuration"))
      return ending.exitCode.toUInt32

end TilePyramid.Main

def main (arguments : List String) : IO UInt32 := TilePyramid.Main.run arguments
