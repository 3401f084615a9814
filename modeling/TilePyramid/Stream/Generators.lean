import TilePyramid.Geo.Mercator
import TilePyramid.Stream
import TilePyramid.Text.Utf8
import TilePyramid.Tile.Expansion
import TilePyramid.Tile.Name

/-!
# Generators

Generators offer the tiles of a region, of a named tile or of a tile list, or follow a script. They
are put together from parts that offer the tiles of blocks, as bare tiles or as jobs for given maps.
Each part ends at the first refusal and tells whether everything was taken. Tiles are computed when
they are offered.
-/

set_option autoImplicit false

namespace TilePyramid

namespace Generator

def send (item : Item) : Generation Bool := .ask (.send item) .done

def fail (error : Error) : Generation Unit := .ask (.fail error) .done

/-- Waits until the stream has to stop. -/
def untilStopped : Generation Unit := .ask .untilStopped .done

def mayGoOn : Generation Bool := .ask .mayGoOn .done

/-- Goes through members until one of them is not taken. -/
def whileTaken {α : Type} (part : α → Generation Bool) : List α → Generation Bool
  | [] => pure true
  | member :: others => do if ← part member then whileTaken part others else return false

/-- Goes through `count` positions from `start` until one of them is not taken. -/
def whileTakenFrom (part : Nat → Generation Bool) : (start count : Nat) → Generation Bool
  | _, 0 => pure true
  | start, count + 1 => do
      if ← part start then whileTakenFrom part (start + 1) count else return false

def sendBlock (block : Block) : Generation Bool :=
  whileTakenFrom (fun position => send (.tile (block.tileAt position))) 0 block.size

/-- Offers a tile as a job for each map. -/
def sendFor (targets : List String) (tile : Tile) : Generation Bool :=
  whileTaken (fun map => send (.job ⟨map, tile⟩)) targets

/-- Offers each tile of a block as a job for each map. -/
def sendBlockFor (targets : List String) (block : Block) : Generation Bool :=
  if targets.isEmpty then pure true
  else whileTakenFrom (fun position => sendFor targets (block.tileAt position)) 0 block.size

/-- Offers the tiles that a named tile stands for as jobs for each map. -/
def sendExpansion (expansion : Expansion) (targets : List String) (tile : Tile) : Generation Bool :=
  whileTaken (sendBlockFor targets) (expansion.blocks tile)

/-- Offers the tiles that cover a region, level by level. -/
def ofBounds (bounds : Bounds) (zooms : ZoomRange) : Generator := do
  let _ ← whileTaken (fun level => sendBlock (Mercator.cover bounds level)) zooms.levels

/-- Offers the tiles that a named tile stands for: all jobs of a map before those of the next. -/
def ofTile (tile : Tile) (expansion : Expansion) (targets : List String) : Generator := do
  let _ ← whileTaken (fun map => sendExpansion expansion [map] tile) targets

/-- The generator of a named tile, which needs a map. -/
def ofTile? (tile : Tile) (expansion : Expansion) (targets : List String) :
    Except Error Generator :=
  if targets = [] then .error .noMaps else .ok (ofTile tile expansion targets)

end Generator

/-!
## Tile lists

A tile list names one tile a line. Blank lines are counted and otherwise ignored. The first line
that is no text or names no tile ends the stream with an error that tells its number.
-/

open Text.Utf8 (Bytes)

/-- What is found where the lines that were delivered end. -/
inductive ListEnd where
  /-- Nothing follows. -/
  | finished
  /-- The reader waits for more. -/
  | waiting
  /-- Reading fails. -/
  | broken (reason : String)
deriving DecidableEq

/-- The lines that a reader delivers, and what comes after them. -/
structure TileList where
  lines : List Bytes
  ending : ListEnd := .finished

namespace TileList

def ofBytes (text : Bytes) : TileList := { lines := Text.lines text }

/-- The list that a reader delivers which has got a text and stays open: an unfinished last line is
not delivered. -/
def ofOpenReader (text : Bytes) : TileList :=
  { lines := (Text.lines text).filter Text.isComplete, ending := .waiting }

inductive Line where
  | blank
  | tile (tile : Tile)
  | bad (reason : String)

def readLine (format : NameFormat) (line : Bytes) : Line :=
  match Text.Utf8.decodeFrom 0 .between line with
  | .error fault => .bad fault.message
  | .ok text =>
      if Text.trim text = [] then .blank
      else
        match format.readTile text with
        | .ok tile => .tile tile
        | .error fault => .bad (Error.invalidTileName fault.message).message

/-- Offers the tiles of lines; `number` lines were read before them. -/
def generateFrom (format : NameFormat) (expansion : Expansion) (targets : List String)
    (ending : ListEnd) : (number : Nat) → List Bytes → Generator
  | number, [] => do
      if ← Generator.mayGoOn then
        match ending with
        | .finished => return ()
        | .waiting => Generator.untilStopped
        | .broken reason => Generator.fail (.badListLine (number + 1) reason)
  | number, line :: rest => do
      if ← Generator.mayGoOn then
        match readLine format line with
        | .blank => generateFrom format expansion targets ending (number + 1) rest
        | .bad reason => Generator.fail (.badListLine (number + 1) reason)
        | .tile tile =>
            if ← Generator.sendExpansion expansion targets tile then
              generateFrom format expansion targets ending (number + 1) rest

/-- Offers the tiles of a list, line by line, each tile for every map. -/
def generate (list : TileList) (format : NameFormat) (expansion : Expansion)
    (targets : List String) : Generator :=
  generateFrom format expansion targets list.ending 0 list.lines

end TileList

/-!
## Scripted generators

A script is a generator given by its steps. It goes through all of them, whatever it is told.
-/

namespace Generator

inductive ScriptStep where
  | send (job : Job)
  | sendFor (targets : List String) (tile : Tile)
  | fail (error : Error)
  | untilStopped
deriving DecidableEq

inductive ScriptReply where
  | taken (all : Bool)
  | stopped
deriving DecidableEq

namespace ScriptStep

def perform : ScriptStep → Generation Unit
  | .send job => do let _ ← Generator.send (.job job)
  | .sendFor targets tile => do let _ ← Generator.sendFor targets tile
  | .fail error => Generator.fail error
  | .untilStopped => Generator.untilStopped

def performAll : List ScriptStep → Generator
  | [] => pure ()
  | step :: rest => do
      step.perform
      performAll rest

/-- What a step for `missing` more maps was told, and the exchanges after it, if it is finished. -/
def replyFor : (missing : Nat) → List Exchange → Option (Bool × List Exchange)
  | 0, exchanges => some (true, exchanges)
  | missing + 1, ⟨.send _, taken⟩ :: exchanges =>
      if taken then replyFor missing exchanges else some (false, exchanges)
  | _ + 1, _ => none

/-- What the finished steps of a script were told in the given exchanges. -/
def replies : List ScriptStep → List Exchange → List ScriptReply
  | .send _ :: rest, ⟨.send _, taken⟩ :: exchanges => .taken taken :: replies rest exchanges
  | .sendFor targets _ :: rest, exchanges =>
      match replyFor targets.length exchanges with
      | some (all, exchanges) => .taken all :: replies rest exchanges
      | none => []
  | .fail _ :: rest, ⟨.fail _, _⟩ :: exchanges => replies rest exchanges
  | .untilStopped :: rest, ⟨.untilStopped, _⟩ :: exchanges => .stopped :: replies rest exchanges
  | _, _ => []

end ScriptStep

end Generator

end TilePyramid
