import TilePyramid.Cache
import TilePyramid.Effect
import TilePyramid.Operation

/-!
# Worlds in memory

A world holds what effects read and change, and keeps account of what was fetched and logged. Its
input can be read once, and its clock stands still. The collaborators of a run in it can be made to
follow rules.
-/

set_option autoImplicit false

namespace TilePyramid

open Text.Utf8 (Bytes)

/-- Content in memory, files, the input that is left, and the tiles fetched and entries logged so
far, the latest first. -/
structure World where
  store : Table String Bytes := .empty
  files : Files.Tree := .empty
  input : Bytes := []
  fetches : List Job := []
  log : List LogEntry := []

namespace World

/-- The world after an operation that changes files. -/
def changeFiles (world : World) (change : Except Files.Fault Files.Tree) :
    Except Files.Fault Unit × World :=
  match change with
  | .ok files => (.ok (), { world with files })
  | .error fault => (.error fault, world)

/-- Performs an effect; `source` answers for the tiles of maps. -/
def perform (source : Map → Tile → SourceReply) (world : World) :
    (effect : Effect) → effect.Reply × World
  | .lookup slot => (world.store.find? slot, world)
  | .store slot content => ((), { world with store := world.store.put slot content })
  | .discard slot => ((), { world with store := world.store.erase slot })
  | .readFile path => (world.files.read path, world)
  | .makeDirectories path =>
      let (fault, files) := world.files.makeDirectories path
      (match fault with
        | some fault => .error fault
        | none => .ok (), { world with files })
  | .writeFile path content => world.changeFiles (world.files.write path content)
  | .moveFile origin target => world.changeFiles (world.files.move origin target)
  | .removeFile path => world.changeFiles (world.files.remove path)
  | .readInput => (world.input, { world with input := [] })
  | .fetch map tile =>
      (source map tile, { world with fetches := ⟨map.name, tile⟩ :: world.fetches })
  | .clock => (0, world)
  | .log entry => ((), { world with log := entry :: world.log })

/-- Performs an effect as a step of a computation on worlds. -/
def answer (source : Map → Tile → SourceReply) (effect : Effect) : StateM World effect.Reply :=
  fun world => world.perform source effect

/-- The stored content with its texts, in their order. -/
def stored (world : World) : List (String × Bytes) :=
  world.store.entries.mergeSort fun left right => decide (left.1 ≤ right.1)

end World

/-!
## Collaborators that follow rules

Sources, caches and operations that do what the first matching rule says, for trying out runs.
-/

/-- The jobs that a rule is about: those of a map, those with a tile text, or all. -/
structure JobPattern where
  map : Option String := none
  tile : Option String := none
deriving DecidableEq

def JobPattern.matches (pattern : JobPattern) (job : Job) : Bool :=
  pattern.map.all (· == job.map) && pattern.tile.all (· == job.tile.text)

/-- What a source does instead of answering as usual. -/
inductive SourceAction where
  | fail (report : Report)
  | answer (content : Bytes)
  /-- Cancel the run and answer as usual. -/
  | cancel
  /-- Cancel the run and never answer. -/
  | cancelAndHang

structure SourceRule where
  pattern : JobPattern
  action : SourceAction

/-- The usual content of a tile: its map, its text and the names of the map's layers. -/
def usualContent (map : Map) (tile : Tile) : Bytes :=
  let layers := String.intercalate "," map.layerNames
  Text.Utf8.encode s!"{map.name}:{tile.text}:{layers}"

def ruledSource (rules : List SourceRule) (map : Map) (tile : Tile) : SourceReply :=
  let usual : SourceAnswer := .now (.ok (usualContent map tile))
  match rules.find? (·.pattern.matches ⟨map.name, tile⟩) with
  | none => { answer := usual }
  | some rule =>
      match rule.action with
      | .fail report => { answer := .now (.error report) }
      | .answer content => { answer := .now (.ok content) }
      | .cancel => { cancelsRun := true, answer := usual }
      | .cancelAndHang => { cancelsRun := true, answer := .never }

inductive CacheVerb where
  | get
  | set
  | purge
deriving DecidableEq

/-- A rule that makes a program of a cache fail, for all keys or for the one with a text. -/
structure CacheRule where
  verb : CacheVerb
  key : Option String := none
  report : Report

namespace Cache

/-- The report of the first rule about a program and a key. -/
def ruledFailure? (rules : List CacheRule) (verb : CacheVerb) (key : Key) : Option Report :=
  (rules.find? fun rule => rule.verb == verb && rule.key.all (· == key.text)).map CacheRule.report

/-- A program that fails if a rule says so. -/
def obeying {α : Type} (failure : Option Report) (program : Action (Except Report α)) :
    Action (Except Report α) :=
  match failure with
  | some report => pure (.error report)
  | none => program

/-- The cache that fails where rules say so. -/
def ruled (rules : List CacheRule) (cache : Cache) : Cache where
  get key := obeying (ruledFailure? rules .get key) (cache.get key)
  set key content := obeying (ruledFailure? rules .set key) (cache.set key content)
  purge key := obeying (ruledFailure? rules .purge key) (cache.purge key)

end Cache

/-- A rule of an operation: it may cancel the run, and fails if it has an error. -/
structure OperationRule where
  pattern : JobPattern
  cancels : Bool := false
  error : Option Error := none

def Operation.ruled (rules : List OperationRule) : Operation := fun job => do
  match rules.find? (·.pattern.matches job) with
  | none => return .ok ()
  | some rule =>
    if rule.cancels then Task.cancel
    match rule.error with
    | some error => return .error error
    | none => return .ok ()

end TilePyramid
