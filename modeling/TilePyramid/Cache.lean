import TilePyramid.Effect
import TilePyramid.Map
import TilePyramid.Text.Quoted

/-!
# Caches

A cache tells what is stored for a key, stores content for a key, and forgets a key. It is given by
the programs that do so, and keeps the content in memory or in a directory.

A key addresses one cached tile of a map, either of the whole map or of one of its layers. Its text
is the path `map/layer/z/x/y`, without the layer for the whole map.
-/

set_option autoImplicit false

namespace TilePyramid

open Text.Utf8 (Bytes)

namespace Cache

/-- The address of a cached tile. -/
structure Key where
  map : String
  layer : Option String := none
  tile : Tile
deriving DecidableEq

namespace Key

/-- The key of the tile that a job works on. -/
def ofJob (job : Job) : Key := { map := job.map, tile := job.tile }

/-- The key for a layer; an empty name stands for the whole map. -/
def withLayer (key : Key) (layer : String) : Key :=
  { key with layer := if layer = "" then none else some layer }

def parts (key : Key) : List String :=
  key.map :: key.layer.toList ++ [toString key.tile.level, toString key.tile.x, toString key.tile.y]

def text (key : Key) : String := String.intercalate "/" key.parts

end Key

end Cache

/-- The programs of a cache. A failure to tell what is stored is not the same as nothing stored. -/
structure Cache where
  get : Cache.Key → Action (Except Report (Option Bytes))
  set : Cache.Key → Bytes → Action (Except Report Unit)
  purge : Cache.Key → Action (Except Report Unit)

namespace Cache

/-- A cache limited to a depth keeps the levels down to that depth. -/
def keeps (maxZoom : Option Nat) (level : Nat) : Bool := maxZoom.all (level ≤ ·)

/-!
## Caches in memory

Content is kept under the text of its key and lost with the process.
-/

/-- The cache in memory with an optional depth limit; deeper tiles are not stored. -/
def memory (maxZoom : Option Nat) : Cache where
  get key := do
    let content ← Action.of (.lookup key.text)
    return .ok content
  set key content := do
    if keeps maxZoom key.tile.level then Action.of (.store key.text content)
    return .ok ()
  purge key := do
    Action.of (.discard key.text)
    return .ok ()

/-- Whether a store has content for a key, of any level. -/
def isStored (store : Table String Bytes) (key : Key) : Bool :=
  (store.find? key.text).isSome

/-!
## Caches in a directory

Every tile is a file at the path of its key. Content is written to a sibling first and moved into
place, so that a reader finds the whole content or none.
-/

open Files (Path)

def entryPath (root : Path) (key : Key) : Path := key.parts.foldl Path.join root

def entryDirectory (path : Path) : Path := (Path.parent? path).getD ""

/-- The sibling of an entry that content is written to before it is moved into place. -/
def temporaryPath (path : Path) : Path := path ++ "-tmp"

/-- A report of a failed operation on files, with what was attempted. -/
def fileReport (attempt : String) (path : Path) (fault : Files.Fault) : Report :=
  .within s!"{attempt} {Text.quoted .path path}" (.message fault.message)

/-- The cache below a root with an optional depth limit; deeper tiles are not stored. -/
def directory (root : Path) (maxZoom : Option Nat) : Cache where
  get key := do
    let path := entryPath root key
    match ← Action.of (.readFile path) with
    | .ok content => return .ok (some content)
    | .error .notFound => return .ok none
    | .error fault => return .error (fileReport "reading cached tile" path fault)
  set key content := do
    if !keeps maxZoom key.tile.level then return .ok ()
    let path := entryPath root key
    let parent := entryDirectory path
    let temporary := temporaryPath path
    match ← Action.of (.makeDirectories parent) with
    | .error fault => return .error (fileReport "creating cache directory" parent fault)
    | .ok () =>
      match ← Action.of (.writeFile temporary content) with
      | .error fault => return .error (fileReport "writing cached tile" temporary fault)
      | .ok () =>
        match ← Action.of (.moveFile temporary path) with
        | .error fault => return .error (fileReport "moving cached tile into place at" path fault)
        | .ok () => return .ok ()
  purge key := do
    let path := entryPath root key
    match ← Action.of (.removeFile path) with
    | .ok () | .error .notFound => return .ok ()
    | .error fault => return .error (fileReport "removing cached tile" path fault)

end Cache

end TilePyramid
