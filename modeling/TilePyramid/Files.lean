import TilePyramid.Table
import TilePyramid.Text
import TilePyramid.Text.Utf8

/-!
# Paths and files

A tree of directories and files with a working directory, the paths that lead through it, and the
operations that programs perform on it.
-/

set_option autoImplicit false

/-!
## Paths

Paths are texts. Joining an absolute path replaces what is before it, and joining the empty path
only ends the path with a slash.
-/

namespace TilePyramid.Files

/-- A path as it is written. -/
abbrev Path := String

namespace Path

/-- The path starts at the root of the file system. -/
def isAbsolute (path : Path) : Bool := path.toList.head? == some '/'

def join (base part : Path) : Path :=
  if isAbsolute part then part
  else if base.toList = [] ∨ base.toList.getLast? = some '/' then base ++ part
  else base ++ "/" ++ part

/-- The names between the slashes of a path. -/
def names (path : Path) : List String := (Text.fields '/' path.toList).map String.ofList

/-- The name says where the path already is. -/
def isIdle (name : String) : Bool := name == "" || name == "."

/-- The part of a path that says where it starts, and the rest. -/
def splitStart (path : Path) : String × List String :=
  match path.toList with
  | '/' :: rest => ("/", names (String.ofList rest))
  | '.' :: '/' :: rest => (".", "" :: names (String.ofList rest))
  | ['.'] => (".", [])
  | _ => ("", names path)

/-- Names without the idle ones at their end. -/
def dropIdleEnd (names : List String) : List String :=
  (names.reverse.dropWhile isIdle).reverse

/-- The path without its last name, unless it has none. -/
def parent? (path : Path) : Option Path :=
  let (start, names) := splitStart path
  match dropIdleEnd names with
  | [] => if start = "." then some "" else none
  | name :: others =>
      some (start ++ String.intercalate "/" (dropIdleEnd (name :: others).dropLast))

theorem join_of_isAbsolute (base : Path) {part : Path} (absolute : isAbsolute part = true) :
    join base part = part := by
  simp [join, absolute]

theorem join_empty_left (part : Path) : join "" part = part := by
  unfold join
  split
  · rfl
  · simp

end Path

/-!
## File trees

A tree of directories and files with a working directory, and the operations that programs perform
on it. A path is looked up name by name: every name but the last has to be that of a directory.
-/

open Text.Utf8 (Bytes)

/-- The names on the way from the root of the file system. -/
abbrev Location := List String

inductive Node where
  | file (content : Bytes)
  | directory
deriving DecidableEq

/-- Why an operation on files fails. -/
inductive Fault where
  | notFound
  | exists
  | notADirectory
  | isADirectory
  | nulInName
  | other (message : String)
deriving DecidableEq

def Fault.message : Fault → String
  | .notFound => "No such file or directory (os error 2)"
  | .exists => "File exists (os error 17)"
  | .notADirectory => "Not a directory (os error 20)"
  | .isADirectory => "Is a directory (os error 21)"
  | .nulInName => "file name contained an unexpected NUL byte"
  | .other message => message

/-- What lies where, and the directory that relative paths start from. The root and the working
directory are always there. -/
structure Tree where
  home : Location
  nodes : Table Location Node

namespace Tree

/-- A tree with an empty working directory. -/
def empty : Tree := ⟨["work"], Table.empty.put ["work"] .directory⟩

def node? (tree : Tree) (location : Location) : Option Node :=
  if location = [] then some .directory else tree.nodes.find? location

/-- Puts a node at a location, in place of what was there. -/
def put (tree : Tree) (location : Location) (node : Node) : Tree :=
  { tree with nodes := tree.nodes.put location node }

def erase (tree : Tree) (location : Location) : Tree :=
  { tree with nodes := tree.nodes.erase location }

/-- Where a name leads from a directory. -/
def enter (location : Location) (name : String) : Location :=
  if Path.isIdle name then location
  else if name = ".." then location.dropLast
  else location ++ [name]

def start (tree : Tree) (path : Path) : Location := if Path.isAbsolute path then [] else tree.home

/-- Follows names from a location; each name needs a directory to start from. -/
def follow (tree : Tree) : Location → List String → Except Fault Location
  | location, [] => .ok location
  | location, name :: rest =>
      match tree.node? location with
      | some .directory => tree.follow (enter location name) rest
      | some (.file _) => .error .notADirectory
      | none => .error .notFound

/-- The location that a path names, which need not hold anything. -/
def locate (tree : Tree) (path : Path) : Except Fault Location :=
  if '\x00' ∈ path.toList then .error .nulInName
  else if path.toList = [] then .error .notFound
  else tree.follow (tree.start path) (Path.names path)

def read (tree : Tree) (path : Path) : Except Fault Bytes := do
  let location ← tree.locate path
  match tree.node? location with
  | some (.file content) => .ok content
  | some .directory => .error .isADirectory
  | none => .error .notFound

/-- Creates a file or replaces its content. -/
def write (tree : Tree) (path : Path) (content : Bytes) : Except Fault Tree := do
  let location ← tree.locate path
  match tree.node? location with
  | some .directory => .error .isADirectory
  | _ => .ok (tree.put location (.file content))

/-- Moves a file to a path, in place of a file that was there. -/
def move (tree : Tree) (source target : Path) : Except Fault Tree := do
  let origin ← tree.locate source
  match tree.node? origin with
  | none => .error .notFound
  | some .directory => .error .isADirectory
  | some (.file content) =>
      let location ← tree.locate target
      match tree.node? location with
      | some .directory => .error .isADirectory
      | _ =>
          if location = origin then .ok tree
          else .ok ((tree.erase origin).put location (.file content))

def remove (tree : Tree) (path : Path) : Except Fault Tree := do
  let location ← tree.locate path
  match tree.node? location with
  | none => .error .notFound
  | some .directory => .error .isADirectory
  | some (.file _) => .ok (tree.erase location)

/-- Creates the missing directories on the way along names. What was created stays when a file is
in the way: then nothing can be created where the file is, and before anything was created the
whole path is seen to lead through no directory. -/
def makeAlong (tree : Tree) (created : Bool) : Location → List String → Option Fault × Tree
  | _, [] => (none, tree)
  | location, name :: rest =>
      let next := enter location name
      match tree.node? next with
      | some .directory => tree.makeAlong created next rest
      | some (.file _) =>
          (some (if created || rest.isEmpty then .exists else .notADirectory), tree)
      | none => (tree.put next .directory).makeAlong true next rest

/-- Creates a directory and the missing ones on the way to it. -/
def makeDirectories (tree : Tree) (path : Path) : Option Fault × Tree :=
  if '\x00' ∈ path.toList then (some .nulInName, tree)
  else tree.makeAlong false (tree.start path) (Path.names path)

/-- The nodes in the working directory with their paths from there; directories end with a slash.
They are in the order of these paths. -/
def listing (tree : Tree) : List (Path × Node) :=
  let inside := tree.nodes.entries.filterMap fun (location, node) =>
    if location.length > tree.home.length ∧ tree.home.isPrefixOf location then
      let path := String.intercalate "/" (location.drop tree.home.length)
      some (match node with
        | .file _ => (path, node)
        | .directory => (path ++ "/", node))
    else none
  inside.mergeSort fun left right => decide (left.1 ≤ right.1)

/-- The tree with a file at a path, or with an empty directory if the path ends with a slash. The
directories on the way are created. -/
def place (tree : Tree) (path : Path) (content : Bytes) : Tree :=
  if path.toList.getLast? = some '/' then (tree.makeDirectories path).2
  else
    let (_, tree) := tree.makeDirectories ((Path.parent? path).getD "")
    match tree.write path content with
    | .ok tree => tree
    | .error _ => tree

theorem node?_put (tree : Tree) {location : Location} (other : Location) (node : Node)
    (inside : location ≠ []) :
    (tree.put location node).node? other =
      if other = location then some node else tree.node? other := by
  by_cases root : other = []
  · simp [node?, root, inside.symm]
  · simp [node?, put, root, Table.find?_put]

theorem node?_erase (tree : Tree) {location : Location} (other : Location)
    (inside : location ≠ []) :
    (tree.erase location).node? other = if other = location then none else tree.node? other := by
  by_cases root : other = []
  · simp [node?, root, inside.symm]
  · simp [node?, erase, root, Table.find?_erase]

end Tree

end TilePyramid.Files
