import TilePyramid.Cache
import TilePyramid.Proofs.Files.Tree
import TilePyramid.Proofs.World.Performing

/-!
# Entries of a directory cache

Content is stored in three steps: the directories of the entry are created, the sibling is written,
and the sibling is moved into place. Where one such storing succeeds there is a site: a tree with
the directories, in which the entry and its sibling lie at two places. Each step is then known by
what these two places hold.
-/

set_option autoImplicit false

namespace TilePyramid

open Text.Utf8 (Bytes)

namespace Cache

open Files (Path Location Tree Node Fault)

def moving (path : Path) : Action (Except Report Unit) :=
  .ask (.moveFile (temporaryPath path) path) fun
    | .error fault => .done (.error (fileReport "moving cached tile into place at" path fault))
    | .ok () => .done (.ok ())

def writing (path : Path) (content : Bytes) : Action (Except Report Unit) :=
  .ask (.writeFile (temporaryPath path) content) fun
    | .error fault => .done (.error (fileReport "writing cached tile" (temporaryPath path) fault))
    | .ok () => moving path

/-- All steps of storing content. -/
def preparing (path : Path) (content : Bytes) : Action (Except Report Unit) :=
  .ask (.makeDirectories (entryDirectory path)) fun
    | .error fault => .done (.error (fileReport "creating cache directory" (entryDirectory path) fault))
    | .ok () => writing path content

theorem set_eq (root : Path) {maxZoom : Option Nat} {key : Key}
    (kept : keeps maxZoom key.tile.level = true) (content : Bytes) :
    (directory root maxZoom).set key content = preparing (entryPath root key) content := by
  simp only [directory, kept]
  refine congrArg (Program.ask (Effect.makeDirectories _)) (funext fun made => ?_)
  rcases made with fault | ⟨⟩
  · rfl
  refine congrArg (Program.ask (Effect.writeFile _ _)) (funext fun written => ?_)
  rcases written with fault | ⟨⟩
  · rfl
  refine congrArg (Program.ask (Effect.moveFile _ _)) (funext fun moved => ?_)
  rcases moved with fault | ⟨⟩ <;> rfl

theorem answer_directory (source : Map → Tile → SourceReply) (root : Path) (maxZoom : Option Nat)
    (key : Key) (world : World) :
    answer source (directory root maxZoom) key world =
      match world.files.read (entryPath root key) with
      | .ok content => .ok (some content)
      | .error .notFound => .ok none
      | .error fault => .error (fileReport "reading cached tile" (entryPath root key) fault) := by
  simp only [answer, directory, Action.of, Program.bind_eq, Program.ask_bind, Program.done_bind,
    Action.on_ask, World.perform]
  rcases world.files.read (entryPath root key) with fault | content
  · cases fault <;> rfl
  · rfl

theorem answer_of_read {source : Map → Tile → SourceReply} {root : Path} {maxZoom : Option Nat}
    {key : Key} {world : World} {content : Option Bytes}
    (read : world.files.read (entryPath root key) = content.elim (.error .notFound) .ok) :
    answer source (directory root maxZoom) key world = .ok content := by
  rw [answer_directory, read]
  cases content <;> rfl

/-- Forgetting a key removes the file of its entry, if there is one. -/
theorem directory_purge_on (source : Map → Tile → SourceReply) (root : Path) (maxZoom : Option Nat)
    (key : Key) (world : World) :
    ((directory root maxZoom).purge key).on source world =
      match world.files.remove (entryPath root key) with
      | .ok files => (.ok (), { world with files })
      | .error .notFound => (.ok (), world)
      | .error fault =>
          (.error (fileReport "removing cached tile" (entryPath root key) fault), world) := by
  simp only [directory, Action.of, Program.bind_eq, Program.ask_bind, Program.done_bind,
    Action.on_ask, World.perform]
  cases world.files.remove (entryPath root key) with
  | ok files => rfl
  | error fault => cases fault <;> rfl

/-- The parts of a key but for the last one, which is the row of its tile. -/
def Key.front (key : Key) : List String :=
  key.map :: key.layer.toList ++ [toString key.tile.level, toString key.tile.x]

theorem Key.parts_eq (key : Key) : key.parts = key.front ++ [toString key.tile.y] := by
  simp [parts, front]

/-- The directory of an entry, as it is written. -/
def frontPath (root : Path) (key : Key) : Path := key.front.foldl Path.join root

/-- The path of a directory of entries ends with a number after a slash. -/
theorem frontPath_eq (root : Path) (key : Key) :
    ∃ base, frontPath root key = base ++ "/" ++ toString key.tile.x := by
  have parts : key.front =
      (key.map :: key.layer.toList) ++ [toString key.tile.level, toString key.tile.x] := rfl
  rw [frontPath, parts, List.foldl_append]
  generalize List.foldl Path.join root _ = front
  obtain ⟨start, ends⟩ := Path.exists_join_eq front (toString key.tile.level)
  exact ⟨_, Path.join_of_ordinary ends (Path.ordinary_toString _) (Path.ordinary_toString _)⟩

theorem join_frontPath (root : Path) (key : Key) {name : String} (ordinary : Path.Ordinary name) :
    Path.join (frontPath root key) name = frontPath root key ++ "/" ++ name := by
  obtain ⟨base, ends⟩ := frontPath_eq root key
  exact Path.join_of_ordinary ends (Path.ordinary_toString _) ordinary

theorem entryPath_eq (root : Path) (key : Key) :
    entryPath root key = frontPath root key ++ "/" ++ toString key.tile.y := by
  rw [entryPath, Key.parts_eq, List.foldl_append]
  exact join_frontPath root key (Path.ordinary_toString _)

theorem locate_temporaryPath_ne {root : Path} {key : Key} {tree : Tree} {entry temporary : Location}
    (entryFound : tree.locate (entryPath root key) = .ok entry)
    (temporaryFound : tree.locate (temporaryPath (entryPath root key)) = .ok temporary) :
    entry ≠ temporary := by
  have ordinary := Path.ordinary_toString key.tile.y
  rw [entryPath_eq] at entryFound temporaryFound
  rw [temporaryPath, String.append_assoc] at temporaryFound
  refine Tree.locate_ne ordinary (ordinary.append (by decide) (by decide) (by decide)) ?_
    entryFound temporaryFound
  intro same
  simpa using congrArg String.length same

/-- The places of an entry and its sibling in a tree that has the directories for them. -/
structure Site where
  path : Path
  tree : Tree
  entry : Location
  temporary : Location
  made : tree.makeDirectories (entryDirectory path) = (none, tree)
  entryFound : tree.locate path = .ok entry
  temporaryFound : tree.locate (temporaryPath path) = .ok temporary
  entryFree : tree.node? entry ≠ some .directory
  temporaryFree : tree.node? temporary ≠ some .directory
  apart : entry ≠ temporary

structure Contents where
  entry : Option Bytes
  temporary : Option Bytes

namespace Site

/-- A tree that is the one of the site but for what the two places hold. -/
structure Holds (site : Site) (contents : Contents) (tree : Tree) : Prop where
  home : site.tree.home = tree.home
  elsewhere : ∀ location, location ≠ site.entry → location ≠ site.temporary →
    tree.node? location = site.tree.node? location
  entry : tree.node? site.entry = contents.entry.map .file
  temporary : tree.node? site.temporary = contents.temporary.map .file

variable {site : Site} {contents : Contents} {tree : Tree}

theorem Holds.directoriesIn (holds : site.Holds contents tree) : site.tree.DirectoriesIn tree where
  home := holds.home
  kept location found := by
    have notEntry : location ≠ site.entry := fun same => site.entryFree (same ▸ found)
    have notTemporary : location ≠ site.temporary := fun same => site.temporaryFree (same ▸ found)
    rw [holds.elsewhere location notEntry notTemporary, found]

theorem Holds.makeDirectories (holds : site.Holds contents tree) :
    tree.makeDirectories (entryDirectory site.path) = (none, tree) :=
  Tree.makeDirectories_of_made site.made holds.directoriesIn

theorem Holds.locate_entry (holds : site.Holds contents tree) :
    tree.locate site.path = .ok site.entry :=
  holds.directoriesIn.locate site.entryFound

theorem Holds.locate_temporary (holds : site.Holds contents tree) :
    tree.locate (temporaryPath site.path) = .ok site.temporary :=
  holds.directoriesIn.locate site.temporaryFound

/-- Reading finds the whole content of the entry, or nothing. -/
theorem Holds.read (holds : site.Holds contents tree) :
    tree.read site.path = contents.entry.elim (.error .notFound) .ok :=
  Tree.read_of_locate holds.locate_entry holds.entry

theorem Holds.answer {source : Map → Tile → SourceReply} {root : Path} {maxZoom : Option Nat}
    {key : Key} {world : World} (holds : site.Holds contents world.files)
    (place : site.path = entryPath root key) :
    answer source (directory root maxZoom) key world = .ok contents.entry :=
  answer_of_read (place ▸ holds.read)

/-- Writing the sibling leaves the entry as it was. -/
theorem Holds.write (holds : site.Holds contents tree) (content : Bytes) :
    ∃ next, tree.write (temporaryPath site.path) content = .ok next ∧
      site.Holds { contents with temporary := some content } next := by
  have inside := Tree.ne_nil_of_free site.temporaryFree
  refine ⟨tree.put site.temporary (.file content), ?_, holds.home, ?_, ?_, ?_⟩
  · simp only [Tree.write, holds.locate_temporary, bind, Except.bind, holds.temporary]
    cases contents.temporary <;> rfl
  · intro location notEntry notTemporary
    rw [Tree.node?_put _ _ _ inside, if_neg notTemporary]
    exact holds.elsewhere location notEntry notTemporary
  · rw [Tree.node?_put _ _ _ inside, if_neg site.apart]
    exact holds.entry
  · rw [Tree.node?_put _ _ _ inside, if_pos rfl]
    rfl

/-- Moving the sibling into place takes its content with it. -/
theorem Holds.move {content : Bytes} (holds : site.Holds contents tree)
    (written : contents.temporary = some content) :
    ∃ next, tree.move (temporaryPath site.path) site.path = .ok next ∧
      site.Holds ⟨some content, none⟩ next := by
  have insideTemporary := Tree.ne_nil_of_free site.temporaryFree
  have insideEntry := Tree.ne_nil_of_free site.entryFree
  refine ⟨(tree.erase site.temporary).put site.entry (.file content), ?_, holds.home, ?_, ?_, ?_⟩
  · simp only [Tree.move, holds.locate_temporary, holds.locate_entry, bind, Except.bind,
      holds.temporary, holds.entry, written, Option.map_some, if_neg site.apart]
    cases contents.entry <;> rfl
  · intro location notEntry notTemporary
    rw [Tree.node?_put _ _ _ insideEntry, if_neg notEntry, Tree.node?_erase _ _ insideTemporary,
      if_neg notTemporary]
    exact holds.elsewhere location notEntry notTemporary
  · rw [Tree.node?_put _ _ _ insideEntry, if_pos rfl]
    rfl
  · rw [Tree.node?_put _ _ _ insideEntry, if_neg site.apart.symm,
      Tree.node?_erase _ _ insideTemporary, if_pos rfl]
    rfl

/-- There is nothing to move once the sibling is gone. -/
theorem Holds.move_of_gone (holds : site.Holds contents tree) (gone : contents.temporary = none) :
    tree.move (temporaryPath site.path) site.path = .error .notFound := by
  simp only [Tree.move, holds.locate_temporary, bind, Except.bind, holds.temporary, gone,
    Option.map_none]

end Site

section Sites

variable {source : Map → Tile → SourceReply} {path : Path} {content : Bytes} {world : World}

theorem steps_of_preparing (succeeds : ((preparing path content).on source world).1 = .ok ()) :
    ∃ base written moved, world.files.makeDirectories (entryDirectory path) = (none, base) ∧
      base.write (temporaryPath path) content = .ok written ∧
      written.move (temporaryPath path) path = .ok moved := by
  rw [preparing, Action.on_ask] at succeeds
  rcases made : world.files.makeDirectories (entryDirectory path) with ⟨_ | fault, base⟩
  · simp only [World.perform, made, writing, Action.on_ask] at succeeds
    cases wrote : base.write (temporaryPath path) content with
    | error fault => simp [World.changeFiles, wrote] at succeeds
    | ok written =>
        simp only [World.changeFiles, wrote, moving, Action.on_ask, World.perform] at succeeds
        cases put : written.move (temporaryPath path) path with
        | error fault => simp [put] at succeeds
        | ok moved => exact ⟨base, written, moved, rfl, wrote, put⟩
  · simp [World.perform, made] at succeeds

theorem exists_eq_map_of_free {tree : Tree} {place : Location}
    (free : tree.node? place ≠ some .directory) :
    ∃ content : Option Bytes, tree.node? place = content.map .file := by
  rcases found : tree.node? place with _ | ⟨content⟩ | _
  · exact ⟨none, rfl⟩
  · exact ⟨some content, rfl⟩
  · exact absurd found free

/-- Where content can be stored there is a site, once the directories are created. -/
theorem exists_site {root : Path} {key : Key}
    (succeeds : ((preparing (entryPath root key) content).on source world).1 = .ok ()) :
    ∃ (site : Site) (contents : Contents), site.path = entryPath root key ∧
      world.files.makeDirectories (entryDirectory site.path) = (none, site.tree) ∧
      site.Holds contents site.tree := by
  obtain ⟨base, written, moved, made, wrote, put⟩ := steps_of_preparing succeeds
  obtain ⟨temporary, temporaryFound, temporaryFree, rfl⟩ := Tree.exists_of_write wrote
  obtain ⟨-, entry, -, -, -, found, free, -⟩ := Tree.exists_of_move put
  have inside := Tree.ne_nil_of_free temporaryFree
  -- The entry was located after the sibling had been written, which made no directory.
  have fewer : (base.put temporary (.file content)).DirectoriesIn base := by
    refine ⟨rfl, fun location directory => ?_⟩
    rw [Tree.node?_put _ _ _ inside] at directory
    split at directory
    · cases directory
    · exact directory
  have entryFound := fewer.locate found
  have apart := locate_temporaryPath_ne entryFound temporaryFound
  rw [Tree.node?_put _ _ _ inside, if_neg apart] at free
  obtain ⟨old, holdsEntry⟩ := exists_eq_map_of_free free
  obtain ⟨stale, holdsTemporary⟩ := exists_eq_map_of_free temporaryFree
  exact ⟨⟨entryPath root key, base, entry, temporary, Tree.makeDirectories_of_made made (.refl base),
    entryFound, temporaryFound, free, temporaryFree, apart⟩, ⟨old, stale⟩, rfl, made,
    rfl, fun _ _ _ => rfl, holdsEntry, holdsTemporary⟩

end Sites

end Cache

end TilePyramid
