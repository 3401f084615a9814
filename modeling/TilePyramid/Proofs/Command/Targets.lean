import TilePyramid.Proofs.Command.Rejections
import TilePyramid.Proofs.Stream.Lines

/-!
# The jobs of a command

What a scope asks for is told here as a list of jobs, with the error that ends a bad tile list. A
command with nothing wrong gets a generator that gives these jobs. Main statements:
`Scope.exists_targets` and `Command.prepare_cases`.
-/

set_option autoImplicit false

namespace TilePyramid

open Text.Utf8 (Bytes)

/-- The tiles that named tiles stand for as jobs, those of a named tile before those of the next and
each tile for all maps. -/
def Expansion.jobs (expansion : Expansion) (maps : List String) (tiles : List Tile) : List Job :=
  tiles.flatMap fun named => (expansion.tiles named).flatMap fun tile => maps.map (⟨·, tile⟩)

/-- The text of a tile list: the input, or what can be read in a file. -/
inductive TileList.Holds (files : Files.Tree) (input : Bytes) : Files.Path → Bytes → Prop where
  | input : Holds files input inputName input
  | file {path : Files.Path} {text : Bytes} (named : path ≠ inputName)
      (read : files.read path = .ok text) : Holds files input path text

namespace Scope

/-- The jobs of a scope for given maps in the order in which they are generated, and the error that
is found after them, if any. -/
inductive Targets (files : Files.Tree) (input : Bytes) (maps : List String) :
    Scope → List Job → Option Error → Prop where
  | region (bounds : Bounds) (zooms : ZoomRange) :
      Targets files input maps (.region bounds zooms)
        (zooms.levels.flatMap fun level =>
          (Mercator.cover bounds level).tiles.flatMap fun tile => maps.map (⟨·, tile⟩)) none
  | tile (named : Tile) (expansion : Expansion) :
      Targets files input maps (.tile named expansion)
        (maps.flatMap fun map => (expansion.tiles named).map (⟨map, ·⟩)) none
  | list {file : Files.Path} {format : NameFormat} {expansion : Expansion} {text : Bytes}
      {tiles : List Tile} {broken : Option Error} (holds : TileList.Holds files input file text)
      (read : TileList.ReadUpTo format 0 (Text.lines text) tiles broken) :
      Targets files input maps (.list file format expansion) (expansion.jobs maps tiles) broken
  | directory {file : Files.Path} {format : NameFormat} {expansion : Expansion}
      (named : file ≠ TileList.inputName) (read : files.read file = .error .isADirectory) :
      Targets files input maps (.list file format expansion) []
        (some (.badListLine 1 Files.Fault.isADirectory.message))

variable {source : Map → Tile → SourceReply} {world : World} {scope : Scope} {maps : List String}
  {files : Files.Tree} {input : Bytes} {jobs : List Job} {broken : Option Error}

theorem Targets.map_mem (targets : scope.Targets files input maps jobs broken) :
    ∀ job ∈ jobs, job.map ∈ maps := by
  intro job member
  cases targets with
  | directory named read => cases member
  | _ =>
      simp only [Expansion.jobs, List.mem_flatMap, List.mem_map] at member
      grind

/-- Only a tile list can break off, and then it tells a line. -/
theorem Targets.broken_eq {error : Error}
    (targets : scope.Targets files input maps jobs (some error)) :
    ∃ number reason, error = .badListLine number reason := by
  cases targets with
  | list holds read => exact read.error_eq rfl
  | directory named read => exact ⟨_, _, rfl⟩

/-- A generator whose items are the targets of a scope. -/
def Generates (scope : Scope) (files : Files.Tree) (input : Bytes) (maps : List String)
    (generator : Generator) : Prop :=
  ∃ items broken, generator.Gives items broken ∧
    scope.Targets files input maps (items.flatMap (Item.jobs maps)) broken

theorem jobs_of_items (expansion : Expansion) (maps : List String) (tiles : List Tile) :
    (tiles.flatMap fun named => (expansion.tiles named).flatMap fun tile =>
      maps.map fun map => Item.job ⟨map, tile⟩).flatMap (Item.jobs maps) =
    expansion.jobs maps tiles := by
  simp [Expansion.jobs, List.flatMap_assoc, List.flatMap_map, ← List.map_eq_flatMap]

theorem generates_ofBytes {file : Files.Path} {text : Bytes} (format : NameFormat)
    (expansion : Expansion) (holds : TileList.Holds files input file text) :
    (Scope.list file format expansion).Generates files input maps
      ((TileList.ofBytes text).generate format expansion maps) := by
  have gives := @TileList.gives_generateFrom .finished nofun format expansion maps 0
    (Text.lines text)
  refine ⟨_, _, gives, ?_⟩
  rw [jobs_of_items]
  exact .list holds (TileList.readUpTo_readFrom format 0 (Text.lines text))

/-- The tile list of a scope, if it has one, can be opened. -/
def Opens (scope : Scope) (files : Files.Tree) : Prop :=
  ∀ file format expansion, scope = .list file format expansion → file ≠ TileList.inputName →
    ∀ fault, files.read file = .error fault → fault = .isADirectory

theorem exists_targets (some : maps ≠ []) (opens : scope.Opens world.files) :
    ∃ generator input,
      (scope.generator maps).on source world = (.ok generator, { world with input }) ∧
      scope.Generates world.files world.input maps generator := by
  cases scope with
  | region bounds zooms =>
      refine ⟨_, world.input, rfl, _, _, Generator.gives_ofBounds bounds zooms, ?_⟩
      simp only [List.flatMap_assoc, List.flatMap_map]
      exact .region bounds zooms
  | tile named expansion =>
      refine ⟨Generator.ofTile named expansion maps, world.input, ?_, _, _,
        Generator.gives_ofTile named expansion maps, ?_⟩
      · simp only [generator, Generator.ofTile?, if_neg some]
        rfl
      · simp only [List.flatMap_assoc, List.flatMap_map, Item.jobs_job, ← List.map_eq_flatMap]
        exact .tile named expansion
  | list file format expansion =>
      simp only [generator]
      rw [Program.bind_eq, Action.on_bind]
      by_cases input : file = TileList.inputName
      · subst input
        rw [TileList.ofFile_on_input]
        exact ⟨_, [], rfl, generates_ofBytes format expansion .input⟩
      · rw [TileList.ofFile_on input]
        cases read : world.files.read file with
        | ok text =>
            exact ⟨_, world.input, rfl, generates_ofBytes format expansion (.file input read)⟩
        | error fault =>
            obtain rfl := opens file format expansion rfl input fault read
            have gives := @TileList.gives_generateFrom
              (.broken Files.Fault.isADirectory.message) nofun format expansion maps 0 []
            exact ⟨_, world.input, rfl, _, _, gives, .directory input read⟩

end Scope

namespace Command

/-- With a configuration, a command is about these maps, this scope and these jobs. -/
structure Asks (command : Command) (config : Config) (world : World) (maps : List String)
    (scope : Scope) (jobs : List Job) (broken : Option Error) : Prop where
  selects : command.Selects config maps
  covers : command.scope = .ok scope
  targets : scope.Targets world.files world.input maps jobs broken

variable {source : Map → Tile → SourceReply} {command : Command} {world : World} {scope : Scope}

/-- A command with nothing wrong is prepared for all of its targets. -/
theorem exists_prepared (source : Map → Tile → SourceReply)
    (passes : ∀ check, command.Passes world check) :
    ∃ config maps operation scope generator input,
      command.Loads world config ∧ command.Selects config maps ∧
      command.operation config.atlasOf = .ok operation ∧ command.scope = .ok scope ∧
      scope.Generates world.files world.input maps generator ∧
      command.prepare.on source world = (.ok ({ targets := maps, operation }, generator),
        { world with input, log := scope.logEntry :: world.log }) := by
  obtain ⟨config, maps, operation, loads, selects, works, planned⟩ :=
    exists_plan fun check _ => passes check
  obtain ⟨scope, asked, listed⟩ := exists_scope fun check _ => passes check
  have opens : scope.Opens world.files := by
    intro file format expansion same named fault read
    obtain ⟨text, given⟩ := (listed file).mp ⟨format, expansion, same⟩
    by_contra missing
    exact passes .list _ (.list given named read missing)
  obtain ⟨generator, input, generated, generates⟩ :=
    @Scope.exists_targets source { world with log := scope.logEntry :: world.log } scope maps
      selects.ne_nil opens
  refine ⟨config, maps, operation, scope, generator, input, loads, selects, works, asked,
    generates, ?_⟩
  rw [prepare_on loads, planned, asked]
  simp only [generated]

/-- A command with something wrong is rejected with the world as it was but for the log, and any other
is prepared. -/
theorem prepare_cases (command : Command) (source : Map → Tile → SourceReply) (world : World) :
    (∃ failure log, (∃ check found, command.Finds world check found) ∧
      command.prepare.on source world = (.error failure, { world with log := log ++ world.log })) ∨
    ∃ config maps operation scope generator input,
      command.Loads world config ∧ command.Selects config maps ∧
      command.operation config.atlasOf = .ok operation ∧ command.scope = .ok scope ∧
      scope.Generates world.files world.input maps generator ∧
      command.prepare.on source world = (.ok ({ targets := maps, operation }, generator),
        { world with input, log := scope.logEntry :: world.log }) := by
  by_cases faulty : ∃ check failure, command.Finds world check failure
  · obtain ⟨check, failure, finds⟩ := faulty
    obtain ⟨first, reported, told, passes⟩ := finds.exists_first
    obtain ⟨log, prepared, -⟩ := told.prepare_on source passes
    exact .inl ⟨reported, log, ⟨check, failure, finds⟩, prepared⟩
  · exact .inr (exists_prepared source fun check failure finds => faulty ⟨check, failure, finds⟩)

end Command

end TilePyramid
