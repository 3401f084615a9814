import Mathlib.Data.List.Induction
import Mathlib.Data.List.Nodup
import TilePyramid.Command.Run
import TilePyramid.Proofs.Operation.Contract
import TilePyramid.Proofs.World.Performing

/-!
# Preparing a command

What each step of the preparation comes to on a world: reading the configuration, selecting maps and
the work on them, and finding the tiles. Main statements: `prepare_on` and `run_eq`.
-/

set_option autoImplicit false

namespace TilePyramid

open Text.Utf8 (Bytes)

variable {source : Map → Tile → SourceReply} {world : World}

namespace Atlas

variable {maps before after : List Map} {map : Map} {seen : List String} {cache : Option Cache}

theorem duplicate?_eq_none (distinct : (maps.map Map.name).Nodup)
    (fresh : ∀ map ∈ maps, map.name ∉ seen) : duplicate? seen maps = none := by
  induction maps generalizing seen with
  | nil => rfl
  | cons map rest ih =>
      rw [List.map_cons, List.nodup_cons] at distinct
      rw [duplicate?, if_neg (fresh map (by simp))]
      refine ih distinct.2 fun other member => ?_
      rw [List.mem_cons, not_or]
      refine ⟨fun same => distinct.1 ?_, fresh other (by simp [member])⟩
      exact List.mem_map.mpr ⟨other, member, same⟩

theorem duplicate?_eq_some (distinct : (before.map Map.name).Nodup)
    (fresh : ∀ map ∈ before, map.name ∉ seen) (again : map.name ∈ seen ++ before.map Map.name) :
    duplicate? seen (before ++ map :: after) = some map := by
  induction before generalizing seen with
  | nil => exact if_pos (by simpa using again)
  | cons first rest ih =>
      rw [List.map_cons, List.nodup_cons] at distinct
      rw [List.cons_append, duplicate?, if_neg (fresh first (by simp))]
      refine ih distinct.2 (fun other member => ?_) (by simpa [or_left_comm] using again)
      rw [List.mem_cons, not_or]
      refine ⟨fun same => distinct.1 ?_, fresh other (by simp [member])⟩
      exact List.mem_map.mpr ⟨other, member, same⟩

theorem ofMaps_eq_ok (distinct : (maps.map Map.name).Nodup) :
    ofMaps maps cache = .ok { maps, cache } := by
  rw [ofMaps, duplicate?_eq_none distinct fun _ _ => List.not_mem_nil]

theorem ofMaps_eq_error (distinct : (before.map Map.name).Nodup)
    (again : map.name ∈ before.map Map.name) :
    ofMaps (before ++ map :: after) cache =
      .error (.message s!"map ({map.name}) is defined more than once") := by
  rw [ofMaps, duplicate?_eq_some distinct (fun _ _ => List.not_mem_nil) again]

/-- The names of maps differ, or there is a first map that has the name of one before it. -/
theorem distinct_or_again (maps : List Map) : (maps.map Map.name).Nodup ∨
    ∃ before map after, maps = before ++ map :: after ∧ (before.map Map.name).Nodup ∧
      map.name ∈ before.map Map.name := by
  induction maps using List.reverseRecOn with
  | nil => exact .inl .nil
  | append_singleton maps map ih =>
      obtain distinct | ⟨before, twin, after, split, distinct, again⟩ := ih
      · by_cases again : map.name ∈ maps.map Map.name
        · exact .inr ⟨maps, map, [], rfl, distinct, again⟩
        · refine .inl ?_
          rw [List.map_append, List.map_singleton]
          exact List.Nodup.append distinct (List.nodup_singleton _) (by simpa using again)
      · exact .inr ⟨before, twin, after ++ [map], by simp [split], distinct, again⟩

end Atlas

/-- The atlas of a configuration whose maps have different names. -/
def Config.atlasOf (config : Config) : Atlas where
  maps := config.maps
  cache := config.cache.map CacheConfig.build

namespace Command

variable {command : Command} {config : Config} {maps : List String}

/-- The file that a command names holds a configuration, which is resolved from where the file is. -/
def Loads (command : Command) (world : World) (config : Config) : Prop :=
  ∃ text found, world.files.read command.config = .ok text ∧
    Config.ofBytes? text = some found ∧ config = found.resolve command.config

theorem Loads.eq {other : Config} (loads : command.Loads world config)
    (again : command.Loads world other) : config = other := by
  obtain ⟨text, found, read, holds, rfl⟩ := loads
  obtain ⟨_, _, readAgain, holdsAgain, rfl⟩ := again
  cases read.symm.trans readAgain
  cases holds.symm.trans holdsAgain
  rfl

theorem loadConfig_on_ok {file : Files.Path} {text : Bytes}
    (read : world.files.read file = .ok text) :
    (loadConfig file).on source world =
      ((match Config.ofBytes? text with
        | some config => .ok (config.resolve file)
        | none => .error (.invalidConfig file)), world) := by
  simp only [loadConfig, Action.of, Program.bind_eq, Program.ask_bind, Program.done_bind,
    Action.on_ask, World.perform, read]
  cases Config.ofBytes? text <;> rfl

theorem loadConfig_on_error {file : Files.Path} {fault : Files.Fault}
    (read : world.files.read file = .error fault) :
    (loadConfig file).on source world =
      (.error (if fault = .isADirectory then .invalidConfig file
        else .report (.within s!"opening config file {Text.quoted .path file}"
          (.message fault.message))), world) := by
  simp only [loadConfig, Action.of, Program.bind_eq, Program.ask_bind, Program.done_bind,
    Action.on_ask, World.perform, read]
  cases fault <;> rfl

theorem Loads.loadConfig_on (loads : command.Loads world config) :
    (loadConfig command.config).on source world = (.ok config, world) := by
  obtain ⟨text, found, read, holds, rfl⟩ := loads
  rw [loadConfig_on_ok read, holds]

/-- The maps that a command is about: the one that it names, or all. -/
inductive Selects (command : Command) (config : Config) : List String → Prop where
  | named {name : String} (asked : command.map = some name)
      (known : name ∈ config.maps.map Map.name) : Selects command config [name]
  | all (unasked : command.map = none) (some : config.maps ≠ []) :
      Selects command config (config.maps.map Map.name)

theorem Selects.ne_nil (selects : command.Selects config maps) : maps ≠ [] := by
  cases selects with
  | named asked known => nofun
  | all unasked some => simpa using some

theorem Selects.names_subset (selects : command.Selects config maps) :
    maps ⊆ config.atlasOf.names := by
  cases selects with
  | named asked known => simpa [Atlas.names, Config.atlasOf] using known
  | all unasked some => exact List.Subset.refl _

theorem Selects.targets_eq (selects : command.Selects config maps) :
    command.targets config.atlasOf = .ok maps := by
  unfold targets
  cases selects with
  | @named name asked known =>
      have known : name ∈ config.atlasOf.names := known
      obtain ⟨map, found⟩ := Atlas.mem_names_iff.mp known
      simp only [asked, found, Except.map, Atlas.name_of_map? found]
      rfl
  | all unasked some =>
      have unempty : config.atlasOf.names ≠ [] := by simpa [Atlas.names, Config.atlasOf] using some
      simp only [unasked]
      exact if_neg unempty

theorem targets_of_unknown {name : String} (asked : command.map = some name)
    (unknown : name ∉ config.maps.map Map.name) :
    command.targets config.atlasOf = .error (.unknownMap name) := by
  have missing : config.atlasOf.map? name = .error (.unknownMap name) := by
    cases found : config.atlasOf.map? name with
    | ok map => exact absurd (Atlas.mem_names_iff.mpr ⟨map, found⟩) unknown
    | error error =>
        unfold Atlas.map? at found
        split at found
        · cases found
        · exact found.symm
  simp only [targets, asked, missing]
  rfl

theorem targets_of_none (unasked : command.map = none) (empty : config.maps = []) :
    command.targets config.atlasOf = .error .noMaps := by
  have nameless : config.atlasOf.names = [] := by simp [Atlas.names, Config.atlasOf, empty]
  simp only [targets, unasked]
  exact if_pos nameless

theorem plan_of_distinct (distinct : (config.maps.map Map.name).Nodup) :
    command.plan config = (do
      let targets ← (command.targets config.atlasOf).mapError .error
      let operation ← (command.operation config.atlasOf).mapError .error
      return { targets, operation }) := by
  have built : config.atlas = .ok config.atlasOf := Atlas.ofMaps_eq_ok distinct
  simp only [plan, built]
  rfl

theorem operation_of_cached {cached : CacheConfig} (given : config.cache = some cached) :
    ∃ operation, command.operation config.atlasOf = .ok operation := by
  have cache : config.atlasOf.cache = some cached.build := by simp [Config.atlasOf, given]
  unfold operation
  cases command.activity with
  | seed => exact ⟨_, by simp only [Operation.seedOf, Atlas.requireCache, cache]; rfl⟩
  | purge => exact ⟨_, by simp only [Operation.purgeOf, Atlas.requireCache, cache]; rfl⟩

theorem operation_of_uncached (missing : config.cache = none) :
    command.operation config.atlasOf = .error .missingCache := by
  have cache : config.atlasOf.cache = none := by simp [Config.atlasOf, missing]
  unfold operation
  cases command.activity with
  | seed => simp only [Operation.seedOf, Atlas.requireCache, cache]; rfl
  | purge => simp only [Operation.purgeOf, Atlas.requireCache, cache]; rfl

/-- A command with a configuration plans its work, reads what it was given and then looks for the
tiles. -/
theorem prepare_on (loads : command.Loads world config) :
    command.prepare.on source world =
      match command.plan config with
      | .error report => (.error (.report report), world)
      | .ok plan =>
          match command.scope with
          | .error error => (.error (command.afterPlan (.error error)), world)
          | .ok scope =>
              match (scope.generator plan.targets).on source
                  { world with log := scope.logEntry :: world.log } with
              | (.error report, after) => (.error (command.afterPlan report), after)
              | (.ok generator, after) => (.ok (plan, generator), after) := by
  unfold prepare
  rw [Program.bind_eq, Action.on_bind, loads.loadConfig_on]
  dsimp only
  cases command.plan config with
  | error report => rfl
  | ok plan =>
      dsimp only
      rw [Program.bind_eq, Action.on_bind]
      unfold generator
      cases command.scope with
      | error error => rfl
      | ok scope =>
          simp only [Action.of, Program.bind_eq, Program.ask_bind, Program.done_bind, Action.on_ask,
            World.perform]
          cases (scope.generator plan.targets).on source
              { world with log := scope.logEntry :: world.log } with
          | mk outcome after => cases outcome <;> rfl

end Command

namespace TileList

variable {file : Files.Path}

theorem ofFile_on_input :
    (ofFile inputName).on source world = (.ok (.ofBytes world.input), { world with input := [] }) :=
  rfl

theorem ofFile_on (named : file ≠ inputName) : (ofFile file).on source world =
    ((match world.files.read file with
      | .ok text => .ok (.ofBytes text)
      | .error .isADirectory =>
          .ok { lines := [], ending := .broken Files.Fault.isADirectory.message }
      | .error fault =>
          .error (.within s!"opening tile list {Text.quoted .text file}" (.message fault.message))),
      world) := by
  simp only [ofFile, if_neg named, Action.of, Program.bind_eq, Program.ask_bind, Program.done_bind,
    Program.pure_eq_done, Action.on_ask, World.perform]
  cases world.files.read file with
  | ok text => rfl
  | error fault => cases fault <;> rfl

end TileList

namespace Command

/-- A command is prepared, and if nothing is wrong it is run and brought to its end. -/
theorem run_eq_of_answer (command : Command) (answer : (effect : Effect) → StateM World effect.Reply)
    (workers : Nat) (world : World) :
    (command.run answer workers).run world =
      match (command.prepare.run answer).run world with
      | (.error failure, prepared) => (.failed failure, prepared)
      | (.ok (plan, generator), prepared) =>
          let ran := (Pool.run plan answer
            (Pool.start generator (command.concurrency.getD workers) false) []).run prepared
          ((command.conclude (ran.1.1.result?.getD (.error .canceled))).run answer).run ran.2 := by
  rw [run, StateT.run_bind]
  cases (command.prepare.run answer).run world with
  | mk outcome after => cases outcome <;> rfl

theorem run_eq (command : Command) (workers : Nat) (world : World) :
    (command.run (World.answer source) workers).run world =
      match command.prepare.on source world with
      | (.error failure, prepared) => (.failed failure, prepared)
      | (.ok (plan, generator), prepared) =>
          let ran := (Pool.run plan (World.answer source)
            (Pool.start generator (command.concurrency.getD workers) false) []).run prepared
          (command.conclude (ran.1.1.result?.getD (.error .canceled))).on source ran.2 :=
  command.run_eq_of_answer (World.answer source) workers world

end Command

end TilePyramid
