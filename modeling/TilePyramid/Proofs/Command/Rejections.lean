import TilePyramid.Map.Address
import TilePyramid.Proofs.Command.Preparing

/-!
# Rejected commands

What can be wrong with a command is listed here check by check, each without regard to the others. A
command with something wrong fails before it touches anything, and tells the first of its faults.
Main statement: `faulty_command_is_rejected`.
-/

set_option autoImplicit false

namespace TilePyramid.Command

/-- What is checked of a command before its run. -/
inductive Check where
  | config
  | duplicate
  | selection
  | cache
  | bounds
  | format
  | name
  | zooms
  | list
deriving DecidableEq

/-- Of two checks that fail, the one of lower rank is told. -/
def Check.rank : Check → Nat
  | .config => 0
  | .duplicate => 1
  | .selection => 2
  | .cache => 3
  | .bounds => 4
  | .format => 5
  | .name => 6
  | .zooms => 7
  | .list => 8

theorem Check.rank_injective {left right : Check} (same : left.rank = right.rank) : left = right := by
  cases left <;> cases right <;> first | rfl | cases same

variable {command : Command} {world : World} {config : Config} {check : Check} {failure : Failure}

/-- The lowest and the highest level that a command asks for. A region has all levels by default, a
named tile the lowest one only if the command names a level at all. -/
inductive AsksLevels (command : Command) : Nat → Nat → Prop where
  | region {text : String} (given : command.selection = .region text) :
      AsksLevels command (command.minZoom.getD 0) (command.maxZoom.getD TilePyramid.maxZoom)
  | named (given : ∀ text, command.selection ≠ .region text)
      (some : command.minZoom ≠ none ∨ command.maxZoom ≠ none) :
      AsksLevels command (command.minZoom.getD 0) (command.maxZoom.getD (command.minZoom.getD 0))

/-- A check of a command finds a fault. -/
inductive Finds (command : Command) (world : World) : Check → Failure → Prop where
  | unreadableConfig {fault : Files.Fault} (read : world.files.read command.config = .error fault)
      (file : fault ≠ .isADirectory) :
      Finds command world .config
        (.report (.within s!"opening config file {Text.quoted .path command.config}"
          (.message fault.message)))
  | configDirectory (read : world.files.read command.config = .error .isADirectory) :
      Finds command world .config (.invalidConfig command.config)
  | rejectedConfig {text : Text.Utf8.Bytes} (read : world.files.read command.config = .ok text)
      (rejected : Config.ofBytes? text = none) :
      Finds command world .config (.invalidConfig command.config)
  | duplicate {config : Config} {before after : List Map} {map : Map}
      (loads : command.Loads world config) (split : config.maps = before ++ map :: after)
      (distinct : (before.map Map.name).Nodup) (again : map.name ∈ before.map Map.name) :
      Finds command world .duplicate
        (.report (.message s!"map ({map.name}) is defined more than once"))
  | unknownMap {config : Config} {name : String} (loads : command.Loads world config)
      (asked : command.map = some name) (unknown : name ∉ config.maps.map Map.name) :
      Finds command world .selection (.report (.error (.unknownMap name)))
  | noMaps {config : Config} (loads : command.Loads world config) (unasked : command.map = none)
      (empty : config.maps = []) : Finds command world .selection (.report (.error .noMaps))
  | noCache {config : Config} (loads : command.Loads world config) (missing : config.cache = none) :
      Finds command world .cache (.report (.error .missingCache))
  | bounds {text : String} {fault : Bounds.Fault} (given : command.selection = .region text)
      (rejected : Bounds.read text.toList = .error fault) :
      Finds command world .bounds (command.afterPlan (.error (.invalidBounds fault.message)))
  | format {text : String} {fault : NameFormat.Fault}
      (given : (∃ file, command.selection = .list file text) ∨
        ∃ name, command.selection = .tile name text)
      (rejected : NameFormat.read text = .error fault) :
      Finds command world .format (command.afterPlan (.error (.invalidNameFormat fault.message)))
  | name {name text : String} {format : NameFormat} {fault : NameFormat.NameFault}
      (given : command.selection = .tile name text) (read : NameFormat.read text = .ok format)
      (rejected : format.readTile name.toList = .error fault) :
      Finds command world .name (command.afterPlan (.error (.invalidTileName fault.message)))
  | zooms {low high : Nat} (asked : command.AsksLevels low high)
      (rejected : high < low ∨ TilePyramid.maxZoom < high) :
      Finds command world .zooms (command.afterPlan (.error (.invalidZoomRange low high)))
  | list {file : Files.Path} {format : String} {fault : Files.Fault}
      (given : command.selection = .list file format) (named : file ≠ TileList.inputName)
      (read : world.files.read file = .error fault) (missing : fault ≠ .isADirectory) :
      Finds command world .list
        (command.afterPlan (.within s!"opening tile list {Text.quoted .text file}"
          (.message fault.message)))

def Passes (command : Command) (world : World) (check : Check) : Prop :=
  ∀ failure, ¬ command.Finds world check failure

section Passing

/-- The expansion of named tiles, if the command names a level. -/
theorem expansion_of_some (some : command.minZoom ≠ none ∨ command.maxZoom ≠ none) :
    command.expansion =
      (Input.zooms (command.minZoom.getD 0) (command.maxZoom.getD (command.minZoom.getD 0))).map
        fun range => { zooms := range } := by
  have asked : ¬ (command.minZoom = none ∧ command.maxZoom = none) := by tauto
  simp only [expansion, if_neg asked]

theorem Passes.loads (passes : command.Passes world .config) :
    ∃ config, command.Loads world config := by
  cases read : world.files.read command.config with
  | error fault =>
      by_cases directory : fault = .isADirectory
      · rw [directory] at read
        exact absurd (.configDirectory read) (passes _)
      · exact absurd (.unreadableConfig read directory) (passes _)
  | ok text =>
      cases holds : Config.ofBytes? text with
      | none => exact absurd (.rejectedConfig read holds) (passes _)
      | some found => exact ⟨_, text, found, read, holds, rfl⟩

theorem Passes.distinct (passes : command.Passes world .duplicate)
    (loads : command.Loads world config) : (config.maps.map Map.name).Nodup := by
  obtain distinct | ⟨before, map, after, split, distinct, again⟩ :=
    Atlas.distinct_or_again config.maps
  · exact distinct
  · exact absurd (.duplicate loads split distinct again) (passes _)

theorem Passes.selects (passes : command.Passes world .selection)
    (loads : command.Loads world config) : ∃ maps, command.Selects config maps := by
  cases asked : command.map with
  | some name =>
      by_cases known : name ∈ config.maps.map Map.name
      · exact ⟨[name], .named asked known⟩
      · exact absurd (.unknownMap loads asked known) (passes _)
  | none =>
      by_cases empty : config.maps = []
      · exact absurd (.noMaps loads asked empty) (passes _)
      · exact ⟨_, .all asked empty⟩

theorem Passes.cached (passes : command.Passes world .cache) (loads : command.Loads world config) :
    ∃ cached, config.cache = some cached := by
  cases given : config.cache with
  | some cached => exact ⟨cached, rfl⟩
  | none => exact absurd (.noCache loads given) (passes _)

theorem Passes.bounds {text : String} (passes : command.Passes world .bounds)
    (given : command.selection = .region text) : ∃ bounds, Input.bounds text = .ok bounds := by
  cases read : Bounds.read text.toList with
  | ok bounds => exact ⟨bounds, by simp only [Input.bounds, read]; rfl⟩
  | error fault => exact absurd (.bounds given read) (passes _)

theorem Passes.format {text : String} (passes : command.Passes world .format)
    (given : (∃ file, command.selection = .list file text) ∨
      ∃ name, command.selection = .tile name text) :
    ∃ format, NameFormat.read text = .ok format := by
  cases read : NameFormat.read text with
  | ok format => exact ⟨format, rfl⟩
  | error fault => exact absurd (.format given read) (passes _)

theorem Passes.name {name text : String} {format : NameFormat}
    (passes : command.Passes world .name) (given : command.selection = .tile name text)
    (read : NameFormat.read text = .ok format) : ∃ tile, Input.tileName format name = .ok tile := by
  cases named : format.readTile name.toList with
  | ok tile => exact ⟨tile, by simp only [Input.tileName, named]; rfl⟩
  | error fault => exact absurd (.name given read named) (passes _)

theorem Passes.zooms {low high : Nat} (passes : command.Passes world .zooms)
    (asked : command.AsksLevels low high) : ∃ range, Input.zooms low high = .ok range := by
  by_cases valid : low ≤ high ∧ high ≤ TilePyramid.maxZoom
  · exact ⟨.between low high valid.1 valid.2,
      by simp only [Input.zooms, ZoomRange.ofBounds?, dif_pos valid]⟩
  · refine absurd (.zooms asked ?_) (passes _)
    omega

theorem Passes.expansion (passes : command.Passes world .zooms)
    (given : ∀ text, command.selection ≠ .region text) :
    ∃ expansion, command.expansion = .ok expansion := by
  by_cases some : command.minZoom ≠ none ∨ command.maxZoom ≠ none
  · obtain ⟨range, valid⟩ := passes.zooms (.named given some)
    exact ⟨{ zooms := range }, by rw [expansion_of_some some, valid]; rfl⟩
  · have none : command.minZoom = none ∧ command.maxZoom = none := by tauto
    exact ⟨{ explicit := true }, if_pos none⟩

/-- With a configuration, maps and a cache, the work of a command can be planned. -/
theorem exists_plan (passes : ∀ check : Check, check.rank < 4 → command.Passes world check) :
    ∃ config maps operation, command.Loads world config ∧ command.Selects config maps ∧
      command.operation config.atlasOf = .ok operation ∧
      command.plan config = .ok { targets := maps, operation } := by
  obtain ⟨config, loads⟩ := (passes .config (by decide)).loads
  obtain ⟨maps, selects⟩ := (passes .selection (by decide)).selects loads
  obtain ⟨cached, given⟩ := (passes .cache (by decide)).cached loads
  obtain ⟨operation, works⟩ := @operation_of_cached command config cached given
  refine ⟨config, maps, operation, loads, selects, works, ?_⟩
  rw [plan_of_distinct ((passes .duplicate (by decide)).distinct loads), selects.targets_eq, works]
  rfl

theorem scope_of_region {text : String} (given : command.selection = .region text) :
    command.scope = (do return .region (← Input.bounds text) (← command.zooms)) := by
  simp only [scope, given]

theorem scope_of_list {file : Files.Path} {text : String}
    (given : command.selection = .list file text) :
    command.scope = (do return .list file (← Input.nameFormat text) (← command.expansion)) := by
  simp only [scope, given]

theorem scope_of_tile {name text : String} (given : command.selection = .tile name text) :
    command.scope = (do
      return .tile (← Input.tileName (← Input.nameFormat text) name) (← command.expansion)) := by
  simp only [scope, given]

theorem nameFormat_eq {text : String} {format : NameFormat}
    (read : NameFormat.read text = .ok format) : Input.nameFormat text = .ok format := by
  simp only [Input.nameFormat, read]
  rfl

theorem zooms_eq_error {low high : Nat} (rejected : high < low ∨ TilePyramid.maxZoom < high) :
    Input.zooms low high = .error (.invalidZoomRange low high) := by
  have invalid : ¬ (low ≤ high ∧ high ≤ TilePyramid.maxZoom) := by omega
  simp only [Input.zooms, ZoomRange.ofBounds?, dif_neg invalid]

/-- Where the values given to a command are good, it has a scope, with the tile list that was given. -/
theorem exists_scope (passes : ∀ check : Check, check.rank < 8 → command.Passes world check) :
    ∃ scope, command.scope = .ok scope ∧ ∀ file,
      (∃ format expansion, scope = .list file format expansion) ↔
        ∃ text, command.selection = .list file text := by
  cases given : command.selection with
  | region text =>
      obtain ⟨bounds, found⟩ := (passes .bounds (by decide)).bounds given
      obtain ⟨range, valid⟩ := (passes .zooms (by decide)).zooms (.region given)
      refine ⟨.region bounds range, ?_, by simp⟩
      rw [scope_of_region given, found, Command.zooms, valid]
      rfl
  | list file text =>
      obtain ⟨format, written⟩ := (passes .format (by decide)).format (.inl ⟨file, given⟩)
      obtain ⟨expansion, expands⟩ := (passes .zooms (by decide)).expansion (by simp [given])
      refine ⟨.list file format expansion, ?_, by simp⟩
      rw [scope_of_list given, nameFormat_eq written, expands]
      rfl
  | tile name text =>
      obtain ⟨format, written⟩ := (passes .format (by decide)).format (.inr ⟨name, given⟩)
      obtain ⟨tile, found⟩ := (passes .name (by decide)).name given written
      obtain ⟨expansion, expands⟩ := (passes .zooms (by decide)).expansion (by simp [given])
      refine ⟨.tile tile expansion, ?_, by simp⟩
      rw [scope_of_tile given, nameFormat_eq written, expands]
      show (Input.tileName _ _ >>= fun tile => _) = _
      rw [found]
      rfl

/-- A command that asks for no range of levels has no scope. -/
theorem scope_of_rejected_zooms {low high : Nat} (asked : command.AsksLevels low high)
    (rejected : high < low ∨ TilePyramid.maxZoom < high)
    (passes : ∀ check : Check, check.rank < 7 → command.Passes world check) :
    command.scope = .error (.invalidZoomRange low high) := by
  have invalid := zooms_eq_error rejected
  cases asked with
  | region given =>
      obtain ⟨bounds, found⟩ := (passes .bounds (by decide)).bounds given
      rw [scope_of_region given, found, Command.zooms, invalid]
      rfl
  | named unbounded some =>
      have failed : command.expansion = .error (.invalidZoomRange (command.minZoom.getD 0)
          (command.maxZoom.getD (command.minZoom.getD 0))) := by
        rw [expansion_of_some some, invalid]
        rfl
      cases given : command.selection with
      | region text => exact absurd given (unbounded text)
      | list file text =>
          obtain ⟨format, read⟩ := (passes .format (by decide)).format (.inl ⟨file, given⟩)
          rw [scope_of_list given, nameFormat_eq read, failed]
          rfl
      | tile name text =>
          obtain ⟨format, read⟩ := (passes .format (by decide)).format (.inr ⟨name, given⟩)
          obtain ⟨tile, found⟩ := (passes .name (by decide)).name given read
          rw [scope_of_tile given, nameFormat_eq read, failed]
          show (Input.tileName _ _ >>= fun tile => _) = _
          rw [found]
          rfl

end Passing

section Rejecting

variable {source : Map → Tile → SourceReply}

theorem prepare_on_of_unloaded (rejected : (loadConfig command.config).on source world =
    (.error failure, world)) : command.prepare.on source world = (.error failure, world) := by
  unfold prepare
  rw [Program.bind_eq, Action.on_bind, rejected]
  rfl

theorem prepare_on_of_unplanned {report : Report} (loads : command.Loads world config)
    (rejected : command.plan config = .error report) :
    command.prepare.on source world = (.error (.report report), world) := by
  rw [prepare_on loads, rejected]

/-- What is wrong with the values given to a command is told when its work is planned. -/
theorem prepare_on_of_unscoped {error : Error}
    (passes : ∀ check : Check, check.rank < 4 → command.Passes world check)
    (rejected : command.scope = .error error) :
    command.prepare.on source world = (.error (command.afterPlan (.error error)), world) := by
  obtain ⟨config, maps, operation, loads, -, -, planned⟩ := exists_plan passes
  rw [prepare_on loads, planned, rejected]

/-- A command of which a check finds a fault, while all checks of lower rank pass, is rejected. -/
theorem Finds.prepare_on (source : Map → Tile → SourceReply)
    (finds : command.Finds world check failure)
    (passes : ∀ earlier : Check, earlier.rank < check.rank → command.Passes world earlier) :
    ∃ log, command.prepare.on source world =
        (.error failure, { world with log := log ++ world.log }) ∧
      ∀ entry ∈ log, ∃ range, entry = .zooms range := by
  have unhindered (late : 4 ≤ check.rank) :
      ∀ early : Check, early.rank < 4 → command.Passes world early :=
    fun early below => passes early (Nat.lt_of_lt_of_le below late)
  cases finds with
  | unreadableConfig read file =>
      refine ⟨[], prepare_on_of_unloaded ?_, nofun⟩
      rw [loadConfig_on_error read, if_neg file]
  | configDirectory read =>
      refine ⟨[], prepare_on_of_unloaded ?_, nofun⟩
      rw [loadConfig_on_error read, if_pos rfl]
  | rejectedConfig read rejected =>
      refine ⟨[], prepare_on_of_unloaded ?_, nofun⟩
      rw [loadConfig_on_ok read, rejected]
  | @duplicate config before after map loads split distinct again =>
      refine ⟨[], prepare_on_of_unplanned loads ?_, nofun⟩
      simp only [plan, Config.atlas, split, Atlas.ofMaps_eq_error distinct again]
      rfl
  | unknownMap loads asked unknown =>
      have distinct := (passes .duplicate (by decide)).distinct loads
      refine ⟨[], prepare_on_of_unplanned loads ?_, nofun⟩
      rw [plan_of_distinct distinct, targets_of_unknown asked unknown]
      rfl
  | noMaps loads unasked empty =>
      have distinct := (passes .duplicate (by decide)).distinct loads
      refine ⟨[], prepare_on_of_unplanned loads ?_, nofun⟩
      rw [plan_of_distinct distinct, targets_of_none unasked empty]
      rfl
  | noCache loads missing =>
      have distinct := (passes .duplicate (by decide)).distinct loads
      obtain ⟨maps, selects⟩ := (passes .selection (by decide)).selects loads
      refine ⟨[], prepare_on_of_unplanned loads ?_, nofun⟩
      rw [plan_of_distinct distinct, selects.targets_eq, operation_of_uncached missing]
      rfl
  | bounds given rejected =>
      refine ⟨[], prepare_on_of_unscoped (unhindered (by decide)) ?_, nofun⟩
      simp only [scope_of_region given, Input.bounds, rejected]
      rfl
  | format given rejected =>
      refine ⟨[], prepare_on_of_unscoped (unhindered (by decide)) ?_, nofun⟩
      obtain ⟨file, given⟩ | ⟨name, given⟩ := given
      · simp only [scope_of_list given, Input.nameFormat, rejected]
        rfl
      · simp only [scope_of_tile given, Input.nameFormat, rejected]
        rfl
  | name given read rejected =>
      refine ⟨[], prepare_on_of_unscoped (unhindered (by decide)) ?_, nofun⟩
      rw [scope_of_tile given, nameFormat_eq read]
      show (Input.tileName _ _ >>= fun tile => _) = _
      simp only [Input.tileName, rejected]
      rfl
  | zooms asked rejected =>
      refine ⟨[], prepare_on_of_unscoped (unhindered (by decide)) ?_, nofun⟩
      exact scope_of_rejected_zooms asked rejected passes
  | @list file text fault given named read missing =>
      obtain ⟨config, maps, operation, loads, -, -, planned⟩ :=
        exists_plan (unhindered (by decide))
      obtain ⟨scope, asked, listed⟩ := exists_scope passes
      obtain ⟨format, expansion, rfl⟩ := (listed file).mpr ⟨text, given⟩
      refine ⟨[(Scope.list file format expansion).logEntry], ?_, by simp [Scope.logEntry]⟩
      rw [prepare_on loads, planned, asked]
      dsimp only [Scope.generator]
      rw [Program.bind_eq, Action.on_bind, TileList.ofFile_on named, read]
      cases fault <;> first | rfl | exact absurd rfl missing

/-- Of the faults that checks find, one is found by a check of lowest rank. -/
theorem Finds.exists_first (finds : command.Finds world check failure) :
    ∃ first reported, command.Finds world first reported ∧
      ∀ earlier : Check, earlier.rank < first.rank → command.Passes world earlier := by
  induction ranked : check.rank using Nat.strongRecOn generalizing check failure with
  | ind rank ih =>
      by_cases before : ∃ earlier found, earlier.rank < rank ∧ command.Finds world earlier found
      · obtain ⟨earlier, found, below, finds⟩ := before
        exact ih earlier.rank below finds rfl
      · refine ⟨check, failure, finds, fun earlier below found finds => before ?_⟩
        exact ⟨earlier, found, ranked ▸ below, finds⟩

/-- A command with something wrong is rejected: it fails with the fault that the first of the failing
checks finds, and of the world it has at most noted in the log which levels it was to work on. -/
theorem faulty_command_is_rejected (finds : command.Finds world check failure)
    (source : Map → Tile → SourceReply) (workers : Nat) :
    ∃ first reported log, command.Finds world first reported ∧
      (∀ other found, command.Finds world other found →
        first.rank < other.rank ∨ other = first ∧ found = reported) ∧
      (command.run (World.answer source) workers).run world =
        (.failed reported, { world with log := log ++ world.log }) ∧
      (∀ entry ∈ log, ∃ range, entry = .zooms range) ∧
      (Ending.failed reported).exitCode = 1 := by
  obtain ⟨first, reported, told, passes⟩ := finds.exists_first
  obtain ⟨log, prepared, noted⟩ := told.prepare_on source passes
  refine ⟨first, reported, log, told, ?_, ?_, noted, rfl⟩
  · intro other found finds
    obtain later | same | earlier := Nat.lt_trichotomy first.rank other.rank
    · exact .inl later
    · obtain rfl := Check.rank_injective same
      obtain ⟨_, again, -⟩ := finds.prepare_on source passes
      have same : Except.error reported = Except.error found :=
        congrArg Prod.fst (prepared.symm.trans again)
      cases same
      exact .inr ⟨rfl, rfl⟩
    · exact absurd finds (passes other earlier found)
  · rw [run_eq, prepared]

end Rejecting

/-- A command with a wrong name format, in a world where its configuration is missing. -/
def faultyPurge : Command where
  activity := .purge
  config := "config.yml"
  selection := .tile "0/0/0" "/zz"

/-- The missing configuration is told, not the wrong name format. -/
theorem missing_configuration_is_told_first :
    faultyPurge.Finds {} .format (faultyPurge.afterPlan
      (.error (.invalidNameFormat (NameFormat.Fault.message ⟨"/zz", .length⟩)))) ∧
    ∃ log, (faultyPurge.run (World.answer Map.fetchOffline) 1).run {} =
      (.failed (.report (.within s!"opening config file {Text.quoted .path faultyPurge.config}"
        (.message "No such file or directory (os error 2)"))), { log }) := by
  have format : faultyPurge.Finds {} .format _ := .format (.inr ⟨"0/0/0", rfl⟩) rfl
  have missing : faultyPurge.Finds {} .config _ := .unreadableConfig rfl nofun
  obtain ⟨first, reported, log, -, least, ran, -, -⟩ :=
    faulty_command_is_rejected format Map.fetchOffline 1
  obtain below | ⟨rfl, rfl⟩ := least .config _ missing
  · cases below
  · exact ⟨format, log ++ [], ran⟩

end TilePyramid.Command
