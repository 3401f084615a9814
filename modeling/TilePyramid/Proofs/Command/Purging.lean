import TilePyramid.Proofs.Command.Targets
import TilePyramid.Proofs.Operation.Purging

/-!
# Purging by a command

With a directory cache and a single worker, a purge removes the entries of its targets one after the
other, in whatever order the tasks of its run make their steps. It succeeds only if none of them is
left, and where it stops early everything before has been removed. Main statement:
`purge_removes_exactly_its_targets`.
-/

set_option autoImplicit false

namespace TilePyramid.Command

open Text.Utf8 (Bytes)
open Files (Path Fault)

variable {source : Map → Tile → SourceReply} {command : Command} {world after : World}
  {config : Config} {root : Path} {maxZoom : Option Nat} {workers : Nat} {ending : Ending}

theorem cache_atlasOf (cached : config.cache = some (.directory root maxZoom)) :
    config.atlasOf.cache = some (Cache.directory root maxZoom) := by
  rw [Config.atlasOf, cached]
  rfl

theorem operation_of_purge (purges : command.activity = .purge)
    (cached : config.cache = some (.directory root maxZoom)) :
    command.operation config.atlasOf = .ok (Operation.purge config.atlasOf) := by
  simp only [operation, purges, Operation.purgeOf, Atlas.requireCache, cache_atlasOf cached]
  rfl

theorem conclude_on_ok : (command.conclude (.ok ())).on source world =
    (.finished, { world with log := .finished command.activity :: world.log }) := rfl

theorem conclude_on_error {error : Error} (proper : error ≠ .canceled) :
    (command.conclude (.error error)).on source world =
      (.failed (command.afterPlan (.error error)), world) := by
  cases error <;> first | rfl | exact absurd rfl proper

/-- A command is carried out: it is rejected while it is prepared, or its run returns, whatever the
order of its steps, and nobody has cancelled it. -/
inductive CarriesOut (command : Command) (source : Map → Tile → SourceReply) (workers : Nat)
    (world : World) : Ending → World → Prop where
  | rejected {failure : Failure} {after : World}
      (prepared : command.prepare.on source world = (.error failure, after)) :
      CarriesOut command source workers world (.failed failure) after
  | ran {plan : Plan Effect Effect.Reply} {generator : Generator} {between last after : World}
      {moments : List (Pool.Moment Effect Effect.Reply)} {pool : Pool Effect Effect.Reply}
      {result : Except Error Unit} {ending : Ending}
      (prepared : command.prepare.on source world = (.ok (plan, generator), between))
      (run : Pool.Runs plan (Pool.answersOf (World.answer source))
        (Pool.start generator (command.concurrency.getD workers) false, between) moments
        (pool, last))
      (uncancelled : pool.cancelled = false) (returned : pool.result? = some result)
      (concluded : (command.conclude result).on source last = (ending, after)) :
      CarriesOut command source workers world ending after

/-- A purge comes to its end when it is left to itself. -/
theorem carriesOut_run (purges : command.activity = .purge) (loads : command.Loads world config)
    (cached : config.cache = some (.directory root maxZoom)) (source : Map → Tile → SourceReply)
    (workers : Nat) :
    command.CarriesOut source workers world
      ((command.run (World.answer source) workers).run world).1
      ((command.run (World.answer source) workers).run world).2 := by
  rw [run_eq]
  obtain ⟨failure, log, -, rejected⟩ | ⟨_, maps, operation, scope, generator, input, found, -, works,
    -, ⟨items, broken, gives, -⟩, prepared⟩ := command.prepare_cases source world
  · rw [rejected]
    exact .rejected rejected
  obtain rfl := loads.eq found
  cases works.symm.trans (operation_of_purge purges cached)
  rw [prepared]
  obtain ⟨uncancelled, result, returned⟩ := @Pool.run_returns _ _ _
    ⟨maps, Operation.purge config.atlasOf⟩ _ (World.answer source) generator gives.waits
    (command.concurrency.getD workers) (Operation.independent_purge config.atlasOf)
    { world with input, log := scope.logEntry :: world.log }
  obtain ⟨moments, run, -⟩ := Pool.exists_runs_run (World.answer source) _ _
  refine .ran prepared run uncancelled returned ?_
  simp only [returned, Option.getD_some]

/-- A purge that is not rejected has purged targets up to one whose entry cannot be removed. -/
theorem CarriesOut.exists_purged (carried : command.CarriesOut source workers world ending after)
    (purges : command.activity = .purge) (alone : command.concurrency.getD workers ≤ 1)
    (loads : command.Loads world config)
    (cached : config.cache = some (.directory root maxZoom)) :
    ((∃ check failure, command.Finds world check failure) ∧
      ∃ failure log, ending = .failed failure ∧ after = { world with log }) ∨
    ∃ maps scope jobs broken, command.Asks config world maps scope jobs broken ∧
      ∃ input purged failed result last,
        PurgedUpTo root { world with input, log := scope.logEntry :: world.log } jobs purged failed
          last ∧
        MayReturn failed broken result ∧ (command.conclude result).on source last = (ending, after) := by
  obtain ⟨failure, log, faulty, rejected⟩ | ⟨_, maps, operation, scope, generator, input, found,
    selects, works, asked, ⟨items, broken, gives, targets⟩, ready⟩ :=
      command.prepare_cases source world
  · cases carried with
    | rejected prepared =>
        cases rejected.symm.trans prepared
        exact .inl ⟨faulty, _, _, rfl, rfl⟩
    | ran prepared => cases rejected.symm.trans prepared
  obtain rfl := loads.eq found
  cases works.symm.trans (operation_of_purge purges cached)
  cases carried with
  | rejected prepared => cases ready.symm.trans prepared
  | @ran _ _ _ last _ _ _ result _ prepared run uncancelled returned concluded =>
      cases ready.symm.trans prepared
      obtain ⟨failed, sequence, mayReturn⟩ := run.inSequence gives alone uncancelled returned
      obtain ⟨purged, upTo⟩ := sequence.purgedUpTo (cache_atlasOf cached) fun job member =>
        selects.names_subset (targets.map_mem job member)
      exact .inr ⟨maps, scope, _, broken, ⟨selects, asked, targets⟩, input, purged, failed, result,
        last, upTo, mayReturn, concluded⟩

theorem shown_of_info {logged : List LogEntry} (shows : command.verbosity.shows .info = true)
    (info : ∀ entry ∈ logged, entry.level = .info) : command.shown logged = logged := by
  rw [shown, List.filter_eq_self]
  intro entry member
  rw [info entry member, shows]

/-- The lines of a purge that succeeds. -/
theorem shown_purge (shows : command.verbosity.shows .info = true) (scope : Scope) (jobs : List Job)
    (duration : Nat → String) :
    (command.shown (scope.logEntry :: jobs.map .purged ++ [.finished .purge])).map
        (LogEntry.text duration) =
      scope.logEntry.text duration ::
        jobs.map (fun job => s!"purged map ({job.map}) tile ({job.tile.text})") ++
        ["cache purge finished"] := by
  have info : ∀ entry ∈ scope.logEntry :: jobs.map LogEntry.purged ++ [.finished .purge],
      entry.level = .info := by
    simp only [List.cons_append, List.mem_cons, List.mem_append, List.mem_map, List.not_mem_nil]
    rintro entry (rfl | ⟨job, -, rfl⟩ | rfl | ⟨⟨⟩⟩)
    · cases scope <;> rfl
    · rfl
    · rfl
  rw [shown_of_info shows info]
  simp only [List.map_append, List.map_cons, List.map_map, List.map_nil]
  rfl

/-- The text `{cache: {type: directory, path: tiles}, maps: [{name: osm}]}`. -/
def sampleText : Bytes :=
  [123, 99, 97, 99, 104, 101, 58, 32, 123, 116, 121, 112, 101, 58, 32, 100, 105, 114, 101, 99, 116,
    111, 114, 121, 44, 32, 112, 97, 116, 104, 58, 32, 116, 105, 108, 101, 115, 125, 44, 32, 109, 97,
    112, 115, 58, 32, 91, 123, 110, 97, 109, 101, 58, 32, 111, 115, 109, 125, 93, 125]

def sampleConfig : Config where
  cache := some (.directory "tiles" none)
  maps := [{ name := "osm" }]

/-- A configuration and one cached tile. -/
def sampleWorld : World where
  files :=
    (((((Files.Tree.empty.put ["work", "config.yml"] (.file sampleText)).put
      ["work", "tiles"] .directory).put
      ["work", "tiles", "osm"] .directory).put
      ["work", "tiles", "osm", "0"] .directory).put
      ["work", "tiles", "osm", "0", "0"] .directory).put
      ["work", "tiles", "osm", "0", "0", "0"] (.file [1])

def samplePurge : Command where
  activity := .purge
  config := "config.yml"
  selection := .tile "0/0/0" "/zxy"

theorem samplePurge_loads : samplePurge.Loads sampleWorld sampleConfig :=
  ⟨sampleText, sampleConfig, rfl, by decide +kernel, rfl⟩

theorem samplePurge_passes : ¬ ∃ check failure, samplePurge.Finds sampleWorld check failure := by
  rintro ⟨check, failure, finds⟩
  obtain ⟨first, reported, told, passes⟩ := finds.exists_first
  obtain ⟨log, prepared, -⟩ := told.prepare_on Map.fetchOffline passes
  have planned : samplePurge.plan sampleConfig =
      .ok ⟨["osm"], Operation.purge sampleConfig.atlasOf⟩ := rfl
  have asked : samplePurge.scope = .ok (.tile ⟨0, 0, 0⟩ { explicit := true }) := rfl
  rw [prepare_on samplePurge_loads, planned, asked] at prepared
  cases prepared

def sampleJob : Job := ⟨"osm", ⟨0, 0, 0⟩⟩

theorem samplePurge_asks {maps : List String} {scope : Scope} {jobs : List Job}
    {broken : Option Error} (asks : samplePurge.Asks sampleConfig sampleWorld maps scope jobs broken) :
    jobs = [sampleJob] ∧ broken = none ∧ scope.logEntry = .zooms none := by
  obtain ⟨selects, covers, targets⟩ := asks
  have same : samplePurge.scope = .ok (.tile ⟨0, 0, 0⟩ { explicit := true }) := rfl
  cases same.symm.trans covers
  cases targets
  cases selects with
  | named asked known => cases asked
  | all unasked some => exact ⟨rfl, rfl, rfl⟩

end TilePyramid.Command
