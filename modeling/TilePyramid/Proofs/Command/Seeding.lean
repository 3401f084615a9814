import TilePyramid.Proofs.Command.Purging
import TilePyramid.Proofs.Operation.Telling
import TilePyramid.World

/-!
# Seeding by a command

With a single worker and no threshold, a seed that succeeds has seeded its targets one after the
other. The log tells of each how long it took; the tiles that were found in the cache were skipped
and not fetched, which the log tells as well. Main statement: `seed_times_every_job`.
-/

set_option autoImplicit false

namespace TilePyramid

open Operation (SeededJob SeedsInTurn)

/-- The entry tells how long a job took. -/
def LogEntry.isTiming : LogEntry → Bool
  | .seeded _ _ => true
  | _ => false

namespace LogEntry

variable (duration : Nat → String) (job : Job)

theorem text_skipped : text duration (.skipped job) =
    s!"map ({job.map}) tile ({job.tile.text}) is already cached, skipping" := by
  have closing : ") is already cached, skipping" = ")" ++ " is already cached, skipping" := rfl
  simp only [text, Job.text, toString, closing, String.append_assoc]

theorem text_seeded (milliseconds : Nat) : text duration (.seeded job milliseconds) =
    s!"seeding map ({job.map}) tile ({job.tile.text}) took {duration milliseconds}ms" := by
  have opening : "seeding map (" = "seeding " ++ "map (" := rfl
  have closing : ") took " = ")" ++ " took " := rfl
  simp only [text, Job.text, toString, opening, closing, String.append_assoc]

end LogEntry

namespace Operation.SeededJob

/-- The lines of a job that was seeded without a threshold. -/
def lines (duration : Nat → String) : SeededJob → List String
  | ⟨job, true, milliseconds⟩ =>
      [s!"map ({job.map}) tile ({job.tile.text}) is already cached, skipping",
        s!"seeding map ({job.map}) tile ({job.tile.text}) took {duration milliseconds}ms"]
  | ⟨job, false, milliseconds⟩ =>
      [s!"seeding map ({job.map}) tile ({job.tile.text}) took {duration milliseconds}ms"]

theorem text_entries (duration : Nat → String) (seeded : SeededJob) :
    seeded.entries.map (LogEntry.text duration) = seeded.lines duration := by
  obtain ⟨job, found, milliseconds⟩ := seeded
  cases found <;> simp [entries, lines, LogEntry.text_skipped, LogEntry.text_seeded]

theorem level_entries {seeded : SeededJob} {entry : LogEntry} (member : entry ∈ seeded.entries) :
    entry.level = .info := by
  obtain ⟨job, found, milliseconds⟩ := seeded
  cases found with
  | true =>
      obtain rfl | rfl : entry = .skipped job ∨ entry = .seeded job milliseconds := by
        simpa [entries] using member
      · rfl
      · rfl
  | false =>
      obtain rfl : entry = .seeded job milliseconds := by simpa [entries] using member
      rfl

theorem countP_entries (seeded : List SeededJob) :
    (seeded.flatMap entries).countP LogEntry.isTiming = seeded.length := by
  induction seeded with
  | nil => rfl
  | cons one rest ih =>
      obtain ⟨job, found, milliseconds⟩ := one
      rw [List.flatMap_cons, List.countP_append, ih, List.length_cons, Nat.add_comm]
      cases found <;> rfl

end Operation.SeededJob

namespace Command

variable {law : SourceLaw} {answer : (effect : Effect) → StateM World effect.Reply}
  {command : Command} {world after : World} {config : Config} {workers : Nat}

section Preparing

theorem asks_loadConfig (file : Files.Path) : (loadConfig file).Asks Effect.isTold := by
  refine .ask rfl fun read => ?_
  rcases read with fault | text
  · cases fault <;> exact .done _
  · simp only [Program.done_bind]
    cases Config.ofBytes? text <;> exact .done _

theorem asks_ofFile (file : Files.Path) : (TileList.ofFile file).Asks Effect.isTold := by
  unfold TileList.ofFile
  split
  · exact .ask rfl fun _ => .done _
  · refine .ask rfl fun read => ?_
    rcases read with fault | text
    · cases fault <;> exact .done _
    · exact .done _

theorem asks_generator (targets : List String) : (command.generator targets).Asks Effect.isTold := by
  unfold generator
  cases command.scope with
  | error error => exact .done _
  | ok scope =>
      refine .ask rfl fun _ => ?_
      cases scope with
      | region bounds zooms => exact .done _
      | tile named expansion => exact .done _
      | list file format expansion => exact (asks_ofFile file).bind fun _ => .done _

theorem asks_prepare (command : Command) : command.prepare.Asks Effect.isTold := by
  refine (asks_loadConfig command.config).bind fun loaded => ?_
  rcases loaded with failure | config
  · exact .done _
  dsimp only
  cases command.plan config with
  | error report => exact .done _
  | ok plan =>
      refine (asks_generator plan.targets).bind fun generated => ?_
      cases generated <;> exact .done _

theorem asks_conclude (command : Command) (result : Except Error Unit) :
    (command.conclude result).Asks Effect.isTold := by
  rcases result with error | ⟨⟩
  · cases error <;> first | exact .done _ | exact .ask rfl fun _ => .done _
  · exact .ask rfl fun _ => .done _

end Preparing

/-- The cache of a configuration that a seed is planned with, and the work on each job. -/
theorem exists_seed {operation : Operation} (seeds : command.activity = .seed)
    (works : command.operation config.atlasOf = .ok operation) :
    ∃ cached, config.cache = some cached ∧ config.atlasOf.cache = some cached.build ∧
      operation = Operation.seed config.atlasOf cached.build
        { overwrite := command.overwrite, logThreshold := command.logThreshold } := by
  cases given : config.cache with
  | none =>
      rw [operation_of_uncached given] at works
      cases works
  | some cached =>
      have cache : config.atlasOf.cache = some cached.build := by simp [Config.atlasOf, given]
      simp only [Command.operation, seeds, Operation.seedOf, Atlas.requireCache, cache] at works
      cases works
      exact ⟨cached, rfl, cache, rfl⟩

theorem eq_of_finished (lawful : World.Lawful law answer) {result : Except Error Unit}
    (concluded : ((command.conclude result).run answer).run world = (.finished, after)) :
    result = .ok () ∧ after = { world with log := .finished command.activity :: world.log } := by
  have source : Map → Tile → SourceReply := fun _ _ => ⟨false, .never⟩
  rw [(asks_conclude command result).run_eq lawful source] at concluded
  rcases result with error | ⟨⟩
  · cases error <;> cases concluded
  · cases concluded
    exact ⟨rfl, rfl⟩

/-- A run that has not returned is taken for cancelled, so it has not succeeded. -/
theorem eq_some_of_getD {returned : Option (Except Error Unit)}
    (succeeded : returned.getD (.error .canceled) = .ok ()) : returned = some (.ok ()) := by
  cases returned with
  | none => cases succeeded
  | some result => exact congrArg some succeeded

/-- A command that finishes has nothing wrong with it, and its run has returned success. -/
theorem exists_run_of_finished (lawful : World.Lawful law answer)
    (ran : (command.run answer workers).run world = (.finished, after)) :
    ∃ config maps operation scope generator input moments pool last,
      command.Loads world config ∧ command.operation config.atlasOf = .ok operation ∧
      command.Asks config world maps scope (generator.offers.flatMap (Item.jobs maps)) none ∧
      Pool.Runs ⟨maps, operation⟩ (Pool.answersOf answer)
        (Pool.start generator (command.concurrency.getD workers) false,
          { world with input, log := scope.logEntry :: world.log }) moments (pool, last) ∧
      pool.result? = some (.ok ()) ∧
      after = { last with log := .finished command.activity :: last.log } := by
  have source : Map → Tile → SourceReply := fun _ _ => ⟨false, .never⟩
  rw [run_eq_of_answer, (asks_prepare command).run_eq lawful source] at ran
  obtain ⟨failure, log, -, rejected⟩ | ⟨config, maps, operation, scope, generator, input, loads,
    selects, works, covers, ⟨items, broken, gives, targets⟩, prepared⟩ :=
      command.prepare_cases source world
  · rw [rejected] at ran
    cases ran
  rw [prepared] at ran
  obtain ⟨moments, run, -⟩ := @Pool.exists_runs_run _ _ _ ⟨maps, operation⟩ _ answer
    (Pool.start generator (command.concurrency.getD workers) false)
    { world with input, log := scope.logEntry :: world.log }
  obtain ⟨succeeded, ended⟩ := eq_of_finished lawful ran
  have returned := eq_some_of_getD succeeded
  have unbroken := run.failure?_of_ok returned
  rw [gives.failure?_eq] at unbroken
  rw [← gives.offers_eq, unbroken] at targets
  exact ⟨config, maps, operation, scope, generator, input, moments, _, _, loads, works,
    ⟨selects, covers, targets⟩, run, returned, ended⟩

/-- All that a seed that succeeds writes to the log. -/
def seedLog (scope : Scope) (seeded : List SeededJob) : List LogEntry :=
  scope.logEntry :: seeded.flatMap SeededJob.entries ++ [.finished .seed]

theorem shown_seedLog (shows : command.verbosity.shows .info = true) (scope : Scope)
    (seeded : List SeededJob) : command.shown (seedLog scope seeded) = seedLog scope seeded := by
  refine shown_of_info shows fun entry member => ?_
  rw [seedLog, List.cons_append, List.mem_cons, List.mem_append, List.mem_flatMap,
    List.mem_singleton] at member
  obtain rfl | ⟨one, -, told⟩ | rfl := member
  · cases scope <;> rfl
  · exact SeededJob.level_entries told
  · rfl

theorem text_seedLog (duration : Nat → String) (scope : Scope) (seeded : List SeededJob) :
    (seedLog scope seeded).map (LogEntry.text duration) =
      scope.logEntry.text duration :: seeded.flatMap (SeededJob.lines duration) ++
        ["cache seed finished"] := by
  rw [seedLog, List.map_append, List.map_cons, List.map_flatMap]
  simp only [SeededJob.text_entries]
  rfl

/-- Every job is timed. -/
theorem countP_seedLog (scope : Scope) (seeded : List SeededJob) :
    (seedLog scope seeded).countP LogEntry.isTiming = seeded.length := by
  have untimed : scope.logEntry.isTiming = false := by cases scope <;> rfl
  rw [seedLog, List.countP_append, List.countP_cons, SeededJob.countP_entries, untimed]
  rfl

/-- A seed without a threshold and with a single worker that succeeds tells of each of its targets how
long it took. It also tells which of them were found in the cache. These were not asked of the source,
and all others were fetched and handed to the cache. So the numbers of times told and of tiles fetched
are the same only if nothing was found. -/
theorem seed_times_every_job (seeds : command.activity = .seed) (threshold : command.logThreshold = 0)
    (shows : command.verbosity.shows .info = true) (alone : command.concurrency.getD workers ≤ 1)
    (lawful : World.Lawful law answer)
    (ran : (command.run answer workers).run world = (.finished, after)) :
    ∃ config cached maps scope input seeded last logged,
      command.Loads world config ∧ config.cache = some cached ∧
      command.Asks config world maps scope (seeded.map SeededJob.job) none ∧
      SeedsInTurn law answer config.atlasOf cached.build command.overwrite
        { world with input, log := scope.logEntry :: world.log } seeded last ∧
      after = { last with log := .finished .seed :: last.log } ∧
      after.fetches = ((seeded.filter (!·.found)).map SeededJob.job).reverse ++ world.fetches ∧
      after.log = logged.reverse ++ world.log ∧
      (∀ duration, (command.shown logged).map (LogEntry.text duration) =
        scope.logEntry.text duration :: seeded.flatMap (SeededJob.lines duration) ++
          ["cache seed finished"]) ∧
      ((command.shown logged).countP LogEntry.isTiming + world.fetches.length =
          after.fetches.length ↔ ∀ one ∈ seeded, one.found = false) := by
  obtain ⟨config, maps, operation, scope, generator, input, moments, pool, last, loads, works, asks,
    run, returned, rfl⟩ := exists_run_of_finished lawful ran
  obtain ⟨cached, given, cache, rfl⟩ := exists_seed seeds works
  obtain ⟨seeded, same, turns⟩ :=
    Operation.exists_seedsInTurn lawful cache threshold (run.succession_of_ok alone returned)
  rw [← same] at asks
  rw [seeds]
  have shown := shown_seedLog shows scope seeded
  refine ⟨config, cached, maps, scope, input, seeded, last, seedLog scope seeded, loads, given, asks,
    turns, rfl, turns.fetches_eq, ?_, fun duration => ?_, ?_⟩
  · simp [seedLog, turns.log_eq]
  · rw [shown, text_seedLog]
  · rw [shown, countP_seedLog, turns.fetches_eq, List.length_append, List.length_reverse,
      List.length_map, Nat.add_right_cancel_iff, eq_comm, List.length_filter_eq_length_iff]
    simp

/-- Runs a command within a bound on the steps of its run. -/
def runWithin (source : Map → Tile → SourceReply) (bound workers : Nat) (command : Command)
    (world : World) : Option (Ending × World) :=
  match command.prepare.on source world with
  | (.error failure, prepared) => some (.failed failure, prepared)
  | (.ok (plan, generator), prepared) => do
      let start := Pool.start generator (command.concurrency.getD workers) false
      let ran ← Pool.runWithin plan (World.answer source) bound (List.range start.workers.length)
        start [] prepared
      return (command.conclude (ran.1.1.result?.getD (.error .canceled))).on source ran.2

theorem run_eq_of_runWithin {source : Map → Tile → SourceReply} {bound : Nat}
    {outcome : Ending × World} (ran : command.runWithin source bound workers world = some outcome) :
    (command.run (World.answer source) workers).run world = outcome := by
  rw [run_eq]
  unfold runWithin at ran
  generalize command.prepare.on source world = prepared at ran ⊢
  obtain ⟨failure | ⟨plan, generator⟩, prepared⟩ := prepared
  · exact Option.some.inj ran
  · obtain ⟨last, within, same⟩ := Option.bind_eq_some_iff.mp ran
    have complete := Pool.runInOrder_eq_of_runWithin within
    simp only [Pool.run, complete]
    exact Option.some.inj same

/-- A seed of a named tile, or of its relatives at some levels. -/
def sampleSeed (name : String) (low high : Option Nat) : Command where
  activity := .seed
  config := "config.yml"
  minZoom := low
  maxZoom := high
  selection := .tile name "/zxy"

/-- What a sample comes to if it finishes: what it fetched, and its lines. -/
def sampleTold (command : Command) : Option (List Job × List String) :=
  match command.runWithin (ruledSource []) 100 1 sampleWorld with
  | some (.finished, after) =>
      some (after.fetches, (command.shown after.log.reverse).map (LogEntry.text toString))
  | _ => none

theorem exists_run_of_told {fetches : List Job} {lines : List String}
    (told : sampleTold command = some (fetches, lines)) :
    ∃ after, (command.run (World.answer (ruledSource [])) 1).run sampleWorld = (.finished, after) ∧
      after.fetches = fetches ∧
      (command.shown after.log.reverse).map (LogEntry.text toString) = lines := by
  unfold sampleTold at told
  split at told
  · next after ran =>
    cases told
    exact ⟨after, run_eq_of_runWithin ran, rfl, rfl⟩
  · cases told

/-- A tile in the cache is not fetched, and is told to be skipped and to be seeded all the same. -/
theorem skipped_tile_is_timed :
    ∃ after, ((sampleSeed "0/0/0" none none).run (World.answer (ruledSource [])) 1).run sampleWorld =
        (.finished, after) ∧
      after.fetches = [] ∧
      ((sampleSeed "0/0/0" none none).shown after.log.reverse).map (LogEntry.text toString) =
        ["zoom list: explicit", "map (osm) tile (0/0/0) is already cached, skipping",
          "seeding map (osm) tile (0/0/0) took 0ms", "cache seed finished"] :=
  exists_run_of_told (by decide +kernel)

/-- Of two tiles one is cached. -/
def sampleSeedBelow : Command := sampleSeed "1/0/0" (some 0) (some 1)

theorem sampleSeedBelow_told : sampleTold sampleSeedBelow = some ([⟨"osm", ⟨1, 0, 0⟩⟩],
    ["zoom list: [0, 1]", "map (osm) tile (0/0/0) is already cached, skipping",
      "seeding map (osm) tile (0/0/0) took 0ms", "seeding map (osm) tile (1/0/0) took 0ms",
      "cache seed finished"]) := by
  decide +kernel

theorem sampleSeedBelow_asks {maps : List String} {scope : Scope} {jobs : List Job}
    {broken : Option Error}
    (asks : sampleSeedBelow.Asks sampleConfig sampleWorld maps scope jobs broken) :
    jobs = [sampleJob, ⟨"osm", ⟨1, 0, 0⟩⟩] ∧
      scope.logEntry = .zooms (some (.between 0 1 (by decide) (by decide))) := by
  obtain ⟨selects, covers, targets⟩ := asks
  have same : sampleSeedBelow.scope =
      .ok (.tile ⟨1, 0, 0⟩ { zooms := .between 0 1 (by decide) (by decide) }) := rfl
  cases same.symm.trans covers
  cases targets
  cases selects with
  | named asked known => cases asked
  | all unasked some => exact ⟨by decide +kernel, rfl⟩

theorem sample_tiles_are_timed : ∃ (after : World) (seeded : List SeededJob),
    (sampleSeedBelow.run (World.answer (ruledSource [])) 1).run sampleWorld = (.finished, after) ∧
    World.Lawful (.fixed fun map tile => .ok (usualContent map tile))
      (World.answer (ruledSource [])) ∧
    seeded.map (fun one => (one.job, one.found)) =
      [(sampleJob, true), (⟨"osm", ⟨1, 0, 0⟩⟩, false)] ∧
    after.fetches = [⟨"osm", ⟨1, 0, 0⟩⟩] ∧
    (sampleSeedBelow.shown after.log.reverse).map (LogEntry.text toString) =
      "zoom list: [0, 1]" :: seeded.flatMap (SeededJob.lines toString) ++
        ["cache seed finished"] := by
  have obeyed : (SourceLaw.fixed fun map tile => .ok (usualContent map tile)).Obeyed
      (ruledSource []) := fun _ _ _ brought => (Option.some.inj brought).symm
  have lawful := World.lawful_answer obeyed
  obtain ⟨after, ran, fetched, -⟩ := exists_run_of_told sampleSeedBelow_told
  obtain ⟨config, cached, maps, scope, input, seeded, last, logged, loads, given, asks, turns, -,
    fetches, noted, told, -⟩ :=
      @seed_times_every_job _ _ sampleSeedBelow _ _ 1 rfl rfl rfl (Nat.le_refl 1) lawful ran
  obtain rfl := Loads.eq samplePurge_loads loads
  obtain ⟨jobs, leveled⟩ := sampleSeedBelow_asks asks
  refine ⟨after, seeded, ran, lawful, ?_, fetched, ?_⟩
  · rw [fetched] at fetches
    match seeded, jobs with
    | [⟨_, first, _⟩, ⟨_, second, _⟩], jobs =>
      cases jobs
      cases first <;> cases second <;> first | rfl | cases fetches
  · have empty : sampleWorld.log = [] := rfl
    rw [noted, empty, List.append_nil, List.reverse_reverse, told, leveled]
    rfl

end Command

end TilePyramid
