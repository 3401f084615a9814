import TilePyramid.Config
import TilePyramid.Proofs.Operation.Contract
import TilePyramid.Proofs.Pool.Succession
import TilePyramid.Proofs.World.Asking

/-!
# What seeding tells of a job

Seeding a job succeeds in two ways: its tile is found in the cache and skipped, or it is fetched and
handed to the cache. Without a threshold the log then tells how long that took, in both cases. Main
statement: `exists_seedsInTurn`.
-/

set_option autoImplicit false

namespace TilePyramid

open Pool (answersOf Succession)

theorem World.Lawful.admits {law : SourceLaw} {answer : (effect : Effect) → StateM World effect.Reply}
    {effect : Effect} {world after : World} {reply : effect.Reply} (lawful : World.Lawful law answer)
    (answered : answersOf answer effect world reply after) :
    World.Admits law effect world reply after := by
  have admits := lawful effect world
  have same : (answer effect).run world = (reply, after) := answered
  rwa [same] at admits

section Caches

variable (cached : CacheConfig) (key : Cache.Key)

theorem asks_get : (cached.build.get key).Asks Effect.isLook := by
  cases cached with
  | memory maxZoom => exact .ask rfl fun _ => .done _
  | directory root maxZoom =>
      refine .ask rfl fun read => ?_
      rcases read with fault | content
      · cases fault <;> exact .done _
      · exact .done _

theorem asks_set (content : Text.Utf8.Bytes) :
    (cached.build.set key content).Asks Effect.isStorage := by
  cases cached with
  | memory maxZoom =>
      simp only [CacheConfig.build, Cache.memory]
      split
      · exact .ask rfl fun _ => .done _
      · exact .done _
  | directory root maxZoom =>
      simp only [CacheConfig.build, Cache.directory]
      split
      · exact .done _
      refine .ask rfl fun made => ?_
      rcases made with fault | ⟨⟩
      · exact .done _
      refine .ask rfl fun written => ?_
      rcases written with fault | ⟨⟩
      · exact .done _
      refine .ask rfl fun moved => ?_
      rcases moved with fault | ⟨⟩ <;> exact .done _

end Caches

namespace Operation

variable {law : SourceLaw} {answer : (effect : Effect) → StateM World effect.Reply} {atlas : Atlas}
  {cached : CacheConfig} {overwrite : Bool} {job : Job} {world after : World}

/-- How the tile of a job comes to be in the cache: whether it was there, and the world before and
after. A tile that is skipped is not asked of the source, and what was brought for another one is
handed to the cache. -/
inductive SeedsTile (law : SourceLaw) (answer : (effect : Effect) → StateM World effect.Reply)
    (atlas : Atlas) (cache : Cache) (overwrite : Bool) (job : Job) : Bool → World → World → Prop where
  | skips {content : Text.Utf8.Bytes} {world : World} (unforced : overwrite = false)
      (held : ((cache.get (.ofJob job)).run answer).run world = (.ok (some content), world)) :
      SeedsTile law answer atlas cache overwrite job true world
        { world with log := .skipped job :: world.log }
  | stores {map : Map} {content : Text.Utf8.Bytes} {store : Table String Text.Utf8.Bytes}
      {files : Files.Tree} {world : World}
      (absent : overwrite = false →
        ((cache.get (.ofJob job)).run answer).run world = (.ok none, world))
      (known : atlas.map? job.map = .ok map)
      (brought : law (map.atLevel job.tile.level) job.tile (.ok content))
      (handed : ((cache.set (.ofJob job) content).run answer).run
          { world with fetches := job :: world.fetches } =
        (.ok (), { world with store, files, fetches := job :: world.fetches })) :
      SeedsTile law answer atlas cache overwrite job false world
        { world with store, files, fetches := job :: world.fetches }

section Yielding

variable {map : Map} {tile : Tile} {content : Text.Utf8.Bytes}

theorem eq_ok_of_classify {result : Except Report Text.Utf8.Bytes}
    (classified : Atlas.fetch.classify result = .ok content) : result = .ok content := by
  cases result with
  | ok held =>
      cases classified
      rfl
  | error report => cases classified

theorem fetched_of_mayYield (lawful : World.Lawful law answer)
    (yields : Task.MayYield (answersOf answer) (Atlas.fetch map tile) world (.ok content) after) :
    law map tile (.ok content) ∧
      after = { world with fetches := ⟨map.name, tile⟩ :: world.fetches } := by
  cases yields with
  | isCancelled cancelled yields =>
    cases cancelled with
    | true => cases yields.eq_of_done.1
    | false =>
      cases yields with
      | @effect _ _ reply _ between _ _ asked yields =>
        obtain ⟨obeyed, rfl⟩ := (lawful.admits asked).fetch
        obtain ⟨cancels, answered⟩ := reply
        -- Whether the source cancels the run or not, what counts is its answer.
        simp only [Program.done_bind] at yields
        have yields := Task.MayYield.of_cancelIf yields
        cases answered with
        | never =>
            cases yields with
            | untilCancelled yields => cases yields.eq_of_done.1
        | later result =>
            cases yields with
            | isCancelled cancelled yields =>
              cases cancelled with
              | true => cases yields.eq_of_done.1
              | false =>
                obtain ⟨same, rfl⟩ := yields.eq_of_done
                obtain rfl := eq_ok_of_classify same.symm
                exact ⟨obeyed _ rfl, rfl⟩
        | now result =>
            obtain ⟨same, rfl⟩ := yields.eq_of_done
            obtain rfl := eq_ok_of_classify same.symm
            exact ⟨obeyed _ rfl, rfl⟩

/-- A tile that was rendered was fetched, and the cache took what was brought. -/
theorem rendered_of_mayYield (lawful : World.Lawful law answer)
    (given : atlas.cache = some cached.build)
    (yields : Task.MayYield (answersOf answer) (atlas.render map tile) world (.ok ()) after) :
    ∃ content store files, law map tile (.ok content) ∧
      ((cached.build.set { map := map.name, tile } content).run answer).run
          { world with fetches := ⟨map.name, tile⟩ :: world.fetches } = (.ok (), after) ∧
      after = { world with store, files, fetches := ⟨map.name, tile⟩ :: world.fetches } := by
  unfold Atlas.render Atlas.requireCache at yields
  rw [given] at yields
  obtain ⟨fetched, between, head, yields⟩ := Task.MayYield.exists_of_bind yields
  cases fetched with
  | error error => cases yields.eq_of_done.1
  | ok content =>
    obtain ⟨obeyed, rfl⟩ := fetched_of_mayYield lawful head
    obtain ⟨stored, last, storing, yields⟩ := Task.MayYield.exists_of_bind yields
    obtain ⟨same, rfl⟩ := yields.eq_of_done
    cases stored with
    | error report => cases same
    | ok done =>
      have performed := storing.run_eq_of_ofProgram
      obtain ⟨store, files, changed⟩ := (asks_set cached _ content).frame lawful
        { world with fetches := ⟨map.name, tile⟩ :: world.fetches }
      rw [performed] at changed
      exact ⟨content, store, files, obeyed, performed, changed⟩

/-- Looking for a tile changes nothing but the log, which tells of one that was found. -/
theorem looked_of_mayYield (lawful : World.Lawful law answer) {found : Bool}
    (yields : Task.MayYield (answersOf answer) (isCached cached.build job) world (.ok found) after) :
    ∃ content, content.isSome = found ∧
      ((cached.build.get (.ofJob job)).run answer).run world = (.ok content, world) ∧
      after = if found then { world with log := .skipped job :: world.log } else world := by
  obtain ⟨held, between, head, yields⟩ := Task.MayYield.exists_of_bind yields
  have performed := head.run_eq_of_ofProgram
  obtain rfl : between = world := by
    have kept := (asks_get cached (.ofJob job)).unchanged lawful world
    rwa [performed] at kept
  cases held with
  | error report => cases yields.eq_of_done.1
  | ok content =>
    cases content with
    | none =>
        obtain ⟨same, rfl⟩ := yields.eq_of_done
        cases same
        exact ⟨none, rfl, performed, rfl⟩
    | some content =>
        obtain ⟨_, last, logged, yields⟩ := Task.MayYield.exists_of_bind yields
        obtain ⟨same, rfl⟩ := yields.eq_of_done
        cases same
        exact ⟨some content, rfl, performed, (lawful.admits logged.of_perform).log⟩

theorem seedsTile_of_mayYield (lawful : World.Lawful law answer)
    (given : atlas.cache = some cached.build)
    (yields : Task.MayYield (answersOf answer) (seedTile atlas cached.build overwrite job) world
      (.ok ()) after) :
    ∃ found, SeedsTile law answer atlas cached.build overwrite job found world after := by
  unfold seedTile at yields
  cases known : atlas.map? job.map with
  | error error =>
      rw [known] at yields
      cases yields.eq_of_done.1
  | ok map =>
    rw [known] at yields
    have stores (absent : overwrite = false →
          ((cached.build.get (.ofJob job)).run answer).run world = (.ok none, world))
        (yields : Task.MayYield (answersOf answer)
          (atlas.render (map.atLevel job.tile.level) job.tile) world (.ok ()) after) :
        SeedsTile law answer atlas cached.build overwrite job false world after := by
      obtain ⟨content, store, files, brought, handed, rfl⟩ := rendered_of_mayYield lawful given yields
      rw [Map.name_atLevel, Atlas.name_of_map? known] at handed ⊢
      exact .stores absent known brought handed
    cases overwrite with
    | true => exact ⟨false, stores nofun yields⟩
    | false =>
      obtain ⟨looked, between, head, yields⟩ := Task.MayYield.exists_of_bind yields
      cases looked with
      | error error => cases yields.eq_of_done.1
      | ok found =>
        obtain ⟨content, same, held, rfl⟩ := looked_of_mayYield lawful head
        cases found with
        | true =>
            obtain ⟨-, rfl⟩ := yields.eq_of_done
            obtain ⟨content, rfl⟩ := Option.isSome_iff_exists.mp same
            exact ⟨true, .skips rfl held⟩
        | false =>
            obtain rfl := Option.isNone_iff_eq_none.mp (by simpa using same)
            exact ⟨false, stores (fun _ => held) yields⟩

/-- Without a threshold, seeding a job tells how long it took, whether the tile was skipped or not. -/
theorem seeded_of_mayYield {options : SeedOptions} (lawful : World.Lawful law answer)
    (given : atlas.cache = some cached.build) (threshold : options.logThreshold = 0)
    (yields : Task.MayYield (answersOf answer) (seed atlas cached.build options job) world (.ok ())
      after) :
    ∃ found between milliseconds,
      SeedsTile law answer atlas cached.build options.overwrite job found world between ∧
      after = { between with log := .seeded job milliseconds :: between.log } := by
  obtain ⟨started, _, clock, working⟩ := Task.MayYield.exists_of_bind yields
  obtain rfl := (lawful.admits clock.of_perform).eq_of_clock
  obtain ⟨result, between, head, telling⟩ := Task.MayYield.exists_of_bind working
  cases result with
  | error error => cases telling.eq_of_done.1
  | ok done =>
    obtain ⟨found, tile⟩ := seedsTile_of_mayYield lawful given head
    obtain ⟨ended, _, clock, logging⟩ := Task.MayYield.exists_of_bind telling
    obtain rfl := (lawful.admits clock.of_perform).eq_of_clock
    simp only [threshold, Nat.zero_le, if_true] at logging
    obtain ⟨_, last, logged, ending⟩ := Task.MayYield.exists_of_bind logging
    obtain ⟨-, rfl⟩ := ending.eq_of_done
    exact ⟨found, _, ended - started, tile, (lawful.admits logged.of_perform).log⟩

end Yielding

/-- A job that was seeded: whether its tile was found in the cache, and how long that took. -/
structure SeededJob where
  job : Job
  found : Bool
  milliseconds : Nat

/-- What the log says of a job that was seeded without a threshold. -/
def SeededJob.entries (seeded : SeededJob) : List LogEntry :=
  (if seeded.found then [.skipped seeded.job] else []) ++ [.seeded seeded.job seeded.milliseconds]

/-- Jobs are seeded one after the other, and of each the log tells how long it took. -/
inductive SeedsInTurn (law : SourceLaw) (answer : (effect : Effect) → StateM World effect.Reply)
    (atlas : Atlas) (cache : Cache) (overwrite : Bool) (first : World) :
    List SeededJob → World → Prop where
  | nothing : SeedsInTurn law answer atlas cache overwrite first [] first
  | further {past : List SeededJob} {world after : World} (seeded : SeededJob)
      (earlier : SeedsInTurn law answer atlas cache overwrite first past world)
      (tile : SeedsTile law answer atlas cache overwrite seeded.job seeded.found world after) :
      SeedsInTurn law answer atlas cache overwrite first (past ++ [seeded])
        { after with log := .seeded seeded.job seeded.milliseconds :: after.log }

theorem exists_seedsInTurn {options : SeedOptions} {jobs : List Job}
    (lawful : World.Lawful law answer) (given : atlas.cache = some cached.build)
    (threshold : options.logThreshold = 0)
    (succession : Succession (answersOf answer) (seed atlas cached.build options) world jobs after) :
    ∃ seeded : List SeededJob, seeded.map SeededJob.job = jobs ∧
      SeedsInTurn law answer atlas cached.build options.overwrite world seeded after := by
  induction succession with
  | nothing => exact ⟨[], rfl, .nothing⟩
  | @further jobs job state after past last ih =>
      obtain ⟨seeded, same, earlier⟩ := ih
      obtain ⟨found, between, milliseconds, tile, rfl⟩ :=
        seeded_of_mayYield lawful given threshold last
      exact ⟨seeded ++ [⟨job, found, milliseconds⟩], by simp [same], .further _ earlier tile⟩

namespace SeedsInTurn

variable {cache : Cache} {seeded : List SeededJob}

theorem log_eq (turns : SeedsInTurn law answer atlas cache overwrite world seeded after) :
    after.log = (seeded.flatMap SeededJob.entries).reverse ++ world.log := by
  induction turns with
  | nothing => rfl
  | further seeded earlier tile ih =>
      obtain ⟨job, found, milliseconds⟩ := seeded
      cases tile <;> simp [SeededJob.entries, ih]

/-- What is fetched are the tiles that are not found, each once. -/
theorem fetches_eq (turns : SeedsInTurn law answer atlas cache overwrite world seeded after) :
    after.fetches =
      ((seeded.filter (!·.found)).map SeededJob.job).reverse ++ world.fetches := by
  induction turns with
  | nothing => rfl
  | further seeded earlier tile ih =>
      obtain ⟨job, found, milliseconds⟩ := seeded
      cases tile <;> simp [ih]

end SeedsInTurn

end Operation

end TilePyramid
