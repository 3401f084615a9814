import TilePyramid.Proofs.Operation.Alone
import TilePyramid.Proofs.Operation.Contract
import TilePyramid.World

/-!
# How operations fail

Work on a job can be cancelled, its map can be unknown, and the source and the cache can report
failures. Here is which of these there are, one relation for each function, and which error comes of
each. A cancellation that the source reports is one of the run. One that the cache reports is not: it
is told as a failure of the cache. Main statement: `Operation.failure_told_or_canceled`.
-/

set_option autoImplicit false

namespace TilePyramid

open Text.Utf8 (Bytes)

/-- A report of a cancellation is a cancellation within contexts. -/
theorem Report.isCanceled_iff {report : Report} :
    report.isCanceled = true ↔ ∃ contexts, report = (Report.error .canceled).withinAll contexts := by
  constructor
  · intro reported
    induction report with
    | error cause => exact ⟨[], by rw [Error.isCanceled_iff.mp reported]; rfl⟩
    | message text => cases reported
    | within context inner ih =>
        obtain ⟨contexts, rfl⟩ := ih reported
        exact ⟨contexts ++ [context], by simp [withinAll]⟩
  · rintro ⟨contexts, rfl⟩
    simp [isCanceled, Error.isCanceled]

section Failures

variable (source : Map → Tile → SourceReply) (cancelled : Bool)

namespace Atlas

/-- How asking the source fails. -/
inductive FetchFails (map : Map) (tile : Tile) : Error → Prop where
  | cancelled (before : cancelled = true) : FetchFails map tile .canceled
  | cancelledMeanwhile (running : cancelled = false)
      (waits : (source map tile).delivered? = none) (cancels : (source map tile).cancelsRun = true) :
      FetchFails map tile .canceled
  | reportsCancellation {report : Report} (running : cancelled = false)
      (failed : (source map tile).delivered? = some (.error report))
      (cancellation : report.isCanceled = true) : FetchFails map tile .canceled
  | reports {report : Report} (running : cancelled = false)
      (failed : (source map tile).delivered? = some (.error report))
      (other : report.isCanceled = false) : FetchFails map tile (.renderFailure report.text)

/-- How rendering a tile into a cache fails. -/
inductive RenderFails (cache : Cache) (map : Map) (tile : Tile) (world : World) : Error → Prop where
  | unfetched {error : Error} (failed : FetchFails source cancelled map tile error) :
      RenderFails cache map tile world error
  | unstored {content : Bytes} {report : Report} (running : cancelled = false)
      (delivered : (source map tile).delivered? = some (.ok content))
      (failed : ((cache.set { map := map.name, tile } content).on source
        (world.perform source (.fetch map tile)).2).1 = .error report) :
      RenderFails cache map tile world (.cacheFailure report.text)

end Atlas

namespace Operation

/-- Work on a job finds nothing in the cache or does not look, and so goes on from a world. -/
inductive Misses (cache : Cache) (overwrite : Bool) (job : Job) (world : World) : World → Prop where
  | overwrites (anew : overwrite = true) : Misses cache overwrite job world world
  | absent {looked : World} (fresh : overwrite = false)
      (missing : (cache.get (.ofJob job)).on source world = (.ok none, looked)) :
      Misses cache overwrite job world looked

/-- How seeding a job fails. -/
inductive SeedFails (atlas : Atlas) (cache : Cache) (overwrite : Bool) (job : Job) (world : World) :
    Error → Prop where
  | unknownMap {error : Error} (unknown : atlas.map? job.map = .error error) :
      SeedFails atlas cache overwrite job world error
  | unread {map : Map} {report : Report} (known : atlas.map? job.map = .ok map)
      (fresh : overwrite = false)
      (failed : ((cache.get (.ofJob job)).on source world).1 = .error report) :
      SeedFails atlas cache overwrite job world (.cacheFailure report.text)
  | unrendered {map : Map} {looked : World} {error : Error} (known : atlas.map? job.map = .ok map)
      (missed : Misses source cache overwrite job world looked)
      (failed : Atlas.RenderFails source cancelled cache (map.atLevel job.tile.level) job.tile looked
        error) : SeedFails atlas cache overwrite job world error

/-- How purging a job fails. -/
inductive PurgeFails (atlas : Atlas) (cache : Cache) (job : Job) (world : World) : Error → Prop where
  | cancelled (before : cancelled = true) : PurgeFails atlas cache job world .canceled
  | unknownMap {error : Error} (running : cancelled = false)
      (unknown : atlas.map? job.map = .error error) : PurgeFails atlas cache job world error
  | unpurged {map : Map} {report : Report} (running : cancelled = false)
      (known : atlas.map? job.map = .ok map)
      (failed : ((cache.purge (.ofJob job)).on source world).1 = .error report) :
      PurgeFails atlas cache job world (.cacheFailure report.text)

end Operation

end Failures

variable {source : Map → Tile → SourceReply} {cancelled : Bool} {world : World} {error : Error}

namespace Atlas

variable {atlas : Atlas} {cache : Cache} {map : Map} {tile : Tile}

theorem classify_ok (content : Bytes) : fetch.classify (.ok content) = .ok content := rfl

theorem classify_error (report : Report) : fetch.classify (.error report) =
    .error (if report.isCanceled then .canceled else .renderFailure report.text) := rfl

theorem outcome_eq_error_iff {reply : SourceReply} :
    outcome reply = some (.error error) ↔
      reply.delivered? = none ∧ reply.cancelsRun = true ∧ error = .canceled ∨
      ∃ report, reply.delivered? = some (.error report) ∧
        error = if report.isCanceled then .canceled else .renderFailure report.text := by
  unfold outcome
  cases reply.delivered? with
  | none => cases reply.cancelsRun <;> simp [@eq_comm _ error]
  | some result =>
      cases result with
      | ok content => simp [classify_ok]
      | error report => simp [classify_error, @eq_comm _ error]

theorem outcome_eq_ok_iff {reply : SourceReply} {content : Bytes} :
    outcome reply = some (.ok content) ↔ reply.delivered? = some (.ok content) := by
  unfold outcome
  cases reply.delivered? with
  | none => cases reply.cancelsRun <;> simp
  | some result => cases result <;> simp [classify_ok, classify_error]

theorem fetch_fails_iff : ((fetch map tile).on source cancelled world).1.1 = some (.error error) ↔
    FetchFails source cancelled map tile error := by
  cases cancelled with
  | true =>
      rw [fetch_on_cancelled]
      constructor
      · rintro ⟨⟩
        exact .cancelled rfl
      · rintro (⟨-⟩ | ⟨⟨⟩⟩ | ⟨⟨⟩⟩ | ⟨⟨⟩⟩)
        rfl
  | false =>
      rw [fetch_on]
      refine outcome_eq_error_iff.trans ⟨?_, ?_⟩
      · rintro (⟨waits, cancels, rfl⟩ | ⟨report, failed, rfl⟩)
        · exact .cancelledMeanwhile rfl waits cancels
        · split
          · next cancellation => exact .reportsCancellation rfl failed cancellation
          · next other => exact .reports rfl failed (Bool.eq_false_iff.mpr other)
      · rintro (⟨⟨⟩⟩ | ⟨-, waits, cancels⟩ | ⟨-, failed, cancellation⟩ | ⟨-, failed, other⟩)
        · exact .inl ⟨waits, cancels, rfl⟩
        · exact .inr ⟨_, failed, by rw [if_pos cancellation]⟩
        · exact .inr ⟨_, failed, by rw [if_neg (Bool.eq_false_iff.mp other)]⟩

theorem fetch_brings_iff {content : Bytes} :
    ((fetch map tile).on source cancelled world).1.1 = some (.ok content) ↔
      cancelled = false ∧ (source map tile).delivered? = some (.ok content) := by
  cases cancelled with
  | true => simp [fetch_on_cancelled]
  | false => simp [fetch_on, outcome_eq_ok_iff]

theorem mapError_cacheError_eq_error_iff {α : Type} {result : Except Report α} :
    result.mapError cacheError = .error error ↔
      ∃ report, result = .error report ∧ error = .cacheFailure report.text := by
  constructor
  · intro failed
    cases result with
    | ok done => cases failed
    | error report => exact ⟨report, rfl, (Except.error.inj failed).symm⟩
  · rintro ⟨report, rfl, rfl⟩
    rfl

theorem render_fails_iff (given : atlas.cache = some cache) :
    ((atlas.render map tile).on source cancelled world).1.1 = some (.error error) ↔
      RenderFails source cancelled cache map tile world error := by
  rw [render_on given]
  have fails {failure : Error} := @fetch_fails_iff source cancelled world failure map tile
  have brings {content : Bytes} := @fetch_brings_iff source cancelled world map tile content
  rcases fetched : (fetch map tile).on source cancelled world with
    ⟨⟨_ | failure | content, later⟩, after⟩
  · rw [fetched] at fails brings
    constructor
    · nofun
    · rintro (failed | ⟨running, delivered, -⟩)
      · cases fails.mpr failed
      · cases brings.mpr ⟨running, delivered⟩
  · rw [fetched] at fails brings
    simp only [Option.some.injEq, Except.error.injEq] at fails ⊢
    constructor
    · intro same
      exact .unfetched (fails.mp same)
    · rintro (failed | ⟨running, delivered, -⟩)
      · exact fails.mpr failed
      · cases brings.mpr ⟨running, delivered⟩
  · rw [fetched] at fails brings
    obtain ⟨running, delivered⟩ := brings.mp rfl
    have reached : after = (world.perform source (.fetch map tile)).2 := by
      rw [running, fetch_on] at fetched
      exact (congrArg Prod.snd fetched).symm
    subst reached
    simp only [Option.some.injEq, mapError_cacheError_eq_error_iff]
    constructor
    · rintro ⟨report, failed, rfl⟩
      exact .unstored running delivered failed
    · rintro (failed | ⟨-, again, failed⟩)
      · cases fails.mpr failed
      · rw [delivered] at again
        cases again
        exact ⟨_, failed, rfl⟩

theorem remove_fails_iff (given : atlas.cache = some cache) :
    ((atlas.remove map tile).on source cancelled world).1.1 = some (.error error) ↔
      ∃ report, ((cache.purge { map := map.name, tile }).on source world).1 = .error report ∧
        error = .cacheFailure report.text := by
  rw [remove_on given]
  simp only [Option.some.injEq, mapError_cacheError_eq_error_iff]

end Atlas

namespace Operation

variable {atlas : Atlas} {cache : Cache} {job : Job} {options : SeedOptions}

theorem eq_unknownMap_of_map? (unknown : atlas.map? job.map = .error error) :
    error = .unknownMap job.map := by
  unfold Atlas.map? at unknown
  split at unknown
  · cases unknown
  · cases unknown
    rfl

theorem seedFails_overwriting_iff {map : Map} (known : atlas.map? job.map = .ok map) :
    SeedFails source cancelled atlas cache true job world error ↔
      Atlas.RenderFails source cancelled cache (map.atLevel job.tile.level) job.tile world error := by
  refine ⟨?_, fun failed => .unrendered known (.overwrites rfl) failed⟩
  rintro (unknown | ⟨-, ⟨⟩⟩ | ⟨found, missed, failed⟩)
  · cases known.symm.trans unknown
  · cases known.symm.trans found
    cases missed with
    | overwrites => exact failed
    | absent fresh => cases fresh

theorem seedFails_looking_iff {map : Map} (known : atlas.map? job.map = .ok map) :
    SeedFails source cancelled atlas cache false job world error ↔
      (∃ report, ((cache.get (.ofJob job)).on source world).1 = .error report ∧
        error = .cacheFailure report.text) ∨
      ∃ looked, (cache.get (.ofJob job)).on source world = (.ok none, looked) ∧
        Atlas.RenderFails source cancelled cache (map.atLevel job.tile.level) job.tile looked
          error := by
  constructor
  · rintro (unknown | ⟨-, -, failed⟩ | ⟨found, missed, failed⟩)
    · cases known.symm.trans unknown
    · exact .inl ⟨_, failed, rfl⟩
    · cases known.symm.trans found
      cases missed with
      | overwrites anew => cases anew
      | absent _ missing => exact .inr ⟨_, missing, failed⟩
  · rintro (⟨report, failed, rfl⟩ | ⟨looked, missing, failed⟩)
    · exact .unread known rfl failed
    · exact .unrendered known (.absent rfl missing) failed

theorem seedTile_fails_iff (given : atlas.cache = some cache) {overwrite : Bool} :
    ((seedTile atlas cache overwrite job).on source cancelled world).1.1 = some (.error error) ↔
      SeedFails source cancelled atlas cache overwrite job world error := by
  unfold seedTile
  cases known : atlas.map? job.map with
  | error cause =>
      constructor
      · rintro ⟨⟩
        exact .unknownMap known
      · rintro (unknown | ⟨found, -, -⟩ | ⟨found, -, -⟩)
        · cases known.symm.trans unknown
          rfl
        · cases known.symm.trans found
        · cases known.symm.trans found
  | ok map =>
      cases overwrite with
      | true =>
          rw [seedFails_overwriting_iff known]
          exact Atlas.render_fails_iff given
      | false =>
          rw [seedFails_looking_iff known]
          show (Work.on source (Program.bind (isCached cache job) _) cancelled world).1.1 = _ ↔ _
          rw [Work.on_bind, isCached_on]
          rcases looks : (cache.get (.ofJob job)).on source world with ⟨report | ⟨_ | content⟩, after⟩
          · show some (Except.error (Atlas.cacheError report)) = _ ↔ _
            simp [Atlas.cacheError, @eq_comm _ error]
          · simpa [Work.afterwards] using Atlas.render_fails_iff given
          · show some (Except.ok ()) = _ ↔ _
            simp

theorem map_mapError_report_eq_iff {activity : Activity} {tile : Tile}
    {result : Option (Except Error Unit)} :
    result.map (Except.mapError (report activity tile)) = some (.error error) ↔
      ∃ cause, result = some (.error cause) ∧ error = report activity tile cause := by
  constructor
  · intro failed
    rcases result with _ | cause | done
    · cases failed
    · exact ⟨cause, rfl, (Except.error.inj (Option.some.inj failed)).symm⟩
    · cases failed
  · rintro ⟨cause, rfl, rfl⟩
    rfl

theorem seed_fails_iff (given : atlas.cache = some cache) :
    ((seed atlas cache options job).on source cancelled world).1.1 = some (.error error) ↔
      ∃ cause, SeedFails source cancelled atlas cache options.overwrite job world cause ∧
        error = report .seed job.tile cause := by
  rw [seed_on.1, map_mapError_report_eq_iff]
  exact exists_congr fun cause => and_congr_left fun _ => seedTile_fails_iff given

theorem purge_fails_iff (given : atlas.cache = some cache) :
    ((purge atlas job).on source cancelled world).1.1 = some (.error error) ↔
      ∃ cause, PurgeFails source cancelled atlas cache job world cause ∧
        error = report .purge job.tile cause := by
  cases cancelled with
  | true =>
      constructor
      · rintro ⟨⟩
        exact ⟨.canceled, .cancelled rfl, rfl⟩
      · rintro ⟨cause, ⟨-⟩ | ⟨⟨⟩⟩ | ⟨⟨⟩⟩, rfl⟩
        rfl
  | false =>
      cases known : atlas.map? job.map with
      | error cause =>
          have failed : ((purge atlas job).on source false world).1.1 =
              some (.error (report .purge job.tile cause)) := by
            unfold purge
            rw [known]
            rfl
          rw [failed]
          constructor
          · rintro ⟨⟩
            exact ⟨cause, .unknownMap rfl known, rfl⟩
          · rintro ⟨other, ⟨⟨⟩⟩ | ⟨-, unknown⟩ | ⟨-, found, -⟩, rfl⟩
            · cases known.symm.trans unknown
              rfl
            · cases known.symm.trans found
      | ok map =>
          have key : ({ map := map.name, tile := job.tile } : Cache.Key) = .ofJob job := by
            rw [Atlas.name_of_map? known, Cache.Key.ofJob]
          rw [(purge_on known).1, map_mapError_report_eq_iff]
          refine exists_congr fun cause => and_congr_left fun _ => ?_
          rw [Atlas.remove_fails_iff given, key]
          constructor
          · rintro ⟨report, failed, rfl⟩
            exact .unpurged rfl known failed
          · rintro (⟨⟨⟩⟩ | ⟨-, unknown⟩ | ⟨-, -, failed⟩)
            · cases known.symm.trans unknown
            · exact ⟨_, failed, rfl⟩

/-- How the operation of an activity fails on a job. -/
def Fails (source : Map → Tile → SourceReply) (cancelled : Bool) (atlas : Atlas) (cache : Cache)
    (options : SeedOptions) (job : Job) (world : World) : Activity → Error → Prop
  | .seed => SeedFails source cancelled atlas cache options.overwrite job world
  | .purge => PurgeFails source cancelled atlas cache job world

theorem SeedFails.told {overwrite : Bool} {cause : Error}
    (fails : SeedFails source cancelled atlas cache overwrite job world cause) :
    cause = .canceled ∨ cause = .unknownMap job.map ∨
      (∃ report : Report, cause = .cacheFailure report.text) ∨
      ∃ report : Report, report.isCanceled = false ∧ cause = .renderFailure report.text := by
  cases fails with
  | unknownMap unknown => exact .inr (.inl (eq_unknownMap_of_map? unknown))
  | unread => exact .inr (.inr (.inl ⟨_, rfl⟩))
  | unrendered _ _ failed =>
      cases failed with
      | unstored => exact .inr (.inr (.inl ⟨_, rfl⟩))
      | unfetched failed =>
          cases failed with
          | cancelled => exact .inl rfl
          | cancelledMeanwhile => exact .inl rfl
          | reportsCancellation => exact .inl rfl
          | reports _ _ other => exact .inr (.inr (.inr ⟨_, other, rfl⟩))

theorem PurgeFails.told {cause : Error}
    (fails : PurgeFails source cancelled atlas cache job world cause) :
    cause = .canceled ∨ cause = .unknownMap job.map ∨
      ∃ report : Report, cause = .cacheFailure report.text := by
  cases fails with
  | cancelled => exact .inl rfl
  | unknownMap _ unknown => exact .inr (.inl (eq_unknownMap_of_map? unknown))
  | unpurged => exact .inr (.inr ⟨_, rfl⟩)

theorem report_of_ne {activity : Activity} {tile : Tile} {cause : Error} (other : cause ≠ .canceled) :
    report activity tile cause = .tileFailed activity tile cause := by
  rw [report, if_neg]
  simpa using other

/-- An operation fails exactly if something of `Fails` happens. A cancellation is passed on as it is,
all else is told with the activity and the tile around the failure, which is no cancellation and not
about a tile again. When the source reports a cancellation, within whatever contexts, the operation
is cancelled. -/
theorem failure_told_or_canceled {activity : Activity} {operation : Operation}
    (given : atlas.cache = some cache) (made : Operation.of atlas options activity = .ok operation) :
    (∀ error, ((operation job).on source cancelled world).1.1 = some (.error error) ↔
      ∃ cause, Fails source cancelled atlas cache options job world activity cause ∧
        error = report activity job.tile cause) ∧
    (∀ error, ((operation job).on source cancelled world).1.1 = some (.error error) →
      error = .canceled ∨ ∃ cause, error = .tileFailed activity job.tile cause ∧
        (cause = .unknownMap job.map ∨ (∃ report : Report, cause = .cacheFailure report.text) ∨
          ∃ report : Report, report.isCanceled = false ∧ cause = .renderFailure report.text)) ∧
    ∀ map looked contexts, activity = .seed → atlas.map? job.map = .ok map →
      Misses source cache options.overwrite job world looked →
      (source (map.atLevel job.tile.level) job.tile).delivered? =
        some (.error ((Report.error .canceled).withinAll contexts)) →
      ((operation job).on source cancelled world).1.1 = some (.error .canceled) := by
  have tells : ∀ error, ((operation job).on source cancelled world).1.1 = some (.error error) ↔
      ∃ cause, Fails source cancelled atlas cache options job world activity cause ∧
        error = report activity job.tile cause := by
    intro error
    cases activity with
    | seed =>
        rw [of_seed given] at made
        cases made
        exact seed_fails_iff given
    | purge =>
        rw [of_purge given] at made
        cases made
        exact purge_fails_iff given
  refine ⟨tells, ?_, ?_⟩
  · intro error failed
    obtain ⟨cause, fails, rfl⟩ := (tells error).mp failed
    have told : cause = .canceled ∨ cause = .unknownMap job.map ∨
        (∃ report : Report, cause = .cacheFailure report.text) ∨
        ∃ report : Report, report.isCanceled = false ∧ cause = .renderFailure report.text := by
      cases activity with
      | seed => exact SeedFails.told fails
      | purge => exact (PurgeFails.told fails).imp_right (Or.imp_right .inl)
    by_cases cancellation : cause = .canceled
    · subst cancellation
      exact .inl rfl
    · exact .inr ⟨cause, report_of_ne cancellation, told.resolve_left cancellation⟩
  · rintro map looked contexts rfl known missed delivered
    refine (tells .canceled).mpr ⟨.canceled, .unrendered known missed (.unfetched ?_), rfl⟩
    cases cancelled with
    | true => exact .cancelled rfl
    | false => exact .reportsCancellation rfl delivered (Report.isCanceled_iff.mpr ⟨contexts, rfl⟩)

/-- The atlas of a map and memory that fails by rules. -/
def ruledAtlas (rules : List CacheRule) : Atlas :=
  ⟨[{ name := "a" }], some (Cache.ruled rules (.memory none))⟩

def ruledSeed (rules : List CacheRule) : Operation :=
  seed (ruledAtlas rules) (Cache.ruled rules (.memory none)) {}

/-- A source that is cancelled while it asks another server. -/
def interruptedSource : Map → Tile → SourceReply :=
  ruledSource [⟨{}, .fail (.within "asking the server" (.error .canceled))⟩]

theorem cancellation_of_source_is_passed_on :
    (ruledAtlas []).cache = some (Cache.ruled [] (.memory none)) ∧
      ((ruledSeed [] ⟨"a", ⟨0, 0, 0⟩⟩).on interruptedSource false {}).1.1 =
        some (.error .canceled) := by
  have given : (ruledAtlas []).cache = some (Cache.ruled [] (.memory none)) := rfl
  have made : Operation.of (ruledAtlas []) {} .seed = .ok (ruledSeed []) := rfl
  have known : (ruledAtlas []).map? "a" = .ok { name := "a" } := by rfl
  have missed : Misses interruptedSource (Cache.ruled [] (.memory none)) false ⟨"a", ⟨0, 0, 0⟩⟩ {} {} :=
    .absent rfl rfl
  obtain ⟨-, -, passed⟩ := failure_told_or_canceled given made
  exact ⟨given, passed _ _ ["asking the server"] rfl known missed rfl⟩

/-- A cancellation that the cache reports is told as a failure of the cache, wherever it comes up. -/
theorem cancellation_of_cache_is_told_as_failure :
    ((ruledSeed [⟨.get, none, .error .canceled⟩] ⟨"a", ⟨0, 0, 0⟩⟩).on (ruledSource []) false {}).1.1 =
        some (.error (.tileFailed .seed ⟨0, 0, 0⟩ (.cacheFailure "operation canceled"))) ∧
      ((ruledSeed [⟨.set, none, .error .canceled⟩] ⟨"a", ⟨0, 0, 0⟩⟩).on (ruledSource []) false {}).1.1 =
        some (.error (.tileFailed .seed ⟨0, 0, 0⟩ (.cacheFailure "operation canceled"))) ∧
      ((purge (ruledAtlas [⟨.purge, none, .error .canceled⟩]) ⟨"a", ⟨0, 0, 0⟩⟩).on (ruledSource []) false
          {}).1.1 =
        some (.error (.tileFailed .purge ⟨0, 0, 0⟩ (.cacheFailure "operation canceled"))) := by
  have known {rules : List CacheRule} : (ruledAtlas rules).map? "a" = .ok { name := "a" } := by rfl
  refine ⟨?_, ?_, ?_⟩
  · exact (seed_fails_iff rfl).mpr ⟨_, .unread known rfl rfl, rfl⟩
  · exact (seed_fails_iff rfl).mpr ⟨_, .unrendered known (.absent rfl rfl) (.unstored rfl rfl rfl), rfl⟩
  · exact (purge_fails_iff rfl).mpr ⟨_, .unpurged rfl known rfl, rfl⟩

end Operation

end TilePyramid
