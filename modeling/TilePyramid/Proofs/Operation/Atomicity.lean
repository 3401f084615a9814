import TilePyramid.Proofs.Operation.Failures
import TilePyramid.Proofs.Operation.Targets
import TilePyramid.Proofs.World.Conduct

/-!
# Work on one job, in a run that may be cancelled at any time

Seeding calls the source once or not at all, and stores what was brought or leaves the cache as it
is. Which of these happens is known from what the cache answers and what the work sees when it looks
whether the run is cancelled. Main statement: `Operation.work_on_job_is_atomic`.
-/

set_option autoImplicit false

namespace TilePyramid

open Text.Utf8 (Bytes)
open Work (Conduct looks looks_append looks_nil calls calls_append exists_conduct_on)

/-- What a source delivers to a task that looks at its run before it calls, and once more when an
answer comes that has taken its time. -/
def SourceReply.deliveredTo (reply : SourceReply) (looks : List Bool) :
    Option (Except Report Bytes) :=
  match reply.answer, looks with
  | .now result, [false] => some result
  | .later result, [false, false] => some result
  | _, _ => none

theorem SourceReply.deliveredTo_refused {reply : SourceReply} :
    reply.deliveredTo [true] = none := by
  unfold deliveredTo
  split
  · next looked => cases looked
  · next looked => cases looked
  · rfl

theorem mapError_eq_ok_iff {ε ε' α : Type} {tell : ε → ε'} {result : Except ε α} {value : α} :
    result.mapError tell = .ok value ↔ result = .ok value := by
  cases result <;> simp [Except.mapError]

namespace World

/-- The world holds the same content in memory and the same files. -/
def SameStock (world after : World) : Prop :=
  after.store = world.store ∧ after.files = world.files

theorem SameStock.refl (world : World) : world.SameStock world := ⟨rfl, rfl⟩

theorem SameStock.trans {first second third : World} (earlier : first.SameStock second)
    (later : second.SameStock third) : first.SameStock third :=
  ⟨later.1.trans earlier.1, later.2.trans earlier.2⟩

end World

/-! ## Memory that fails -/

namespace Cache

/-- The programs of a cache ask for stored content only. One that looks up or fails changes nothing,
and whether content can be stored is up to its key alone. -/
structure Atomic (source : Map → Tile → SourceReply) (cache : Cache) : Prop where
  asks_get : ∀ key, (cache.get key).Asks Effect.isStorage
  asks_set : ∀ key content, (cache.set key content).Asks Effect.isStorage
  asks_purge : ∀ key, (cache.purge key).Asks Effect.isStorage
  get_snd : ∀ key world, ((cache.get key).on source world).2 = world
  set_fst : ∀ key content world other,
    ((cache.set key content).on source world).1 = ((cache.set key content).on source other).1
  set_failed : ∀ {key content world report},
    ((cache.set key content).on source world).1 = .error report →
      ((cache.set key content).on source world).2 = world
  purge_failed : ∀ {key world report}, ((cache.purge key).on source world).1 = .error report →
    ((cache.purge key).on source world).2 = world

theorem asks_obeying {α : Type} {among : Effect → Bool} {program : Action (Except Report α)}
    {failed : Option Report} (asks : program.Asks among) : (obeying failed program).Asks among := by
  cases failed with
  | none => exact asks
  | some report => exact .done _

theorem atomic_failing (source : Map → Tile → SourceReply) (maxZoom : Option Nat)
    (failure : CacheVerb → Key → Option Report) :
    ((memory maxZoom).failing failure).Atomic source where
  asks_get _ := asks_obeying (.ask rfl fun _ => .done _)
  asks_set key content := by
    refine asks_obeying ?_
    simp only [memory]
    split
    · exact .ask rfl fun _ => .done _
    · exact .done _
  asks_purge _ := asks_obeying (.ask rfl fun _ => .done _)
  get_snd key world := by
    simp only [failing, obeying]
    split <;> rfl
  set_fst key content world other := by
    simp only [failing, obeying]
    split
    · rfl
    · simp only [memory]
      split <;> rfl
  set_failed := by
    intro key content world report failed
    simp only [failing, obeying] at failed ⊢
    split at failed
    · rfl
    · simp only [memory] at failed
      split at failed <;> cases failed
  purge_failed := by
    intro key world report failed
    simp only [failing, obeying] at failed ⊢
    split at failed
    · rfl
    · cases failed

end Cache

/-! ## Conducts of seeding -/

variable {source : Map → Tile → SourceReply} {cancelled later : Bool} {world after : World}
  {events : List Work.Event}

namespace Work.Conduct

/-- Whether a source cancels the run in between or not, the task goes on in some run. -/
theorem of_cancelIf {α : Type} {cancels : Bool} {rest : Work α} {result : Option α}
    (conduct : Conduct source (if cancels then Program.bind Task.cancel (fun _ => rest) else rest)
      cancelled world events result later after) :
    ∃ meanwhile, Conduct source rest meanwhile world events result later after := by
  cases cancels with
  | true =>
      cases conduct with
      | cancel rest => exact ⟨true, rest⟩
  | false => exact ⟨cancelled, conduct⟩

end Work.Conduct

namespace Atlas

variable {atlas : Atlas} {cache : Cache} {map : Map} {tile : Tile}

/-- How a fetch ends once the source has begun to answer. -/
def fetch.settle (answer : SourceAnswer) : Work (Except Error Bytes) :=
  match answer with
  | .never => Program.bind Task.untilCancelled fun _ => Program.done (.error .canceled)
  | .later result => Program.bind Task.isCancelled fun cancelled =>
      if cancelled then Program.done (.error .canceled) else Program.done (classify result)
  | .now result => Program.done (classify result)

theorem fetch_eq : fetch map tile =
    Program.bind Task.isCancelled fun cancelled =>
      if cancelled then Program.done (.error .canceled)
      else Program.bind (Work.ask (.fetch map tile)) fun reply =>
        if reply.cancelsRun then Program.bind Task.cancel fun _ => fetch.settle reply.answer
        else fetch.settle reply.answer := rfl

theorem classify_eq_ok_iff {result : Except Report Bytes} {content : Bytes} :
    fetch.classify result = .ok content ↔ result = .ok content := by
  cases result with
  | ok held => simp [classify_ok]
  | error report => simp [classify_error]

theorem conduct_settle {answer : SourceAnswer} {cancels : Bool}
    {result : Option (Except Error Bytes)}
    (conduct : Conduct source (fetch.settle answer) cancelled world events result later after) :
    calls events = [] ∧ after = world ∧
      ∀ content, result = some (.ok content) ↔
        (SourceReply.mk cancels answer).deliveredTo (false :: looks events) =
          some (.ok content) := by
  cases answer with
  | never =>
      cases conduct with
      | untilCancelled conduct =>
          obtain ⟨rfl, rfl, -, rfl⟩ := conduct.of_done
          exact ⟨rfl, rfl, by simp [SourceReply.deliveredTo]⟩
      | waits => exact ⟨rfl, rfl, by simp [SourceReply.deliveredTo]⟩
  | later brought =>
      cases conduct with
      | isCancelled seen _ conduct =>
          cases seen with
          | true =>
              obtain ⟨rfl, rfl, -, rfl⟩ := conduct.of_done
              exact ⟨rfl, rfl, by simp [SourceReply.deliveredTo]⟩
          | false =>
              obtain ⟨rfl, rfl, -, rfl⟩ := conduct.of_done
              exact ⟨rfl, rfl, by simp [SourceReply.deliveredTo, classify_eq_ok_iff]⟩
  | now brought =>
      obtain ⟨rfl, rfl, -, rfl⟩ := conduct.of_done
      exact ⟨rfl, rfl, by simp [SourceReply.deliveredTo, classify_eq_ok_iff]⟩

/-- A fetch looks at the run first. If that is cancelled, nothing happens; else the source is
called, and its content comes if it is delivered. -/
theorem conduct_fetch {result : Option (Except Error Bytes)}
    (conduct : Conduct source (fetch map tile) cancelled world events result later after) :
    (looks events = [true] ∧ calls events = [] ∧ result = some (.error .canceled) ∧
      after = world) ∨
    (cancelled = false ∧ (looks events).head? = some false ∧ calls events = [(map, tile)] ∧
      after = (world.perform source (.fetch map tile)).2 ∧
      ∀ content, result = some (.ok content) ↔
        (source map tile).deliveredTo (looks events) = some (.ok content)) := by
  rw [fetch_eq] at conduct
  cases conduct with
  | isCancelled seen final conduct =>
    cases seen with
    | true =>
        obtain ⟨rfl, rfl, -, rfl⟩ := conduct.of_done
        exact .inl ⟨rfl, rfl, rfl, rfl⟩
    | false =>
        obtain ⟨rest, rfl, asked⟩ := Conduct.of_ask_bind conduct
        obtain ⟨meanwhile, settled⟩ := asked.of_cancelIf
        obtain ⟨uncalled, unchanged, delivered⟩ := conduct_settle settled
        refine .inr ⟨by simpa using final, rfl, ?_, unchanged, delivered⟩
        simp [uncalled]

end Atlas

section Courses

variable {atlas : Atlas} {cache : Cache} {result : Option (Except Error Unit)}

/-- What rendering a tile of a map does: it sees that the run is cancelled and leaves everything as
it is, or it calls the source and stores what comes. -/
inductive Atlas.Rendering (source : Map → Tile → SourceReply) (cache : Cache) (map : Map)
    (tile : Tile) (cancelled : Bool) (world : World) :
    List Bool → List (Map × Tile) → Option (Except Error Unit) → World → Prop where
  | refused :
      Rendering source cache map tile cancelled world [true] [] (some (.error .canceled)) world
  | called {seen : List Bool} {result : Option (Except Error Unit)} {after : World}
      (running : cancelled = false) (first : seen.head? = some false)
      (spared : ∀ error, result = some (.error error) → world.SameStock after)
      (stored : result = some (.ok ()) ↔ ∃ content,
        (source map tile).deliveredTo seen = some (.ok content) ∧
        ((cache.set { map := map.name, tile } content).on source world).1 = .ok ()) :
      Rendering source cache map tile cancelled world seen [(map, tile)] result after

/-- What seeding the tile of a job does: it ends before it renders, or it renders the tile of the
map as it is at the level of the job. -/
inductive Operation.Course (source : Map → Tile → SourceReply) (atlas : Atlas) (cache : Cache)
    (overwrite : Bool) (job : Job) (cancelled : Bool) (world : World) :
    List Bool → List (Map × Tile) → Option (Except Error Unit) → World → Prop where
  | unknown {error : Error} (unknown : atlas.map? job.map = .error error) :
      Course source atlas cache overwrite job cancelled world [] [] (some (.error error)) world
  | unread {report : Report} {error : Error} (fresh : overwrite = false)
      (failed : cache.answer source (.ofJob job) world = .error report) :
      Course source atlas cache overwrite job cancelled world [] [] (some (.error error)) world
  | held {map : Map} {content : Bytes} {after : World} (known : atlas.map? job.map = .ok map)
      (fresh : overwrite = false)
      (held : cache.answer source (.ofJob job) world = .ok (some content))
      (same : world.SameStock after) :
      Course source atlas cache overwrite job cancelled world [] [] (some (.ok ())) after
  | rendered {map : Map} {seen : List Bool} {called : List (Map × Tile)}
      {result : Option (Except Error Unit)} {after : World} (known : atlas.map? job.map = .ok map)
      (missed : overwrite = true ∨ cache.answer source (.ofJob job) world = .ok none)
      (rendering : Atlas.Rendering source cache (map.atLevel job.tile.level) job.tile cancelled
        world seen called result after) :
      Course source atlas cache overwrite job cancelled world seen called result after

variable (atomic : cache.Atomic source) (given : atlas.cache = some cache)
include atomic

namespace Atlas

variable {map : Map} {tile : Tile}

include given

theorem conduct_render
    (conduct : Conduct source (atlas.render map tile) cancelled world events result later after) :
    Rendering source cache map tile cancelled world (looks events) (calls events) result after := by
  unfold render requireCache at conduct
  rw [given] at conduct
  obtain ⟨fetched, first, rest, meanwhile, between, head, tail, rfl⟩ | ⟨rfl, waits⟩ :=
    Conduct.of_bind conduct
  · obtain ⟨seen, uncalled, same, rfl⟩ | ⟨running, seen, called, rfl, delivered⟩ :=
      conduct_fetch head
    · obtain rfl := Option.some.inj same
      obtain ⟨rfl, rfl, -, rfl⟩ := tail.of_done
      rw [looks_append, calls_append, seen, uncalled]
      exact .refused
    · cases fetched with
      | error error =>
          obtain ⟨rfl, rfl, -, rfl⟩ := tail.of_done
          rw [looks_append, calls_append, called]
          refine .called running (by simpa using seen) (fun _ _ => ⟨rfl, rfl⟩) ?_
          simp [← delivered]
      | ok content =>
          obtain ⟨quiet, unseen, uncalled, ended⟩ :=
            Conduct.of_storage_bind (atomic.asks_set _ content) tail
          obtain ⟨rfl, rfl, -, rfl⟩ := ended.of_done
          rw [looks_append, calls_append, unseen, uncalled, called, looks_nil, List.append_nil]
          refine .called running seen ?_ ?_
          · intro error failed
            obtain ⟨report, unstored, -⟩ :=
              mapError_cacheError_eq_error_iff.mp (Option.some.inj failed)
            rw [atomic.set_failed unstored]
            exact ⟨rfl, rfl⟩
          · rw [atomic.set_fst _ _ _ world, (delivered content).mp rfl]
            simp [mapError_eq_ok_iff]
  · obtain ⟨-, -, failed, -⟩ | ⟨running, seen, called, rfl, delivered⟩ := conduct_fetch waits
    · cases failed
    · rw [called]
      refine .called running seen (fun _ _ => ⟨rfl, rfl⟩) ?_
      simp [← delivered]

theorem conduct_remove
    (conduct : Conduct source (atlas.remove map tile) cancelled world events result later after) :
    looks events = [] ∧ calls events = [] ∧
      ∀ error, result = some (.error error) → after = world := by
  unfold remove requireCache at conduct
  rw [given] at conduct
  obtain ⟨rest, unseen, uncalled, ended⟩ := Conduct.of_storage_bind (atomic.asks_purge _) conduct
  obtain ⟨rfl, rfl, -, rfl⟩ := ended.of_done
  refine ⟨unseen, uncalled, ?_⟩
  intro error failed
  obtain ⟨report, unpurged, -⟩ := mapError_cacheError_eq_error_iff.mp (Option.some.inj failed)
  exact atomic.purge_failed unpurged

end Atlas

namespace Operation

variable {job : Job} {overwrite : Bool} {options : SeedOptions}

theorem conduct_isCached {result : Option (Except Error Bool)}
    (conduct : Conduct source (isCached cache job) cancelled world events result later after) :
    looks events = [] ∧ calls events = [] ∧ later = cancelled ∧
      match cache.answer source (.ofJob job) world with
      | .error report => result = some (.error (Atlas.cacheError report)) ∧ after = world
      | .ok none => result = some (.ok false) ∧ after = world
      | .ok (some _) => result = some (.ok true) ∧ world.SameStock after := by
  obtain ⟨rest, unseen, uncalled, ended⟩ := Conduct.of_storage_bind (atomic.asks_get _) conduct
  rw [unseen, uncalled]
  rw [atomic.get_snd] at ended
  simp only [Cache.answer]
  cases read : (Action.on source (cache.get (.ofJob job)) world).1 with
  | error report =>
    simp only [read] at ended
    obtain ⟨rfl, rfl, rfl, rfl⟩ := ended.of_done
    exact ⟨rfl, rfl, rfl, rfl, rfl⟩
  | ok slot =>
    simp only [read] at ended
    cases slot with
    | none =>
      obtain ⟨rfl, rfl, rfl, rfl⟩ := ended.of_done
      exact ⟨rfl, rfl, rfl, rfl, rfl⟩
    | some content =>
      obtain ⟨logged, rfl, logs⟩ := Conduct.of_ask_bind ended
      obtain ⟨rfl, rfl, rfl, rfl⟩ := logs.of_done
      exact ⟨rfl, rfl, rfl, rfl, rfl, rfl⟩

omit atomic in
/-- Work that ends with a log entry, if that is worth telling, changes nothing else. -/
theorem conduct_logIf {condition : Prop} [Decidable condition] {entry : LogEntry}
    {value : Except Error Unit}
    (conduct : Conduct source (if condition then
      Program.bind (Work.ask (.log entry)) fun _ => Program.done value else Program.done value)
      cancelled world events result later after) :
    looks events = [] ∧ calls events = [] ∧ result = some value ∧ world.SameStock after := by
  split at conduct
  · obtain ⟨rest, rfl, ended⟩ := Conduct.of_ask_bind conduct
    obtain ⟨rfl, rfl, -, rfl⟩ := ended.of_done
    exact ⟨rfl, rfl, rfl, rfl, rfl⟩
  · obtain ⟨rfl, rfl, -, rfl⟩ := conduct.of_done
    exact ⟨rfl, rfl, rfl, .refl _⟩

include given

theorem conduct_seedTile
    (conduct : Conduct source (seedTile atlas cache overwrite job) cancelled world events result
      later after) :
    Course source atlas cache overwrite job cancelled world (looks events) (calls events) result
      after := by
  unfold seedTile at conduct
  cases known : atlas.map? job.map with
  | error error =>
      rw [known] at conduct
      obtain ⟨rfl, rfl, -, rfl⟩ := conduct.of_done
      exact .unknown known
  | ok map =>
      rw [known] at conduct
      cases overwrite with
      | true => exact .rendered known (.inl rfl) (Atlas.conduct_render atomic given conduct)
      | false =>
          obtain ⟨found, first, rest, meanwhile, between, head, tail, rfl⟩ | ⟨rfl, waits⟩ :=
            Conduct.of_bind conduct
          · obtain ⟨unseen, uncalled, rfl, told⟩ := conduct_isCached atomic head
            rw [looks_append, calls_append, unseen, uncalled]
            split at told
            · next report failed =>
              obtain ⟨same, rfl⟩ := told
              obtain rfl := Option.some.inj same
              obtain ⟨rfl, rfl, -, rfl⟩ := tail.of_done
              exact .unread rfl failed
            · next missing =>
              obtain ⟨same, rfl⟩ := told
              obtain rfl := Option.some.inj same
              exact .rendered known (.inr missing) (Atlas.conduct_render atomic given tail)
            · next content held =>
              obtain ⟨same, kept⟩ := told
              obtain rfl := Option.some.inj same
              obtain ⟨rfl, rfl, -, rfl⟩ := tail.of_done
              exact .held known rfl held kept
          · obtain ⟨-, -, -, told⟩ := conduct_isCached atomic waits
            split at told <;> simp at told

theorem conduct_seed
    (conduct : Conduct source (seed atlas cache options job) cancelled world events result later
      after) :
    ∃ ended between, Course source atlas cache options.overwrite job cancelled world
        (looks events) (calls events) ended between ∧
      between.SameStock after ∧ result = ended.map (Except.mapError (report .seed job.tile)) := by
  obtain ⟨timed, rfl, seeding⟩ := Conduct.of_ask_bind conduct
  replace seeding : Conduct source (Program.bind (seedTile _ _ _ job) _) cancelled world timed
    result later after := seeding
  obtain ⟨ended, first, rest, meanwhile, between, head, tail, rfl⟩ | ⟨rfl, waits⟩ :=
    Conduct.of_bind seeding
  · have course := conduct_seedTile atomic given head
    cases ended with
    | error error =>
        obtain ⟨rfl, rfl, -, rfl⟩ := tail.of_done
        exact ⟨_, _, by simpa using course, .refl _, rfl⟩
    | ok done =>
        obtain ⟨told, rfl, telling⟩ := Conduct.of_ask_bind tail
        obtain ⟨unseen, uncalled, rfl, same⟩ := conduct_logIf telling
        exact ⟨_, between, by simpa [unseen, uncalled] using course, same, rfl⟩
  · have course := conduct_seedTile atomic given waits
    exact ⟨none, _, by simpa using course, .refl _, rfl⟩

/-- Purging looks at the run first. If that is cancelled, nothing else is done. -/
theorem conduct_purge
    (conduct : Conduct source (purge atlas job) cancelled world events result later after) :
    (events = [.looked true] ∧ result = some (.error .canceled) ∧ after = world) ∨
    (cancelled = false ∧ looks events = [false] ∧ calls events = [] ∧
      ∀ error, result = some (.error error) → after = world) := by
  cases conduct with
  | isCancelled seen final conduct =>
    cases seen with
    | true =>
        obtain ⟨rfl, rfl, -, rfl⟩ := conduct.of_done
        exact .inl ⟨rfl, rfl, rfl⟩
    | false =>
        refine .inr ⟨by simpa using final, ?_⟩
        cases known : atlas.map? job.map with
        | error error =>
            rw [known] at conduct
            obtain ⟨rfl, rfl, -, rfl⟩ := Conduct.of_done conduct
            exact ⟨rfl, rfl, fun _ _ => rfl⟩
        | ok map =>
            rw [known] at conduct
            replace conduct : Conduct source (Program.bind (atlas.remove map job.tile) _) false
              world _ result later after := conduct
            obtain ⟨removed, first, rest, meanwhile, between, head, tail, rfl⟩ | ⟨rfl, waits⟩ :=
              Conduct.of_bind conduct
            · obtain ⟨unseen, uncalled, spared⟩ := Atlas.conduct_remove atomic given head
              cases removed with
              | error error =>
                  obtain ⟨rfl, rfl, -, rfl⟩ := tail.of_done
                  exact ⟨by simp [unseen], by simp [uncalled], fun _ _ => spared error rfl⟩
              | ok done =>
                  obtain ⟨told, rfl, ended⟩ := Conduct.of_ask_bind tail
                  obtain ⟨rfl, rfl, -, rfl⟩ := ended.of_done
                  exact ⟨by simp [unseen], by simp [uncalled], by simp⟩
            · obtain ⟨unseen, uncalled, -⟩ := Atlas.conduct_remove atomic given waits
              exact ⟨by simp [unseen], by simp [uncalled], by simp⟩

end Operation

end Courses

namespace Operation

/-- The tile of a job is to be rendered: the map is there, and the tile is not cached, or whether it
is does not matter. -/
def Renders (source : Map → Tile → SourceReply) (atlas : Atlas) (cache : Cache) (overwrite : Bool)
    (job : Job) (world : World) : Prop :=
  (∃ map, atlas.map? job.map = .ok map) ∧
    (overwrite = true ∨ cache.answer source (.ofJob job) world = .ok none)

namespace Course

variable {atlas : Atlas} {cache : Cache} {overwrite : Bool} {job : Job} {seen : List Bool}
  {called : List (Map × Tile)} {result : Option (Except Error Unit)}

theorem renders_iff
    (course : Course source atlas cache overwrite job cancelled world seen called result after) :
    seen ≠ [] ↔ Renders source atlas cache overwrite job world := by
  cases course with
  | unknown unknown => simp [Renders, unknown]
  | unread fresh failed => simp [Renders, fresh, failed]
  | held known fresh held => simp [Renders, fresh, held]
  | rendered known missed rendering =>
      refine iff_of_true ?_ ⟨⟨_, known⟩, missed⟩
      cases rendering with
      | refused => simp
      | called running first => exact fun unseen => by simp [unseen] at first

theorem calls_source_iff
    (course : Course source atlas cache overwrite job cancelled world seen called result after) :
    called ≠ [] ↔ seen.head? = some false := by
  cases course with
  | rendered known missed rendering =>
      cases rendering with
      | refused => simp
      | called running first => simpa using first
  | _ => simp

theorem eq_of_mem_called {call : Map × Tile}
    (course : Course source atlas cache overwrite job cancelled world seen called result after)
    (member : call ∈ called) :
    called = [call] ∧ ∃ map, atlas.map? job.map = .ok map ∧
      call =
        ({ map with layers := map.layers.filter (·.isActiveAt job.tile.level) }, job.tile) := by
  cases course with
  | rendered known missed rendering =>
      cases rendering with
      | refused => cases member
      | called =>
          obtain rfl := List.mem_singleton.mp member
          exact ⟨rfl, _, known, rfl⟩
  | _ => cases member

theorem forall_seen_of_cancelled
    (course : Course source atlas cache overwrite job true world seen called result after) :
    ∀ look ∈ seen, look = true := by
  cases course with
  | rendered known missed rendering =>
      cases rendering with
      | refused => simp
      | called running => cases running
  | _ => simp

theorem sameStock_of_error {error : Error}
    (course : Course source atlas cache overwrite job cancelled world seen called
      (some (.error error)) after) : world.SameStock after := by
  cases course with
  | unknown => exact .refl world
  | unread => exact .refl world
  | rendered known missed rendering =>
      cases rendering with
      | refused => exact .refl world
      | called running first spared => exact spared error rfl

/-- Seeding succeeds if the tile is there, or if it is rendered and stored. -/
theorem ok_iff
    (course : Course source atlas cache overwrite job cancelled world seen called result after) :
    result = some (.ok ()) ↔ ∃ map, atlas.map? job.map = .ok map ∧
      ((overwrite = false ∧ ∃ content,
          cache.answer source (.ofJob job) world = .ok (some content)) ∨
        ((overwrite = true ∨ cache.answer source (.ofJob job) world = .ok none) ∧ ∃ content,
          (source (map.atLevel job.tile.level) job.tile).deliveredTo seen = some (.ok content) ∧
          ((cache.set (.ofJob job) content).on source world).1 = .ok ())) := by
  cases course with
  | unknown unknown => simp [unknown]
  | unread fresh failed => simp [fresh, failed]
  | held known fresh held => simp [known, fresh, held]
  | @rendered map seen called result after known missed rendering =>
      have absent : ¬(overwrite = false ∧ ∃ content,
          cache.answer source (.ofJob job) world = .ok (some content)) := by
        rcases missed with anew | missing
        · simp [anew]
        · simp [missing]
      have key : ({ map := (map.atLevel job.tile.level).name, tile := job.tile } : Cache.Key) =
          .ofJob job := by
        rw [Map.name_atLevel, Atlas.name_of_map? known, Cache.Key.ofJob]
      cases rendering with
      | refused => simp [known, absent, SourceReply.deliveredTo_refused]
      | called running first spared stored =>
          rw [key] at stored
          constructor
          · intro done
            exact ⟨map, known, .inr ⟨missed, stored.mp done⟩⟩
          · rintro ⟨other, found, held | ⟨-, delivered⟩⟩
            · exact absurd held absent
            · obtain rfl := Except.ok.inj (known.symm.trans found)
              exact stored.mpr delivered

end Course

end Operation

end TilePyramid
