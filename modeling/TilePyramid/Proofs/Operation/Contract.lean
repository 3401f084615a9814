import TilePyramid.Operation
import TilePyramid.Proofs.Task.Contract
import TilePyramid.Proofs.World.Sources

/-!
# Operations that keep a contract

What an operation promises under a contract follows from what the cache, the source and the log
promise under it. The rules here go through the steps of an operation once, for any contract and any
cache. Main statements: `keeps_seed` and `keeps_purge`.
-/

set_option autoImplicit false

namespace TilePyramid

open Text.Utf8 (Bytes)

variable {contract : Contract Effect Effect.Reply World} {world : World}

/-- What holds of a world goes on to hold under the changes that a contract allows. -/
def Contract.Lasts (contract : Contract Effect Effect.Reply World) (holds : World → Prop) : Prop :=
  ∀ {before after}, contract.allows before after → holds before → holds after

/-- A request whose replies change the world only as allowed may be made at any time. -/
theorem keeps_ask {effect : Effect}
    (allowed : ∀ {before reply after}, contract.answers effect before reply after →
      contract.allows before after) :
    Task.Keeps contract (fun _ _ => True) (Work.ask effect) world :=
  .perform (fun _ answer => allowed answer) fun _ _ _ => trivial

namespace Atlas

theorem name_of_map? {atlas : Atlas} {name : String} {map : Map}
    (found : atlas.map? name = .ok map) : map.name = name := by
  unfold map? at found
  split at found
  · next same =>
    cases found
    simpa using List.find?_some same
  · cases found

theorem mem_names_iff {atlas : Atlas} {name : String} :
    name ∈ atlas.names ↔ ∃ map, atlas.map? name = .ok map := by
  unfold map?
  constructor
  · intro member
    obtain ⟨map, given, same⟩ := List.mem_map.mp member
    cases found : atlas.maps.find? (·.name = name) with
    | none => exact absurd same (by simpa using List.find?_eq_none.mp found map given)
    | some first => exact ⟨first, rfl⟩
  · rintro ⟨map, known⟩
    split at known
    · next first found =>
      have same : first.name = name := by simpa using List.find?_some found
      exact List.mem_map.mpr ⟨first, List.mem_of_find?_eq_some found, same⟩
    · cases known

variable {map : Map} {tile : Tile} {law : SourceLaw}

/-- What a fetch brings obeys the law of the source if the answers to its request do. -/
theorem keeps_fetch {asked : World → Prop} (lasts : contract.Lasts asked)
    (ask : Task.Keeps contract
      (fun reply later => asked later ∧
        ∀ result, reply.answer.result? = some result → law map tile result)
      (Work.ask (.fetch map tile)) world) :
    Task.Keeps contract
      (fun result later => ∀ content, result = .ok content → asked later ∧ law map tile (.ok content))
      (fetch map tile) world := by
  have classified {result : Except Report Bytes} {later : World} (held : asked later)
      (lawful : law map tile result) : Task.Keeps contract
        (fun result later => ∀ content, result = .ok content →
          asked later ∧ law map tile (.ok content)) (.done (fetch.classify result)) later := by
    refine .done fun change content ok => ⟨lasts change held, ?_⟩
    cases result with
    | ok brought =>
        cases ok
        exact lawful
    | error report => cases ok
  refine .isCancelled fun cancelled => ?_
  cases cancelled with
  | true => exact .done nofun
  | false =>
    show Task.Keeps _ _ (Program.bind (Work.ask (.fetch map tile)) _) _
    refine .bind ask ?_
    rintro ⟨cancels, answer⟩ later - ⟨held, lawful⟩
    -- The source may cancel the run and still answer; without an answer there is no content.
    refine .doIf (.cancel (.done fun _ => trivial)) fun change => ?_
    cases answer with
    | never => exact .untilCancelled (.done nofun)
    | later result =>
        refine .isCancelled fun cancelled => ?_
        cases cancelled with
        | true => exact .done nofun
        | false => exact classified (lasts change held) (lawful result rfl)
    | now result => exact classified (lasts change held) (lawful result rfl)

variable {atlas : Atlas} {cache : Cache} {settled : World → Prop}

theorem keeps_render {brings : Bytes → World → Prop} (given : atlas.cache = some cache)
    (lasts : contract.Lasts settled)
    (fetched : Task.Keeps contract
      (fun result later => ∀ content, result = .ok content → brings content later)
      (fetch map tile) world)
    (stored : ∀ {content later}, brings content later → Task.Keeps contract
      (fun result later => result = .ok () → settled later)
      (Work.ofAction (cache.set { map := map.name, tile } content)) later) :
    Task.Keeps contract (fun result later => result = .ok () → settled later)
      (atlas.render map tile) world := by
  unfold render requireCache
  rw [given]
  show Task.Keeps _ _ (Program.bind (fetch map tile) _) _
  refine .bind fetched ?_
  intro result later _ brought
  cases result with
  | error error => exact .done nofun
  | ok content =>
      show Task.Keeps _ _ (Program.bind (Work.ofAction _) _) _
      refine .bind (stored (brought content rfl)) ?_
      rintro (report | done) after - promised
      · exact .done nofun
      · exact .done fun change _ => lasts change (promised rfl)

theorem keeps_remove (given : atlas.cache = some cache) (lasts : contract.Lasts settled)
    (purged : Task.Keeps contract (fun result later => result = .ok () → settled later)
      (Work.ofAction (cache.purge { map := map.name, tile })) world) :
    Task.Keeps contract (fun result later => result = .ok () → settled later)
      (atlas.remove map tile) world := by
  unfold remove requireCache
  rw [given]
  show Task.Keeps _ _ (Program.bind (Work.ofAction _) _) _
  refine .bind purged ?_
  rintro (report | done) after - promised
  · exact .done nofun
  · exact .done fun change _ => lasts change (promised rfl)

end Atlas

namespace Operation

variable {atlas : Atlas} {cache : Cache} {job : Job} {settled : World → Prop}

theorem keeps_isCached {found : Option Bytes → World → Prop}
    (lasts : ∀ content, contract.Lasts (found content))
    (logged : ∀ {later}, Task.Keeps contract (fun _ _ => True) (Work.ask (.log (.skipped job))) later)
    (looked : Task.Keeps contract
      (fun result later => ∀ content, result = .ok content → found content later)
      (Work.ofAction (cache.get (.ofJob job))) world) :
    Task.Keeps contract
      (fun result later => (result = .ok false → found none later) ∧
        (result = .ok true → ∃ content, found (some content) later))
      (isCached cache job) world := by
  show Task.Keeps _ _ (Program.bind (Work.ofAction _) _) _
  refine .bind looked ?_
  rintro (report | content) later - held
  · exact .done fun _ => ⟨nofun, nofun⟩
  cases content with
  | none => exact .done fun change => ⟨fun _ => lasts _ change (held none rfl), nofun⟩
  | some content =>
      show Task.Keeps _ _ (Program.bind (Work.ask (.log (.skipped job))) _) _
      refine .bind logged ?_
      intro _ after change _
      exact .done fun further =>
        ⟨nofun, fun _ => ⟨content, lasts _ further (lasts _ change (held _ rfl))⟩⟩

/-- A job is settled by seeding if a hit of the cache settles it and rendering does. -/
theorem keeps_seed {options : SeedOptions} {found : Option Bytes → World → Prop}
    (lastsFound : ∀ content, contract.Lasts (found content)) (lasts : contract.Lasts settled)
    (timed : ∀ {later}, Task.Keeps contract (fun _ _ => True) (Work.ask .clock) later)
    (logged : ∀ {entry later}, Task.Keeps contract (fun _ _ => True) (Work.ask (.log entry)) later)
    (looked : options.overwrite = false → ∀ {later}, contract.allows world later →
      Task.Keeps contract (fun result later => ∀ content, result = .ok content → found content later)
        (Work.ofAction (cache.get (.ofJob job))) later)
    (hit : ∀ {content later}, found (some content) later → settled later)
    (rendered : ∀ {map later}, atlas.map? job.map = .ok map → contract.allows world later →
      options.overwrite = true ∨ found none later →
      Task.Keeps contract (fun result later => result = .ok () → settled later)
        (atlas.render (map.atLevel job.tile.level) job.tile) later) :
    Task.Keeps contract (fun result later => result = .ok () → settled later)
      (seed atlas cache options job) world := by
  have seeded {later : World} (change : contract.allows world later) :
      Task.Keeps contract (fun result later => result = .ok () → settled later)
        (seedTile atlas cache options.overwrite job) later := by
    unfold seedTile
    cases known : atlas.map? job.map with
    | error error => exact .done nofun
    | ok map =>
      cases fresh : options.overwrite with
      | true => exact rendered known change (.inl fresh)
      | false =>
        show Task.Keeps _ _ (Program.bind (isCached cache job) _) _
        refine .bind (keeps_isCached lastsFound logged (looked fresh change)) ?_
        rintro (error | cached) after further ⟨missed, there⟩
        · exact .done nofun
        · cases cached with
          | true =>
              obtain ⟨content, held⟩ := there rfl
              exact .done fun change _ => lasts change (hit held)
          | false => exact rendered known (contract.trans change further) (.inr (missed rfl))
  show Task.Keeps _ _ (Program.bind (Work.ask .clock) _) _
  refine .bind timed ?_
  intro started begun change _
  refine .bind (seeded change) ?_
  rintro (error | done) ended - promised
  · exact .done nofun
  · show Task.Keeps _ _ (Program.bind (Work.ask .clock) _) _
    refine .bind timed ?_
    intro stopped after change _
    refine .doIf logged fun further => ?_
    exact .done fun last _ => lasts last (lasts further (lasts change (promised rfl)))

theorem keeps_purge (lasts : contract.Lasts settled)
    (logged : ∀ {entry later}, Task.Keeps contract (fun _ _ => True) (Work.ask (.log entry)) later)
    (removed : ∀ {map}, atlas.map? job.map = .ok map →
      Task.Keeps contract (fun result later => result = .ok () → settled later)
        (atlas.remove map job.tile) world) :
    Task.Keeps contract (fun result later => result = .ok () → settled later)
      (purge atlas job) world := by
  refine .isCancelled fun cancelled => ?_
  cases cancelled with
  | true => exact .done nofun
  | false =>
    cases known : atlas.map? job.map with
    | error error => exact .done nofun
    | ok map =>
      show Task.Keeps _ _ (Program.bind (atlas.remove map job.tile) _) _
      refine .bind (removed known) ?_
      rintro (error | done) later - promised
      · exact .done nofun
      · show Task.Keeps _ _ (Program.bind (Work.ask (.log (.purged job))) _) _
        refine .bind logged ?_
        intro _ after change _
        exact .done fun further _ => lasts further (lasts change (promised rfl))

end Operation

end TilePyramid
