import TilePyramid.Operation
import TilePyramid.Proofs.World.Performing

/-!
# Operations performed alone

What each part of an operation comes to when nothing is performed next to it, in terms of what the
source and the cache do when they are asked.
-/

set_option autoImplicit false

namespace TilePyramid

open Text.Utf8 (Bytes)

/-- What a source delivers. An answer that comes later is not waited for when the run is cancelled. -/
def SourceReply.delivered? (reply : SourceReply) : Option (Except Report Bytes) :=
  match reply.answer with
  | .now result => some result
  | .later result => if reply.cancelsRun then none else some result
  | .never => none

variable {source : Map → Tile → SourceReply} {cancelled : Bool} {world : World}

namespace Atlas

variable {map : Map} {tile : Tile}

/-- What comes of asking a source while the run is not cancelled. -/
def outcome (reply : SourceReply) : Option (Except Error Bytes) :=
  match reply.delivered? with
  | some result => some (fetch.classify result)
  | none => if reply.cancelsRun then some (.error .canceled) else none

theorem fetch_on_cancelled :
    (fetch map tile).on source true world = ((some (.error .canceled), true), world) := rfl

theorem fetch_on : (fetch map tile).on source false world =
    ((outcome (source map tile), (source map tile).cancelsRun),
      (world.perform source (.fetch map tile)).2) := by
  show Work.on source (Program.bind (Work.ask (.fetch map tile)) _) false world = _
  rw [Work.on_bind]
  show Work.on source _ false _ = _
  unfold outcome SourceReply.delivered?
  simp only [World.perform]
  rcases source map tile with ⟨_ | _, _ | _ | _⟩ <;> rfl

variable {atlas : Atlas} {cache : Cache}

theorem render_on (given : atlas.cache = some cache) :
    (atlas.render map tile).on source cancelled world =
      match (fetch map tile).on source cancelled world with
      | ((some (.ok content), later), fetched) =>
          let stored := (cache.set { map := map.name, tile } content).on source fetched
          ((some (stored.1.mapError cacheError), later), stored.2)
      | ((some (.error error), later), fetched) => ((some (.error error), later), fetched)
      | ((none, later), fetched) => ((none, later), fetched) := by
  unfold render requireCache
  rw [given]
  show Work.on source (Program.bind (fetch map tile) _) cancelled world = _
  rw [Work.on_bind]
  rcases (fetch map tile).on source cancelled world with ⟨⟨_ | _ | content, later⟩, fetched⟩
  · rfl
  · rfl
  · exact Work.on_ofAction_bind source later fetched _ _

theorem remove_on (given : atlas.cache = some cache) :
    (atlas.remove map tile).on source cancelled world =
      let removed := (cache.purge { map := map.name, tile }).on source world
      ((some (removed.1.mapError cacheError), cancelled), removed.2) := by
  unfold remove requireCache
  rw [given]
  exact Work.on_ofAction_bind source cancelled world _ _

end Atlas

namespace Operation

/-- The operation of an activity on the tiles of an atlas. -/
def of (atlas : Atlas) (options : SeedOptions) : Activity → Except Error Operation
  | .seed => seedOf atlas options
  | .purge => purgeOf atlas

variable {atlas : Atlas} {cache : Cache} {job : Job}

theorem of_seed {options : SeedOptions} (given : atlas.cache = some cache) :
    of atlas options .seed = .ok (seed atlas cache options) := by
  simp only [of, seedOf, Atlas.requireCache, given]
  rfl

theorem of_purge {options : SeedOptions} (given : atlas.cache = some cache) :
    of atlas options .purge = .ok (purge atlas) := by
  simp only [of, purgeOf, Atlas.requireCache, given]
  rfl

theorem isCached_on : (isCached cache job).on source cancelled world =
    match (cache.get (.ofJob job)).on source world with
    | (.error report, after) => ((some (.error (Atlas.cacheError report)), cancelled), after)
    | (.ok none, after) => ((some (.ok false), cancelled), after)
    | (.ok (some _), after) =>
        ((some (.ok true), cancelled), (after.perform source (.log (.skipped job))).2) := by
  show Work.on source (Program.bind (Work.ofAction _) _) cancelled world = _
  rw [Work.on_ofAction_bind]
  rcases (cache.get (.ofJob job)).on source world with ⟨_ | _ | content, after⟩ <;> rfl

/-- Seeding ends as rendering does, with the failure told, and changes nothing else but the log. -/
theorem seed_on {options : SeedOptions} :
    ((seed atlas cache options job).on source cancelled world).1.1 =
        ((seedTile atlas cache options.overwrite job).on source cancelled world).1.1.map
          (Except.mapError (report .seed job.tile)) ∧
      ∃ log, ((seed atlas cache options job).on source cancelled world).2 =
        { ((seedTile atlas cache options.overwrite job).on source cancelled world).2 with log } := by
  have performed : (seed atlas cache options job).on source cancelled world =
      Work.on source (Program.bind (seedTile atlas cache options.overwrite job) _) cancelled
        world := rfl
  rw [performed, Work.on_bind]
  rcases (seedTile atlas cache options.overwrite job).on source cancelled world with
    ⟨⟨_ | _ | done, later⟩, after⟩
  · exact ⟨rfl, after.log, rfl⟩
  · exact ⟨rfl, after.log, rfl⟩
  · simp only [Work.afterwards]
    show (Work.on source (if options.logThreshold ≤ 0 then _ else _) later after).1.1 = _ ∧
      ∃ log, (Work.on source (if options.logThreshold ≤ 0 then _ else _) later after).2 = _
    split
    · exact ⟨rfl, _, rfl⟩
    · exact ⟨rfl, after.log, rfl⟩

/-- Purging ends as removing does, with the failure told, and changes nothing else but the log. -/
theorem purge_on {map : Map} (known : atlas.map? job.map = .ok map) :
    ((purge atlas job).on source false world).1.1 =
        ((atlas.remove map job.tile).on source false world).1.1.map
          (Except.mapError (report .purge job.tile)) ∧
      ∃ log, ((purge atlas job).on source false world).2 =
        { ((atlas.remove map job.tile).on source false world).2 with log } := by
  unfold purge
  rw [known]
  show (Work.on source (Program.bind (atlas.remove map job.tile) _) false world).1.1 = _ ∧
    ∃ log, (Work.on source (Program.bind (atlas.remove map job.tile) _) false world).2 = _
  rw [Work.on_bind]
  rcases (atlas.remove map job.tile).on source false world with ⟨⟨_ | _ | done, later⟩, after⟩
  · exact ⟨rfl, after.log, rfl⟩
  · exact ⟨rfl, after.log, rfl⟩
  · exact ⟨rfl, _, rfl⟩

end Operation

end TilePyramid
