import TilePyramid.Atlas

/-!
# Operations

An operation is the work of a run on one job. Seeding renders a tile into the cache, by default only
if it is not there; purging removes it. A cancellation is passed on as it is, and every other
failure is told with the tile.
-/

set_option autoImplicit false

namespace TilePyramid

abbrev Operation := Job → Work (Except Error Unit)

namespace Operation

/-- What a run reports of a failed job. -/
def report (activity : Activity) (tile : Tile) (error : Error) : Error :=
  if error.isCanceled then error else .tileFailed activity tile error

structure SeedOptions where
  overwrite : Bool := false
  logThreshold : Nat := 0
deriving DecidableEq

/-- Tells whether a job can be skipped because its tile is cached. -/
def isCached (cache : Cache) (job : Job) : Work (Except Error Bool) := do
  match ← Work.ofAction (cache.get (.ofJob job)) with
  | .error report => return .error (Atlas.cacheError report)
  | .ok none => return .ok false
  | .ok (some _) =>
      Work.ask (.log (.skipped job))
      return .ok true

/-- Renders the tile of a job unless it is cached and may stay. -/
def seedTile (atlas : Atlas) (cache : Cache) (overwrite : Bool) (job : Job) :
    Work (Except Error Unit) := do
  match atlas.map? job.map with
  | .error error => return .error error
  | .ok map =>
    let rendered := atlas.render (map.atLevel job.tile.level) job.tile
    if overwrite then rendered
    else
      match ← isCached cache job with
      | .error error => return .error error
      | .ok true => return .ok ()
      | .ok false => rendered

/-- Seeds a job and logs how long it took if that is worth telling. -/
def seed (atlas : Atlas) (cache : Cache) (options : SeedOptions) : Operation := fun job => do
  let started ← Work.ask .clock
  match ← seedTile atlas cache options.overwrite job with
  | .ok () =>
      let elapsed := (← Work.ask .clock) - started
      if options.logThreshold ≤ elapsed then Work.ask (.log (.seeded job elapsed))
      return .ok ()
  | .error error => return .error (report .seed job.tile error)

/-- Removes the tile of a job from the cache. -/
def purge (atlas : Atlas) : Operation := fun job => do
  if ← Task.isCancelled then return .error .canceled
  let removed ← match atlas.map? job.map with
    | .ok map => atlas.remove map job.tile
    | .error error => pure (.error error)
  match removed with
  | .ok () =>
      Work.ask (.log (.purged job))
      return .ok ()
  | .error error => return .error (report .purge job.tile error)

/-- The seed operation of an atlas, which needs a cache. -/
def seedOf (atlas : Atlas) (options : SeedOptions) : Except Error Operation := do
  let cache ← atlas.requireCache
  return seed atlas cache options

/-- The purge operation of an atlas, which needs a cache. -/
def purgeOf (atlas : Atlas) : Except Error Operation := do
  let _ ← atlas.requireCache
  return purge atlas

end Operation

end TilePyramid
