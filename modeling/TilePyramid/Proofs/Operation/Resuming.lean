import TilePyramid.Proofs.Operation.Seeded

/-!
# Seeding that was interrupted

A seed run that breaks off at any step has left each slot as it was or with its final content, so a
further run that succeeds completes what it began: the cache is then the same as after one run that
was not interrupted. Main statement: `Operation.resumed_seed_equals_uninterrupted`.
-/

set_option autoImplicit false

namespace TilePyramid

open Text.Utf8 (Bytes)
open Pool (Moment Runs start)

namespace Seeding

variable {seeding : Seeding} {options : Operation.SeedOptions} {between world : World} {job : Job}

/-- The same seeding with other options, from another world at first. -/
def resume (seeding : Seeding) (options : Operation.SeedOptions) (between : World) : Seeding :=
  { seeding with options, initial := between }

theorem isDue_iff (fresh : seeding.options.overwrite = false) :
    seeding.IsDue job ↔ seeding.initial.store.find? job.slot = none := by
  simp [IsDue, fresh]

theorem completed_of_resumed (fresh : seeding.options.overwrite = false)
    (freshToo : options.overwrite = false) (earlier : seeding.Leads seeding.initial between)
    (later : (seeding.resume options between).Completed world) : seeding.Completed world := by
  have isDue (job : Job) : seeding.IsDue job ↔ seeding.initial.store.find? job.slot = none :=
    isDue_iff fresh
  have isDueLater (job : Job) :
      (seeding.resume options between).IsDue job ↔ between.store.find? job.slot = none :=
    isDue_iff freshToo
  constructor
  · intro job member kept due
    cases found : between.store.find? job.slot with
    | none => exact later.stored job member kept ((isDueLater job).mpr found)
    | some content =>
        -- The first run has stored it, and the second one finds it and keeps it.
        have unchanged : world.store.find? job.slot = between.store.find? job.slot := by
          refine later.unchanged job.slot ?_
          intro other _ _ otherDue same
          rw [isDueLater, same, found] at otherDue
          cases otherDue
        rcases earlier.stored job.slot with same | filled
        · rw [(isDue job).mp due, found] at same
          cases same
        · obtain ⟨-, -, content, renders, there⟩ := filled.of_slot
          exact ⟨content, renders, unchanged.trans there⟩
  · intro slot spared
    have first : between.store.find? slot = seeding.initial.store.find? slot :=
      earlier.unchanged spared
    refine (later.unchanged slot ?_).trans first
    rintro job member kept due rfl
    refine spared job member kept ?_ rfl
    rw [isDue, ← first]
    exact (isDueLater job).mp due

/-- The source may bring only one content for a job. -/
def Functional (seeding : Seeding) : Prop :=
  ∀ job content other, seeding.Renders job content → seeding.Renders job other → content = other

theorem Completed.find?_eq {other : World} (functional : seeding.Functional)
    (completed : seeding.Completed world) (also : seeding.Completed other) (slot : String) :
    world.store.find? slot = other.store.find? slot := by
  by_cases wanted : ∃ job ∈ seeding.jobs, Cache.keeps seeding.maxZoom job.tile.level = true ∧
      seeding.IsDue job ∧ job.slot = slot
  · obtain ⟨job, member, kept, due, rfl⟩ := wanted
    obtain ⟨content, renders, found⟩ := completed.stored job member kept due
    obtain ⟨again, alsoRenders, alsoFound⟩ := also.stored job member kept due
    rw [found, alsoFound, functional job content again renders alsoRenders]
  · have spared : seeding.Spares slot := fun job member kept due same =>
      wanted ⟨job, member, kept, due, same⟩
    rw [completed.unchanged slot spared, also.unchanged slot spared]

theorem exists_map_of_renders {data : Map → Tile → Bytes} {content : Bytes}
    (steady : seeding.law = .steady data) (renders : seeding.Renders job content) :
    ∃ map, seeding.atlas.map? job.map = .ok map ∧
      content = data (map.atLevel job.tile.level) job.tile := by
  obtain ⟨map, found, lawful⟩ := renders
  rw [steady] at lawful
  exact ⟨map, found, lawful content rfl⟩

theorem functional_of_steady {data : Map → Tile → Bytes} (steady : seeding.law = .steady data) :
    seeding.Functional := by
  intro job content other renders alsoRenders
  obtain ⟨map, found, rfl⟩ := exists_map_of_renders steady renders
  obtain ⟨again, alsoFound, rfl⟩ := exists_map_of_renders steady alsoRenders
  rw [Except.ok.inj (found.symm.trans alsoFound)]

end Seeding

/-- The plan of a run that seeds tiles of some maps, unless they are cached in memory. -/
def Operation.seedNew (atlas : Atlas) (maxZoom : Option Nat) (targets : List String)
    (logThreshold : Nat) : Plan Effect Effect.Reply where
  targets
  operation := seed atlas (.memory maxZoom) { logThreshold }

/-- If a seed run without overwriting breaks off in whatever state, and a further one over all of
the jobs succeeds, then the cache holds what was there at first and, for every job that was not
cached and whose level is kept, the data of its tile: the same as after one successful run. -/
theorem Operation.resumed_seed_equals_uninterrupted {atlas : Atlas} {maxZoom : Option Nat}
    {data : Map → Tile → Bytes} {targets : List String} {broken generator : Generator}
    {threshold later fewer more : Nat} {cancelled cancelledLater : Bool}
    {first second : List (Moment Effect Effect.Reply)} {cut pool : Pool Effect Effect.Reply}
    {world between after : World} (inMemory : atlas.cache = some (.memory maxZoom))
    (part : ∀ item ∈ broken.offers, item ∈ generator.offers)
    (interrupted : Runs (seedNew atlas maxZoom targets threshold) (World.Admits (.steady data))
      (start broken fewer cancelled, world) first (cut, between))
    (resumed : Runs (seedNew atlas maxZoom targets later) (World.Admits (.steady data))
      (start generator more cancelledLater, between) second (pool, after))
    (returned : pool.result? = some (.ok ())) :
    let jobs := generator.offers.flatMap (Item.jobs targets)
    (∀ job ∈ jobs, Cache.keeps maxZoom job.tile.level = true →
      world.store.find? job.slot = none →
      ∃ map, atlas.map? job.map = .ok map ∧
        after.store.find? job.slot = some (data (map.atLevel job.tile.level) job.tile)) ∧
    (∀ slot, (∀ job ∈ jobs, Cache.keeps maxZoom job.tile.level = true →
        world.store.find? job.slot = none → job.slot ≠ slot) →
      after.store.find? slot = world.store.find? slot) ∧
    ∀ {other workers : Nat} {cancelledOther : Bool} {moments : List (Moment Effect Effect.Reply)}
      {whole : Pool Effect Effect.Reply} {final : World},
      Runs (seedNew atlas maxZoom targets other) (World.Admits (.steady data))
        (start generator workers cancelledOther, world) moments (whole, final) →
      whole.result? = some (.ok ()) →
      ∀ slot, after.store.find? slot = final.store.find? slot := by
  obtain ⟨maps, cache⟩ := atlas
  obtain rfl : cache = some (.memory maxZoom) := inMemory
  intro jobs
  let seeding : Seeding := ⟨maps, maxZoom, { logThreshold := threshold }, .steady data, jobs, world⟩
  have offered : ∀ job ∈ broken.offers.flatMap (Item.jobs targets), job ∈ jobs := by
    intro job member
    obtain ⟨item, inside, isJob⟩ := List.mem_flatMap.mp member
    exact List.mem_flatMap.mpr ⟨item, part item inside, isJob⟩
  have earlier : seeding.Leads world between := seeding.leads_of_runs rfl offered interrupted
  have completed : seeding.Completed after :=
    Seeding.completed_of_resumed rfl rfl earlier ((seeding.resume { logThreshold := later }
      between).completed_of_ok rfl (fun _ => id) resumed rfl returned)
  have isDue (job : Job) : seeding.IsDue job ↔ world.store.find? job.slot = none :=
    Seeding.isDue_iff rfl
  refine ⟨?_, ?_, ?_⟩
  · intro job member kept absent
    obtain ⟨content, renders, stored⟩ := completed.stored job member kept ((isDue job).mpr absent)
    obtain ⟨map, found, rfl⟩ := Seeding.exists_map_of_renders rfl renders
    exact ⟨map, found, stored⟩
  · intro slot spared
    exact completed.unchanged slot fun job member kept due =>
      spared job member kept ((isDue job).mp due)
  · intro other workers cancelledOther moments whole final uninterrupted succeeded
    -- A run from the beginning is one that resumes after nothing was done.
    have alike : seeding.Completed final :=
      Seeding.completed_of_resumed rfl rfl (.refl world) ((seeding.resume { logThreshold := other }
        world).completed_of_ok rfl (fun _ => id) uninterrupted rfl succeeded)
    exact completed.find?_eq (Seeding.functional_of_steady rfl) alike

namespace Operation

/-- The tile below the top cannot be rendered. -/
def brokenRules : List SourceRule := [⟨{ tile := some "1/0/0" }, .fail (.message "no data")⟩]

def brokenWorld : World := (layeredRun brokenRules {}).2

theorem failed_run_is_completed_by_the_next :
    ∃ first second, Runs layeredPlan (World.Admits (.steady usualContent)) (layeredStart, {}) first
        ((layeredRun brokenRules {}).1.1, brokenWorld) ∧
      Runs layeredPlan (World.Admits (.steady usualContent)) (layeredStart, brokenWorld) second
        ((layeredRun [] brokenWorld).1.1, (layeredRun [] brokenWorld).2) ∧
      (layeredRun brokenRules {}).1.1.result? =
        some (.error (.tileFailed .seed ⟨1, 0, 0⟩ (.renderFailure "no data"))) ∧
      (layeredRun [] brokenWorld).1.1.result? = some (.ok ()) ∧
      ∀ slot, (layeredRun [] brokenWorld).2.store.find? slot =
        (layeredRun [] {}).2.store.find? slot := by
  have steady : (SourceLaw.steady usualContent).Obeyed (ruledSource []) :=
    steady_ruledSource nofun
  have failing : (SourceLaw.steady usualContent).Obeyed (ruledSource brokenRules) := by
    refine steady_ruledSource fun rule member content => ?_
    obtain rfl := List.mem_singleton.mp member
    exact nofun
  obtain ⟨first, interrupted⟩ : ∃ first, Runs layeredPlan _ (layeredStart, {}) first
      ((layeredRun brokenRules {}).1.1, brokenWorld) := exists_runs_admitted failing _ _ _
  obtain ⟨second, resumed⟩ : ∃ second, Runs layeredPlan _ (layeredStart, brokenWorld) second
      ((layeredRun [] brokenWorld).1.1, (layeredRun [] brokenWorld).2) :=
    exists_runs_admitted steady _ _ _
  obtain ⟨moments, uninterrupted⟩ : ∃ moments, Runs layeredPlan _ (layeredStart, {}) moments
      ((layeredRun [] {}).1.1, (layeredRun [] {}).2) := exists_runs_admitted steady _ _ _
  have failed : (layeredRun brokenRules {}).1.1.result? =
      some (.error (.tileFailed .seed ⟨1, 0, 0⟩ (.renderFailure "no data"))) := by cbv
  have returned : (layeredRun [] brokenWorld).1.1.result? = some (.ok ()) := by cbv
  have succeeded : (layeredRun [] {}).1.1.result? = some (.ok ()) := by cbv
  have inMemory : layeredAtlas.cache = some (.memory (some 1)) := rfl
  obtain ⟨-, -, same⟩ :=
    resumed_seed_equals_uninterrupted inMemory (fun _ => id) interrupted resumed returned
  exact ⟨first, second, interrupted, resumed, failed, returned, same uninterrupted succeeded⟩

end Operation

end TilePyramid
