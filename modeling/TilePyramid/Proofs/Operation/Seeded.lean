import TilePyramid.Proofs.Operation.Seeding
import TilePyramid.Proofs.Pool.Contract
import TilePyramid.Proofs.Pool.Schedule
import TilePyramid.Proofs.World.Performing

/-!
# What a seed run leaves behind

In a run that seeds, other workers are all that may happen between the steps of a job, and they seed
jobs of the same run. So what a successful run leaves in the cache and has fetched is told by its
jobs and the world before it, whatever the order of its steps. Content is kept under the texts of
keys, so a layer whose key has the text of a job's is given the tile of that job. Main statement:
`Operation.seed_ok_stores_and_fetches_due`.
-/

set_option autoImplicit false

namespace TilePyramid

open Text.Utf8 (Bytes)
open Pool (Moment Runs start)

/-- A scheduled run is one of those that a law of its source admits. -/
theorem exists_runs_admitted {law : SourceLaw} {source : Map → Tile → SourceReply}
    (obeyed : law.Obeyed source) (plan : Plan Effect Effect.Reply)
    (pool : Pool Effect Effect.Reply) (world : World) :
    ∃ moments, Runs plan (World.Admits law) (pool, world) moments
      (((Pool.run plan (World.answer source) pool []).run world).1.1,
        ((Pool.run plan (World.answer source) pool []).run world).2) := by
  obtain ⟨moments, run, -⟩ := @Pool.exists_runs_run _ _ _ plan _ (World.answer source) pool world
  exact ⟨moments, run.mono fun answer => .of_perform obeyed answer⟩

namespace Seeding

variable {seeding : Seeding} {world : World}

/-- The tiles of all due jobs were fetched, and no others. -/
theorem exists_fetches (leads : seeding.Leads seeding.initial world)
    (settled : ∀ job ∈ seeding.jobs, seeding.Settled job world) :
    ∃ fetches, world.fetches = fetches ++ seeding.initial.fetches ∧
      ∀ job, job ∈ fetches ↔ job ∈ seeding.jobs ∧ seeding.IsDue job := by
  obtain ⟨fetches, same, due⟩ := leads.fetched
  refine ⟨fetches, same, fun job => ⟨due job, fun ⟨member, isDue⟩ => ?_⟩⟩
  obtain ⟨others, again, fetched⟩ := (settled job member isDue).fetched
  rwa [List.append_cancel_right (again.symm.trans same)] at fetched

variable (seeding) in
/-- No due job is to be stored in the slot. -/
def Spares (slot : String) : Prop :=
  ∀ job ∈ seeding.jobs, Cache.keeps seeding.maxZoom job.tile.level = true → seeding.IsDue job →
    job.slot ≠ slot

variable (seeding world) in
/-- The due jobs whose level is kept are stored, and all else in the cache is as it was. -/
structure Completed : Prop where
  stored : ∀ job ∈ seeding.jobs, Cache.keeps seeding.maxZoom job.tile.level = true →
    seeding.IsDue job → seeding.Stored job world
  unchanged : ∀ slot, seeding.Spares slot →
    world.store.find? slot = seeding.initial.store.find? slot

theorem Leads.unchanged {before : World} {slot : String} (leads : seeding.Leads before world)
    (spared : seeding.Spares slot) : world.store.find? slot = before.store.find? slot := by
  rcases leads.stored slot with same | ⟨job, member, isSlot, kept, due, -⟩
  · exact same
  · exact absurd isSlot (spared job member kept due)

theorem completed_of_settled (leads : seeding.Leads seeding.initial world)
    (settled : ∀ job ∈ seeding.jobs, seeding.Settled job world) : seeding.Completed world :=
  ⟨fun job member kept due => (settled job member due).stored kept, fun _ => leads.unchanged⟩

section Runs

variable (seeding : Seeding) {plan : Plan Effect Effect.Reply} {generator : Generator}
  {concurrency : Nat} {cancelled : Bool} {moments : List (Moment Effect Effect.Reply)}
  {last : Pool Effect Effect.Reply × World}
  (made : Operation.seedOf seeding.atlas seeding.options = .ok plan.operation)
  (offered : ∀ job ∈ generator.offers.flatMap (Item.jobs plan.targets), job ∈ seeding.jobs)
  (run : Runs plan seeding.contract.answers
    (start generator concurrency cancelled, seeding.initial) moments last)

include made offered

theorem keeps_operation {job : Job}
    (member : job ∈ generator.offers.flatMap (Item.jobs plan.targets)) {later : World}
    (since : seeding.Leads seeding.initial later) :
    Task.Keeps seeding.contract (seeding.Promised job) (plan.operation job) later := by
  have same : seeding.operation = plan.operation := Except.ok.inj made
  rw [← same]
  exact keeps_seed (offered job member) since

include run

theorem leads_of_runs : seeding.Leads seeding.initial last.2 :=
  (run.keepsContract fun _ => seeding.keeps_operation made offered).allowed

theorem settled_of_ok (returned : last.1.result? = some (.ok ())) {job : Job}
    (member : job ∈ generator.offers.flatMap (Item.jobs plan.targets)) :
    seeding.Settled job last.2 := by
  have promised : seeding.Promised job (.ok ()) last.2 :=
    run.promised_of_ok (fun _ => seeding.keeps_operation made offered) returned member
  exact promised rfl

theorem completed_of_ok (all : seeding.jobs = generator.offers.flatMap (Item.jobs plan.targets))
    (returned : last.1.result? = some (.ok ())) : seeding.Completed last.2 := by
  refine completed_of_settled (seeding.leads_of_runs made offered run) ?_
  rw [all]
  exact fun job => seeding.settled_of_ok made offered run returned

end Runs

end Seeding

/-- A successful seed run leaves for every job that is due and whose level is kept what the source
answers, at the key of the job and at those with the same text, and it leaves the content of all
other keys, among them those of all whole maps that are no job's. It has fetched the tiles of exactly
the due jobs. -/
theorem Operation.seed_ok_stores_and_fetches_due {atlas : Atlas} {maxZoom : Option Nat}
    {options : SeedOptions} {source : Map → Tile → Except Report Bytes}
    {plan : Plan Effect Effect.Reply} {generator : Generator} {concurrency : Nat} {cancelled : Bool}
    {moments : List (Moment Effect Effect.Reply)} {pool : Pool Effect Effect.Reply}
    {world after : World} (inMemory : atlas.cache = some (.memory maxZoom))
    (made : seedOf atlas options = .ok plan.operation)
    (run : Runs plan (World.Admits (.fixed source))
      (start generator concurrency cancelled, world) moments (pool, after))
    (returned : pool.result? = some (.ok ())) :
    let jobs := generator.offers.flatMap (Item.jobs plan.targets)
    let due (job : Job) := options.overwrite = true ∨ world.store.find? job.slot = none
    (∀ job ∈ jobs, Cache.keeps maxZoom job.tile.level = true → due job →
      ∃ map content, atlas.map? job.map = .ok map ∧
        source (map.atLevel job.tile.level) job.tile = .ok content ∧
        after.store.find? job.slot = some content ∧
        ∀ key : Cache.Key, key.whole = .ofJob job → after.store.find? key.text = some content) ∧
    (∀ key : Cache.Key, (∀ job ∈ jobs, Cache.keeps maxZoom job.tile.level = true → due job →
        key.whole ≠ .ofJob job) →
      after.store.find? key.text = world.store.find? key.text) ∧
    (∀ key : Cache.Key, key.layer = none → (∀ job ∈ jobs, key ≠ .ofJob job) →
      after.store.find? key.text = world.store.find? key.text) ∧
    ∃ fetches, after.fetches = fetches ++ world.fetches ∧
      ∀ job, job ∈ fetches ↔ job ∈ jobs ∧ due job := by
  obtain ⟨maps, cache⟩ := atlas
  obtain rfl : cache = some (.memory maxZoom) := inMemory
  intro jobs due
  let seeding : Seeding := ⟨maps, maxZoom, options, .fixed source, jobs, world⟩
  have leads : seeding.Leads world after := seeding.leads_of_runs made (fun _ => id) run
  have settled : ∀ job ∈ jobs, seeding.Settled job after := fun job =>
    seeding.settled_of_ok made (fun _ => id) run returned
  have completed : seeding.Completed after := Seeding.completed_of_settled leads settled
  have unchanged (key : Cache.Key) (spared : ∀ job ∈ jobs,
      Cache.keeps maxZoom job.tile.level = true → due job → key.whole ≠ .ofJob job) :
      after.store.find? key.text = world.store.find? key.text := by
    refine completed.unchanged key.text fun job member kept isDue same => ?_
    exact spared job member kept isDue (Cache.Key.text_eq_slot_iff.mp same.symm)
  refine ⟨?_, unchanged, ?_, Seeding.exists_fetches leads settled⟩
  · intro job member kept isDue
    obtain ⟨content, ⟨map, found, answered⟩, stored⟩ := completed.stored job member kept isDue
    refine ⟨map, content, found, answered.symm, stored, fun key same => ?_⟩
    rw [Cache.Key.text_eq_slot_iff.mpr same, stored]
  · intro key plain other
    refine unchanged key fun job member _ _ => ?_
    rw [Cache.Key.whole_of_layer_none plain]
    exact other job member

namespace Operation

/-- A map with a layer that is not active at the top. -/
def layeredMap : Map := { name := "a", layers := [{ name := "roads", minZoom := some 1 }] }

def layeredAtlas : Atlas := ⟨[layeredMap], some (.memory (some 1))⟩

def layeredPlan : Plan Effect Effect.Reply where
  targets := ["a"]
  operation := seed layeredAtlas (.memory (some 1)) {}

/-- Two workers, the tile at the top, and twice one below it. -/
def layeredStart : Pool Effect Effect.Reply :=
  start (Generator.ofItems [.tile ⟨0, 0, 0⟩, .tile ⟨1, 0, 0⟩, .tile ⟨1, 0, 0⟩]) 2 false

/-- The tile at the top is cached. -/
def toppedWorld : World := { store := Table.empty.put "a/0/0/0" [7] }

def layeredRun (rules : List SourceRule) (world : World) :
    (Pool Effect Effect.Reply × List Pool.Event) × World :=
  (Pool.run layeredPlan (World.answer (ruledSource rules)) layeredStart []).run world

theorem cached_tile_is_neither_fetched_nor_replaced :
    ∃ moments, Runs layeredPlan (World.Admits (.fixed fun map tile => .ok (usualContent map tile)))
        (layeredStart, toppedWorld) moments
        ((layeredRun [] toppedWorld).1.1, (layeredRun [] toppedWorld).2) ∧
      (layeredRun [] toppedWorld).1.1.result? = some (.ok ()) ∧
      (layeredRun [] toppedWorld).2.store.find? "a/0/0/0" = some [7] ∧
      (layeredRun [] toppedWorld).2.store.find? "a/1/0/0" =
        some (Text.Utf8.encode "a:1/0/0:roads") ∧
      ∃ fetches, (layeredRun [] toppedWorld).2.fetches = fetches ++ [] ∧
        ⟨"a", ⟨0, 0, 0⟩⟩ ∉ fetches ∧ ⟨"a", ⟨1, 0, 0⟩⟩ ∈ fetches := by
  obtain ⟨moments, run⟩ : ∃ moments, Runs layeredPlan _ (layeredStart, toppedWorld) moments
      ((layeredRun [] toppedWorld).1.1, (layeredRun [] toppedWorld).2) :=
    exists_runs_admitted fixed_ruledSource _ _ _
  have returned : (layeredRun [] toppedWorld).1.1.result? = some (.ok ()) := by cbv
  have inMemory : layeredAtlas.cache = some (.memory (some 1)) := rfl
  have made : seedOf layeredAtlas {} = .ok layeredPlan.operation := rfl
  have cached : toppedWorld.store.find? "a/0/0/0" = some [7] := by cbv
  have top : Job.slot ⟨"a", ⟨0, 0, 0⟩⟩ = "a/0/0/0" := by cbv
  have lower : Job.slot ⟨"a", ⟨1, 0, 0⟩⟩ = "a/1/0/0" := by cbv
  have known : layeredAtlas.map? "a" = .ok layeredMap := by rfl
  have due : toppedWorld.store.find? (Job.slot ⟨"a", ⟨1, 0, 0⟩⟩) = none := by cbv
  obtain ⟨stored, unchanged, -, fetches, same, fetched⟩ :=
    seed_ok_stores_and_fetches_due inMemory made run returned
  refine ⟨moments, run, returned, ?_, ?_, fetches, same, ?_, ?_⟩
  · rw [← top, Job.slot, unchanged, ← Job.slot, top, cached]
    rintro job - - (overwrite | absent) isSlot
    · cases overwrite
    · rw [← Cache.Key.text_eq_slot_iff.mpr isSlot, ← Job.slot, top, cached] at absent
      cases absent
  · obtain ⟨map, content, found, answered, there, -⟩ :=
      stored ⟨"a", ⟨1, 0, 0⟩⟩ (by decide) rfl (.inr due)
    obtain rfl := Except.ok.inj (known.symm.trans found)
    obtain rfl := Except.ok.inj answered
    rw [lower] at there
    rw [there]
    cbv
  · intro member
    obtain ⟨-, overwrite | absent⟩ := (fetched _).mp member
    · cases overwrite
    · rw [top, cached] at absent
      cases absent
  · exact (fetched _).mpr ⟨by decide, .inr due⟩

/-- The key of a tile of a layer. -/
def layerKey : Cache.Key := { map := "a", layer := some "0", tile := ⟨1, 0, 0⟩ }

theorem ofJob_ne_layerKey (job : Job) : Cache.Key.ofJob job ≠ layerKey := by
  intro same
  have layer : none = some "0" := congrArg Cache.Key.layer same
  cases layer

def slashedAtlas : Atlas := ⟨[{ name := "a/0" }], some (.memory none)⟩

def oneTile : Pool Effect Effect.Reply := start (Generator.ofItems [.tile ⟨1, 0, 0⟩]) 1 false

def layeredWorld : World := { store := Table.empty.put layerKey.text [7] }

def slashedSeed : Plan Effect Effect.Reply where
  targets := ["a/0"]
  operation := seed slashedAtlas (.memory none) { overwrite := true }

def slashedSeedRun (world : World) : (Pool Effect Effect.Reply × List Pool.Event) × World :=
  (Pool.run slashedSeed (World.answer (ruledSource [])) oneTile []).run world

/-- The bytes of `a/0:1/0/0:`, which the source brings. -/
def seededTile : Bytes := [97, 47, 48, 58, 49, 47, 48, 47, 48, 58]

/-- Whether the cache has content for it or not, a key that is no job's gets the tile of another map:
the texts of the two keys are the same. -/
theorem seed_changes_key_of_no_job :
    slashedAtlas.cache = some (.memory none) ∧
    seedOf slashedAtlas { overwrite := true } = .ok slashedSeed.operation ∧
    (∀ job, Cache.Key.ofJob job ≠ layerKey) ∧
    ∀ world ∈ [{}, layeredWorld], ∃ moments,
      Runs slashedSeed (World.Admits (.fixed fun map tile => .ok (usualContent map tile)))
        (oneTile, world) moments ((slashedSeedRun world).1.1, (slashedSeedRun world).2) ∧
      (slashedSeedRun world).1.1.result? = some (.ok ()) ∧
      Cache.answer (ruledSource []) (.memory none) layerKey (slashedSeedRun world).2 ≠
        Cache.answer (ruledSource []) (.memory none) layerKey world := by
  refine ⟨rfl, rfl, ofJob_ne_layerKey, fun world member => ?_⟩
  obtain ⟨moments, run⟩ : ∃ moments, Runs slashedSeed _ (oneTile, world) moments
      ((slashedSeedRun world).1.1, (slashedSeedRun world).2) :=
    exists_runs_admitted fixed_ruledSource _ _ _
  refine ⟨moments, run, ?_⟩
  simp only [List.mem_cons, List.not_mem_nil, or_false] at member
  obtain rfl | rfl := member
  · have before : Cache.answer (ruledSource []) (.memory none) layerKey {} = .ok none := by cbv
    have after : Cache.answer (ruledSource []) (.memory none) layerKey (slashedSeedRun {}).2 =
        .ok (some seededTile) := by cbv
    rw [before, after]
    exact ⟨by cbv, by decide⟩
  · have before : Cache.answer (ruledSource []) (.memory none) layerKey layeredWorld =
        .ok (some [7]) := by cbv
    have after : Cache.answer (ruledSource []) (.memory none) layerKey
        (slashedSeedRun layeredWorld).2 = .ok (some seededTile) := by cbv
    rw [before, after]
    exact ⟨by cbv, by decide⟩

end Operation

end TilePyramid
