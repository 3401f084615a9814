import TilePyramid.Proofs.Operation.Alone
import TilePyramid.Proofs.Operation.Seeded

/-!
# What any run leaves of a cache

A run that seeds or purges may succeed, fail or break off at any step, and the cache may refuse what
it is asked for. Whatever happens, a slot that is not that of a job keeps its content, the slot of a
job keeps its content or has what the work leaves there, and what was reported done is done. Main
statement: `Operation.run_touches_only_targets`.
-/

set_option autoImplicit false

namespace TilePyramid

open Text.Utf8 (Bytes)
open Pool (Event Moment Runs start tally)

namespace Cache

/-- The cache whose programs fail for chosen keys. -/
def failing (cache : Cache) (failure : CacheVerb → Key → Option Report) : Cache where
  get key := obeying (failure .get key) (cache.get key)
  set key content := obeying (failure .set key) (cache.set key content)
  purge key := obeying (failure .purge key) (cache.purge key)

/-- Where a failure keeps a promise, a program that may be made to fail keeps it if it does without. -/
theorem keeps_obeying {α : Type} {contract : Contract Effect Effect.Reply World} {world : World}
    {promise : Except Report α → World → Prop} {failure : Option Report}
    {program : Action (Except Report α)} (fails : ∀ report later, promise (.error report) later)
    (kept : Task.Keeps contract promise (Work.ofAction program) world) :
    Task.Keeps contract promise (Work.ofAction (obeying failure program)) world := by
  cases failure with
  | none => exact kept
  | some report => exact .done fun _ => fails report _

end Cache

/-- What work on a job may leave in its slot: the data of its tile, or nothing. -/
def Activity.Leaves (activity : Activity) (atlas : Atlas) (maxZoom : Option Nat)
    (data : Map → Tile → Bytes) (job : Job) (content : Option Bytes) : Prop :=
  match activity with
  | .seed => ∃ map, atlas.map? job.map = .ok map ∧
      Cache.keeps maxZoom job.tile.level = true ∧
      content = some (data (map.atLevel job.tile.level) job.tile)
  | .purge => content = none

/-- What is in the slot of a job once work on it was reported done. -/
def Activity.Settles (activity : Activity) (maxZoom : Option Nat) (job : Job)
    (content : Option Bytes) : Prop :=
  match activity with
  | .seed => Cache.keeps maxZoom job.tile.level = true → content ≠ none
  | .purge => content = none

theorem Activity.settles_of_leaves {activity : Activity} {atlas : Atlas} {maxZoom : Option Nat}
    {data : Map → Tile → Bytes} {job : Job} {content : Option Bytes}
    (leaves : activity.Leaves atlas maxZoom data job content) :
    activity.Settles maxZoom job content := by
  cases activity with
  | seed =>
      obtain ⟨map, -, -, rfl⟩ := leaves
      intro _
      simp
  | purge => exact leaves

/-- Work on jobs over a cache in memory that may refuse it. -/
structure Treatment where
  activity : Activity
  maps : List Map
  maxZoom : Option Nat
  failure : CacheVerb → Cache.Key → Option Report
  options : Operation.SeedOptions
  data : Map → Tile → Bytes
  jobs : List Job

namespace Treatment

variable (treatment : Treatment)

def cache : Cache := (Cache.memory treatment.maxZoom).failing treatment.failure

def atlas : Atlas := ⟨treatment.maps, some treatment.cache⟩

def Leaves (job : Job) (content : Option Bytes) : Prop :=
  treatment.activity.Leaves treatment.atlas treatment.maxZoom treatment.data job content

def Settled (job : Job) (world : World) : Prop :=
  treatment.activity.Settles treatment.maxZoom job (world.store.find? job.slot)

/-- What the work may change: each slot keeps its content or is that of a job and has what the work
leaves there. -/
def Leads (before after : World) : Prop :=
  ∀ slot, after.store.find? slot = before.store.find? slot ∨
    ∃ job ∈ treatment.jobs, job.slot = slot ∧ treatment.Leaves job (after.store.find? slot)

variable {treatment} {job : Job} {before after world : World}

namespace Leads

theorem of_same (same : after.store = before.store) : treatment.Leads before after :=
  fun _ => .inl (by rw [same])

theorem trans {first second third : World} (earlier : treatment.Leads first second)
    (later : treatment.Leads second third) : treatment.Leads first third := by
  intro slot
  rcases later slot with same | changed
  · rw [same]
    exact earlier slot
  · exact .inr changed

theorem settled (leads : treatment.Leads before after) (settled : treatment.Settled job before) :
    treatment.Settled job after := by
  rcases leads job.slot with same | ⟨other, -, isSlot, left⟩
  · unfold Settled
    rw [same]
    exact settled
  · obtain rfl := Job.slot_injective isSlot
    exact Activity.settles_of_leaves left

end Leads

variable (treatment) in
def contract : Contract Effect Effect.Reply World where
  answers := World.Admits (.steady treatment.data)
  allows := treatment.Leads
  refl _ := .of_same rfl
  trans := Leads.trans

theorem lasts_settled : treatment.contract.Lasts (treatment.Settled job) := Leads.settled

theorem keeps_clock : Task.Keeps treatment.contract (fun _ _ => True) (Work.ask .clock) world :=
  keeps_ask fun answer => .of_same (by rw [answer.eq_of_clock])

theorem keeps_log {entry : LogEntry} :
    Task.Keeps treatment.contract (fun _ _ => True) (Work.ask (.log entry)) world :=
  keeps_ask fun answer => .of_same (by rw [answer.log])

theorem keeps_fetch {map : Map} :
    Task.Keeps treatment.contract
      (fun result _ => ∀ content, result = .ok content → content = treatment.data map job.tile)
      (Atlas.fetch map job.tile) world := by
  have ask : Task.Keeps treatment.contract
      (fun reply _ => True ∧ ∀ result, reply.answer.result? = some result →
        SourceLaw.steady treatment.data map job.tile result)
      (Work.ask (.fetch map job.tile)) world := by
    refine .perform ?_ ?_
    · intro before reply after _ answer
      exact .of_same (by rw [answer.fetch.2])
    · intro before reply after later _ answer _
      exact ⟨trivial, answer.fetch.1⟩
  have lasts : treatment.contract.Lasts fun _ => True := fun _ => id
  refine (Atlas.keeps_fetch lasts ask).weaken ?_
  intro result later brought content ok
  exact (brought content ok).2 content rfl

/-- What is put in the slot of a job or taken from it is what the work on it leaves. -/
theorem keeps_change {effect : Effect} (member : job ∈ treatment.jobs)
    (changed : ∀ {before reply after},
      World.Admits (.steady treatment.data) effect before reply after →
      treatment.Leaves job (after.store.find? job.slot) ∧
        ∀ slot, slot ≠ job.slot → after.store.find? slot = before.store.find? slot) :
    Task.Keeps treatment.contract (fun _ => treatment.Settled job) (Work.ask effect) world := by
  refine .perform ?_ ?_
  · intro before reply after _ answer slot
    obtain ⟨left, elsewhere⟩ := changed answer
    by_cases same : slot = job.slot
    · subst same
      exact .inr ⟨job, member, rfl, left⟩
    · exact .inl (elsewhere slot same)
  · intro before reply after later _ answer further
    exact Leads.settled further (Activity.settles_of_leaves (changed answer).1)

section Seed

variable (seeds : treatment.activity = .seed)
include seeds

theorem keeps_set {content : Bytes} (member : job ∈ treatment.jobs)
    (leaves : Cache.keeps treatment.maxZoom job.tile.level = true →
      treatment.Leaves job (some content)) :
    Task.Keeps treatment.contract (fun result later => result = .ok () → treatment.Settled job later)
      (Work.ofAction (treatment.cache.set (.ofJob job) content)) world := by
  refine Cache.keeps_obeying (fun _ _ => nofun) ?_
  by_cases kept : Cache.keeps treatment.maxZoom job.tile.level = true
  · have program : Work.ofAction ((Cache.memory treatment.maxZoom).set (.ofJob job) content) =
        Program.bind (Work.ask (.store job.slot content)) fun _ => .done (.ok ()) := by
      simp only [Cache.memory, Cache.Key.ofJob, if_pos kept]
      rfl
    rw [program]
    refine .bind (keeps_change member ?_) fun {_ _} _ settled => .done fun further _ =>
      Leads.settled further settled
    intro before reply after answer
    obtain rfl := answer.store
    refine ⟨by simpa [Table.find?_put] using leaves kept, fun slot other => ?_⟩
    simp [Table.find?_put, other]
  · have program : Work.ofAction ((Cache.memory treatment.maxZoom).set (.ofJob job) content) =
        .done (.ok ()) := by
      simp only [Cache.memory, Cache.Key.ofJob, if_neg kept]
      rfl
    rw [program]
    refine .done fun _ _ => ?_
    simp only [Settled, Activity.Settles, seeds]
    exact fun keeps => absurd keeps kept

theorem keeps_render {map : Map} (member : job ∈ treatment.jobs)
    (known : treatment.atlas.map? job.map = .ok map) :
    Task.Keeps treatment.contract (fun result later => result = .ok () → treatment.Settled job later)
      (treatment.atlas.render (map.atLevel job.tile.level) job.tile) world := by
  refine Atlas.keeps_render rfl lasts_settled keeps_fetch ?_
  rintro content later rfl
  have key : ({ map := (map.atLevel job.tile.level).name, tile := job.tile } : Cache.Key) =
      .ofJob job := by
    rw [Map.name_atLevel, Atlas.name_of_map? known, Cache.Key.ofJob]
  rw [key]
  refine keeps_set seeds member fun kept => ?_
  simp only [Leaves, Activity.Leaves, seeds]
  exact ⟨map, known, kept, rfl⟩

theorem keeps_get :
    Task.Keeps treatment.contract
      (fun result later => ∀ content, result = .ok content →
        content ≠ none → treatment.Settled job later)
      (Work.ofAction (treatment.cache.get (.ofJob job))) world := by
  refine Cache.keeps_obeying (fun _ _ _ => nofun) ?_
  refine .effect ?_ ?_
  · intro before content after _ answer
    exact .of_same (by rw [answer.lookup.2])
  · intro before content after _ answer
    obtain ⟨rfl, rfl⟩ := answer.lookup
    refine .done fun further found ok cached => ?_
    cases ok
    refine Leads.settled further ?_
    simp only [Settled, Activity.Settles, seeds]
    exact fun _ => cached

end Seed

theorem keeps_purge (purges : treatment.activity = .purge) (member : job ∈ treatment.jobs) :
    Task.Keeps treatment.contract (fun result later => result = .ok () → treatment.Settled job later)
      (Work.ofAction (treatment.cache.purge (.ofJob job))) world := by
  refine Cache.keeps_obeying (fun _ _ => nofun) ?_
  show Task.Keeps _ _ (Program.bind (Work.ask (.discard job.slot)) _) _
  refine .bind (keeps_change member ?_) fun {_ _} _ settled => .done fun further _ =>
    Leads.settled further settled
  intro before reply after answer
  obtain rfl := answer.discard
  refine ⟨?_, fun slot other => by simp [Table.find?_erase, other]⟩
  simp only [Leaves, Activity.Leaves, purges]
  simp [Table.find?_erase]

/-- The operation on a job changes no other slot and leaves the job done when it succeeds, whatever
others who work on the same jobs do meanwhile. -/
theorem keeps_operation {operation : Operation}
    (made : Operation.of treatment.atlas treatment.options treatment.activity = .ok operation)
    (member : job ∈ treatment.jobs) :
    Task.Keeps treatment.contract (fun result later => result = .ok () → treatment.Settled job later)
      (operation job) world := by
  cases doing : treatment.activity with
  | seed =>
      rw [doing] at made
      obtain rfl : Operation.seed treatment.atlas treatment.cache treatment.options = operation :=
        Except.ok.inj made
      have lasts : ∀ content : Option Bytes, treatment.contract.Lasts fun world =>
          content ≠ none → treatment.Settled job world := by
        intro content before after change found cached
        exact Leads.settled change (found cached)
      refine Operation.keeps_seed lasts lasts_settled keeps_clock keeps_log ?_ ?_ ?_
      · intro _ later _
        exact keeps_get doing
      · intro content later found
        exact found nofun
      · intro map later known _ _
        exact keeps_render doing member known
  | purge =>
      rw [doing] at made
      obtain rfl : Operation.purge treatment.atlas = operation := Except.ok.inj made
      refine Operation.keeps_purge lasts_settled keeps_log ?_
      intro map known
      refine Atlas.keeps_remove rfl lasts_settled ?_
      rw [Atlas.name_of_map? known]
      exact keeps_purge doing member

end Treatment

/-- A run that seeds or purges, come as far as it may and whether it has failed or not, has changed
no slot but those of its jobs. There it has left what its work leaves, or nothing was changed, and
each job that was reported done is done. -/
theorem Operation.run_touches_only_targets {atlas : Atlas} {maxZoom : Option Nat}
    {failure : CacheVerb → Cache.Key → Option Report} {activity : Activity} {options : SeedOptions}
    {data : Map → Tile → Bytes} {plan : Plan Effect Effect.Reply} {generator : Generator}
    {concurrency : Nat} {cancelled : Bool} {moments : List (Moment Effect Effect.Reply)}
    {pool : Pool Effect Effect.Reply} {world after : World}
    (overMemory : atlas.cache = some ((Cache.memory maxZoom).failing failure))
    (made : Operation.of atlas options activity = .ok plan.operation)
    (run : Runs plan (World.Admits (.steady data))
      (start generator concurrency cancelled, world) moments (pool, after)) :
    let jobs := generator.offers.flatMap (Item.jobs plan.targets)
    (∀ slot, (∀ job ∈ jobs, job.slot ≠ slot) →
      after.store.find? slot = world.store.find? slot) ∧
    (∀ other ∉ jobs, after.store.find? other.slot = world.store.find? other.slot) ∧
    (∀ job ∈ jobs, after.store.find? job.slot = world.store.find? job.slot ∨
      activity.Leaves atlas maxZoom data job (after.store.find? job.slot)) ∧
    ∀ job, (job, .ok ()) ∈ tally Event.results moments →
      activity.Settles maxZoom job (after.store.find? job.slot) := by
  obtain ⟨maps, cache⟩ := atlas
  obtain rfl : cache = some ((Cache.memory maxZoom).failing failure) := overMemory
  intro jobs
  let treatment : Treatment := ⟨activity, maps, maxZoom, failure, options, data, jobs⟩
  have kept : Pool.KeepsContract treatment.contract
      (fun job result later => result = .ok () → treatment.Settled job later)
      world moments pool after :=
    run.keepsContract fun job member _ _ => treatment.keeps_operation made member
  -- The frame is part of what any two worlds of the run have in common, so it holds wherever it ends.
  have leads : treatment.Leads world after := kept.allowed
  have spared (slot : String) (free : ∀ job ∈ jobs, job.slot ≠ slot) :
      after.store.find? slot = world.store.find? slot := by
    rcases leads slot with same | ⟨job, member, isSlot, -⟩
    · exact same
    · exact absurd isSlot (free job member)
  refine ⟨spared, ?_, ?_, ?_⟩
  · intro other outside
    refine spared other.slot fun job member same => outside ?_
    rwa [← Job.slot_injective same]
  · intro job member
    rcases leads job.slot with same | ⟨other, -, isSlot, left⟩
    · exact .inl same
    · obtain rfl := Job.slot_injective isSlot
      exact .inr left
  · intro job succeeded
    exact kept.finished succeeded (treatment.contract.refl after) rfl

namespace Operation

/-- Memory that refuses to store tiles below the top. -/
def refusing : Cache := (Cache.memory none).failing fun verb key =>
  if verb = .set ∧ 0 < key.tile.level then some (.message "full") else none

def refusedAtlas : Atlas := ⟨[{ name := "a" }], some refusing⟩

def refusedPlan : Plan Effect Effect.Reply where
  targets := ["a"]
  operation := seed refusedAtlas refusing {}

def twoLevels : Pool Effect Effect.Reply :=
  start (Generator.ofItems [.tile ⟨0, 0, 0⟩, .tile ⟨1, 0, 0⟩]) 1 false

def strangeWorld : World := { store := Table.empty.put "b/0/0/0" [7] }

def refusedRun : (Pool Effect Effect.Reply × List Event) × World :=
  (Pool.run refusedPlan (World.answer (ruledSource [])) twoLevels []).run strangeWorld

/-- The tile at the top is done before the run fails, and stays; that of the other map was there. -/
theorem failed_run_keeps_what_it_did :
    ∃ moments, Runs refusedPlan (World.Admits (.steady usualContent)) (twoLevels, strangeWorld)
        moments (refusedRun.1.1, refusedRun.2) ∧
      refusedRun.1.1.result? =
        some (.error (.tileFailed .seed ⟨1, 0, 0⟩ (.cacheFailure "full"))) ∧
      refusedRun.2.store.find? "b/0/0/0" = some [7] ∧
      refusedRun.2.store.find? (Job.slot ⟨"a", ⟨0, 0, 0⟩⟩) ≠ none := by
  obtain ⟨moments, scheduled, told⟩ : ∃ moments, Runs refusedPlan _ (twoLevels, strangeWorld) moments
      (refusedRun.1.1, refusedRun.2) ∧ _ := Pool.exists_runs_run _ _ _
  have steady : (SourceLaw.steady usualContent).Obeyed (ruledSource []) := steady_ruledSource nofun
  have run : Runs refusedPlan (World.Admits (.steady usualContent)) (twoLevels, strangeWorld)
      moments (refusedRun.1.1, refusedRun.2) :=
    scheduled.mono fun answer => .of_perform steady answer
  have results : tally Event.results moments =
      [(⟨"a", ⟨0, 0, 0⟩⟩, .ok ()),
        (⟨"a", ⟨1, 0, 0⟩⟩, .error (.tileFailed .seed ⟨1, 0, 0⟩ (.cacheFailure "full")))] := by
    rw [← told Event.results rfl]
    cbv
  have overMemory : refusedAtlas.cache = some refusing := rfl
  have made : Operation.of refusedAtlas {} .seed = .ok refusedPlan.operation := rfl
  obtain ⟨spared, -, -, settled⟩ := run_touches_only_targets overMemory made run
  have done := settled ⟨"a", ⟨0, 0, 0⟩⟩ (by rw [results]; exact List.mem_cons_self)
  refine ⟨moments, run, by cbv, ?_, done rfl⟩
  rw [spared "b/0/0/0" (by decide)]
  rfl

def slashedPlan : Plan Effect Effect.Reply where
  targets := ["a/0"]
  operation := purge slashedAtlas

def slashedRun : (Pool Effect Effect.Reply × List Event) × World :=
  (Pool.run slashedPlan (World.answer (ruledSource [])) oneTile []).run layeredWorld

/-- A key that is no job's loses its content to the purge of a tile of another map: the texts of the
two keys are the same. -/
theorem key_of_no_job_loses_content :
    ∃ moments, Runs slashedPlan (World.Admits (.steady usualContent)) (oneTile, layeredWorld)
        moments (slashedRun.1.1, slashedRun.2) ∧
      slashedAtlas.cache = some ((Cache.memory none).failing fun _ _ => none) ∧
      Operation.of slashedAtlas {} .purge = .ok slashedPlan.operation ∧
      slashedRun.1.1.result? = some (.ok ()) ∧
      (∀ job, Cache.Key.ofJob job ≠ layerKey) ∧
      Cache.answer (ruledSource []) (.memory none) layerKey layeredWorld = .ok (some [7]) ∧
      Cache.answer (ruledSource []) (.memory none) layerKey slashedRun.2 = .ok none := by
  have steady : (SourceLaw.steady usualContent).Obeyed (ruledSource []) := steady_ruledSource nofun
  obtain ⟨moments, run⟩ : ∃ moments, Runs slashedPlan _ (oneTile, layeredWorld) moments
      (slashedRun.1.1, slashedRun.2) := exists_runs_admitted steady _ _ _
  exact ⟨moments, run, rfl, rfl, by cbv, ofJob_ne_layerKey, by cbv, by cbv⟩

end Operation

end TilePyramid
