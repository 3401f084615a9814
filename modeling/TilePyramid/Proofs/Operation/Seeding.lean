import TilePyramid.Cache
import TilePyramid.Proofs.Cache.Key
import TilePyramid.Proofs.Operation.Contract

/-!
# Seeding next to other work

Seeding a job looks at the cache, fetches and stores, and anything may happen between these steps.
What helps is that all who seed the same jobs change the world in one way only: they fetch due jobs,
and put what the source brought for a due job that they have fetched into its slot. Main statement:
`Seeding.keeps_seed`.
-/

set_option autoImplicit false

namespace TilePyramid

open Text.Utf8 (Bytes)

/-- The seeding of jobs into a cache in memory, from a world at first. -/
structure Seeding where
  maps : List Map
  maxZoom : Option Nat
  options : Operation.SeedOptions
  law : SourceLaw
  jobs : List Job
  initial : World

namespace Seeding

variable (seeding : Seeding)

def cache : Cache := .memory seeding.maxZoom

def atlas : Atlas := ⟨seeding.maps, some seeding.cache⟩

def operation : Operation := Operation.seed seeding.atlas seeding.cache seeding.options

/-- The tile of a job is to be rendered, whether it is cached or because it is not. -/
def IsDue (job : Job) : Prop :=
  seeding.options.overwrite = true ∨ seeding.initial.store.find? job.slot = none

/-- The source may bring the content for the map of a job, without the layers that are inactive. -/
def Renders (job : Job) (content : Bytes) : Prop :=
  ∃ map, seeding.atlas.map? job.map = .ok map ∧
    seeding.law (map.atLevel job.tile.level) job.tile (.ok content)

/-- The tile of a job was fetched since the beginning. -/
def Fetched (job : Job) (world : World) : Prop :=
  ∃ fetches, world.fetches = fetches ++ seeding.initial.fetches ∧ job ∈ fetches

def Stored (job : Job) (world : World) : Prop :=
  ∃ content, seeding.Renders job content ∧ world.store.find? job.slot = some content

/-- The slot is that of a due job, which was fetched and stored. -/
def Filled (slot : String) (world : World) : Prop :=
  ∃ job ∈ seeding.jobs, job.slot = slot ∧ Cache.keeps seeding.maxZoom job.tile.level = true ∧
    seeding.IsDue job ∧ seeding.Fetched job world ∧ seeding.Stored job world

/-- What those who seed the jobs may change in the world. -/
structure Leads (before after : World) : Prop where
  fetched : ∃ fetches, after.fetches = fetches ++ before.fetches ∧
    ∀ job ∈ fetches, job ∈ seeding.jobs ∧ seeding.IsDue job
  stored : ∀ slot, after.store.find? slot = before.store.find? slot ∨ seeding.Filled slot after

/-- What the source brought for a job is stored, if the cache keeps its level. -/
structure Seeded (job : Job) (world : World) : Prop where
  fetched : seeding.Fetched job world
  stored : Cache.keeps seeding.maxZoom job.tile.level = true → seeding.Stored job world

/-- Nothing is left to do for a job. -/
def Settled (job : Job) (world : World) : Prop := seeding.IsDue job → seeding.Seeded job world

/-- What is promised of a job whose seeding has come to a result. -/
def Promised (job : Job) (result : Except Error Unit) (world : World) : Prop :=
  result = .ok () → seeding.Settled job world

variable {seeding} {job : Job} {before after world : World}

theorem Filled.of_slot (filled : seeding.Filled job.slot world) :
    seeding.IsDue job ∧ seeding.Fetched job world ∧ seeding.Stored job world := by
  obtain ⟨other, -, same, -, due, fetched, stored⟩ := filled
  obtain rfl := Job.slot_injective same
  exact ⟨due, fetched, stored⟩

namespace Leads

theorem of_same_fetches (same : after.fetches = before.fetches)
    (stored : ∀ slot, after.store.find? slot = before.store.find? slot ∨ seeding.Filled slot after) :
    seeding.Leads before after :=
  ⟨⟨[], same, nofun⟩, stored⟩

theorem of_same (fetches : after.fetches = before.fetches) (store : after.store = before.store) :
    seeding.Leads before after :=
  .of_same_fetches fetches fun _ => .inl (by rw [store])

theorem refl (world : World) : seeding.Leads world world := .of_same rfl rfl

theorem fetched_of_fetched (leads : seeding.Leads before after) (fetched : seeding.Fetched job before) :
    seeding.Fetched job after := by
  obtain ⟨earlier, first, member⟩ := fetched
  obtain ⟨later, second, -⟩ := leads.fetched
  refine ⟨later ++ earlier, ?_, List.mem_append_right later member⟩
  rw [second, first, List.append_assoc]

theorem trans {first second third : World} (earlier : seeding.Leads first second)
    (later : seeding.Leads second third) : seeding.Leads first third := by
  constructor
  · obtain ⟨fetches, before, due⟩ := earlier.fetched
    obtain ⟨others, after, alsoDue⟩ := later.fetched
    refine ⟨others ++ fetches, by rw [after, before, List.append_assoc], fun job member => ?_⟩
    rcases List.mem_append.mp member with late | early
    · exact alsoDue job late
    · exact due job early
  · intro slot
    rcases later.stored slot with same | changed
    · rcases earlier.stored slot with unchanged | ⟨job, member, rfl, kept, due, fetched, stored⟩
      · exact .inl (same.trans unchanged)
      · obtain ⟨content, renders, found⟩ := stored
        exact .inr ⟨job, member, rfl, kept, due, later.fetched_of_fetched fetched, content, renders,
          same.trans found⟩
    · exact .inr changed

theorem stored_of_stored (leads : seeding.Leads before after) (stored : seeding.Stored job before) :
    seeding.Stored job after := by
  obtain ⟨content, renders, found⟩ := stored
  rcases leads.stored job.slot with same | filled
  · exact ⟨content, renders, same.trans found⟩
  · exact filled.of_slot.2.2

theorem seeded_of_seeded (leads : seeding.Leads before after) (seeded : seeding.Seeded job before) :
    seeding.Seeded job after :=
  ⟨leads.fetched_of_fetched seeded.fetched, fun kept => leads.stored_of_stored (seeded.stored kept)⟩

theorem settled (leads : seeding.Leads before after) (settled : seeding.Settled job before) :
    seeding.Settled job after :=
  fun due => leads.seeded_of_seeded (settled due)

end Leads

variable (seeding) in
def contract : Contract Effect Effect.Reply World where
  answers := World.Admits seeding.law
  allows := seeding.Leads
  refl := Leads.refl
  trans := Leads.trans

theorem keeps_clock : Task.Keeps seeding.contract (fun _ _ => True) (Work.ask .clock) world :=
  keeps_ask fun answer => by
    rw [answer.eq_of_clock]
    exact .refl _

theorem keeps_log {entry : LogEntry} :
    Task.Keeps seeding.contract (fun _ _ => True) (Work.ask (.log entry)) world :=
  keeps_ask fun answer => by
    rw [answer.log]
    exact .of_same rfl rfl

theorem keeps_ask_fetch {map : Map} (member : job ∈ seeding.jobs) (due : seeding.IsDue job)
    (named : map.name = job.map) (since : seeding.Leads seeding.initial world) :
    Task.Keeps seeding.contract
      (fun reply later => seeding.Fetched job later ∧
        ∀ result, reply.answer.result? = some result → seeding.law map job.tile result)
      (Work.ask (.fetch map job.tile)) world := by
  have changed {before after : World} {reply : SourceReply}
      (answer : World.Admits seeding.law (.fetch map job.tile) before reply after) :
      after = { before with fetches := job :: before.fetches } := by
    obtain ⟨-, rfl⟩ := answer.fetch
    rw [named]
  refine .perform ?_ ?_
  · intro before reply after _ answer
    obtain rfl := changed answer
    refine ⟨⟨[job], rfl, ?_⟩, fun _ => .inl rfl⟩
    intro other single
    rw [List.mem_singleton.mp single]
    exact ⟨member, due⟩
  · intro before reply after later earlier answer change
    obtain rfl := changed answer
    obtain ⟨fetches, same, -⟩ := (since.trans earlier).fetched
    refine ⟨change.fetched_of_fetched ⟨job :: fetches, ?_, List.mem_cons_self⟩, answer.fetch.1⟩
    rw [same, List.cons_append]

/-- What was brought for a due job that was fetched may be stored, and then the job is done. -/
theorem Leads.of_put {content : Bytes} (member : job ∈ seeding.jobs) (due : seeding.IsDue job)
    (kept : Cache.keeps seeding.maxZoom job.tile.level = true) (renders : seeding.Renders job content)
    (fetched : seeding.Fetched job world) :
    seeding.Leads world { world with store := world.store.put job.slot content } ∧
      seeding.Seeded job { world with store := world.store.put job.slot content } := by
  have stored : seeding.Stored job { world with store := world.store.put job.slot content } :=
    ⟨content, renders, by simp [Table.find?_put]⟩
  refine ⟨.of_same_fetches rfl fun slot => ?_, fetched, fun _ => stored⟩
  by_cases same : slot = job.slot
  · exact .inr ⟨job, member, same.symm, kept, due, fetched, stored⟩
  · exact .inl (by simp [Table.find?_put, same])

theorem keeps_ask_store {content : Bytes} (member : job ∈ seeding.jobs) (due : seeding.IsDue job)
    (kept : Cache.keeps seeding.maxZoom job.tile.level = true) (renders : seeding.Renders job content)
    (fetched : seeding.Fetched job world) :
    Task.Keeps seeding.contract (fun _ => seeding.Seeded job) (Work.ask (.store job.slot content))
      world := by
  refine .perform ?_ ?_
  · intro before _ after change answer
    obtain rfl := answer.store
    exact (Leads.of_put member due kept renders (change.fetched_of_fetched fetched)).1
  · intro before _ after later change answer further
    obtain rfl := answer.store
    exact further.seeded_of_seeded
      (Leads.of_put member due kept renders (change.fetched_of_fetched fetched)).2

theorem keeps_set {content : Bytes} (member : job ∈ seeding.jobs) (due : seeding.IsDue job)
    (renders : seeding.Renders job content) (fetched : seeding.Fetched job world) :
    Task.Keeps seeding.contract (fun _ => seeding.Seeded job)
      (Work.ofAction (seeding.cache.set (.ofJob job) content)) world := by
  by_cases kept : Cache.keeps seeding.maxZoom job.tile.level = true
  · have program : Work.ofAction (seeding.cache.set (.ofJob job) content) =
        Program.bind (Work.ask (.store job.slot content)) fun _ => .done (.ok ()) := by
      simp only [cache, Cache.memory, Cache.Key.ofJob, if_pos kept]
      rfl
    rw [program]
    refine .bind (keeps_ask_store member due kept renders fetched) ?_
    intro _ later _ seeded
    exact .done fun further => further.seeded_of_seeded seeded
  · have program : Work.ofAction (seeding.cache.set (.ofJob job) content) = .done (.ok ()) := by
      simp only [cache, Cache.memory, Cache.Key.ofJob, if_neg kept]
      rfl
    rw [program]
    exact .done fun change => ⟨change.fetched_of_fetched fetched, fun keeps => absurd keeps kept⟩

theorem keeps_render {map : Map} (member : job ∈ seeding.jobs) (due : seeding.IsDue job)
    (found : seeding.atlas.map? job.map = .ok map) (since : seeding.Leads seeding.initial world) :
    Task.Keeps seeding.contract (fun result later => result = .ok () → seeding.Seeded job later)
      (seeding.atlas.render (map.atLevel job.tile.level) job.tile) world := by
  have named : map.name = job.map := Atlas.name_of_map? found
  have lasts : seeding.contract.Lasts (seeding.Fetched job) := Leads.fetched_of_fetched
  have lastsSeeded : seeding.contract.Lasts (seeding.Seeded job) := Leads.seeded_of_seeded
  have renamed : (map.atLevel job.tile.level).name = job.map := named
  have fetched := Atlas.keeps_fetch lasts (keeps_ask_fetch member due renamed since)
  refine Atlas.keeps_render rfl lastsSeeded fetched ?_
  rintro content later ⟨fetched, lawful⟩
  have key : ({ map := (map.atLevel job.tile.level).name, tile := job.tile } : Cache.Key) =
      .ofJob job := by
    rw [renamed, Cache.Key.ofJob]
  rw [key]
  exact (keeps_set member due ⟨map, found, lawful⟩ fetched).weaken fun seeded _ => seeded

/-- What a look at the cache tells of a job in the midst of seeding. -/
theorem cached_of_leads (job : Job) (fresh : seeding.options.overwrite = false)
    (since : seeding.Leads seeding.initial world) :
    (world.store.find? job.slot = none → seeding.IsDue job) ∧
      (world.store.find? job.slot ≠ none → seeding.Settled job world) := by
  -- What is found was there at first, or was stored meanwhile for the same job.
  rcases since.stored job.slot with same | filled
  · rw [same]
    refine ⟨.inr, fun cached due => ?_⟩
    rcases due with overwrite | absent
    · simp [fresh] at overwrite
    · exact absurd absent cached
  · obtain ⟨due, fetched, stored⟩ := filled.of_slot
    exact ⟨fun _ => due, fun _ _ => ⟨fetched, fun _ => stored⟩⟩

variable (seeding job) in
/-- What was found for a job tells whether it is due. -/
def Found (content : Option Bytes) (world : World) : Prop :=
  (content = none → seeding.IsDue job) ∧ (content ≠ none → seeding.Settled job world)

theorem keeps_get (fresh : seeding.options.overwrite = false)
    (since : seeding.Leads seeding.initial world) :
    Task.Keeps seeding.contract
      (fun result later => ∀ content, result = .ok content → seeding.Found job content later)
      (Work.ofAction (seeding.cache.get (.ofJob job))) world := by
  refine .effect ?_ ?_
  · intro before content after _ answer
    rw [answer.lookup.2]
    exact .refl _
  · intro before content after change answer
    obtain ⟨rfl, rfl⟩ := answer.lookup
    obtain ⟨due, settled⟩ := cached_of_leads job fresh (since.trans change)
    refine .done fun further found ok => ?_
    cases ok
    exact ⟨due, fun cached => further.settled (settled cached)⟩

/-- Seeding a job leaves it settled, whatever others who seed the same jobs do meanwhile. -/
theorem keeps_seed (member : job ∈ seeding.jobs) (since : seeding.Leads seeding.initial world) :
    Task.Keeps seeding.contract (seeding.Promised job) (seeding.operation job) world := by
  have lastsFound : ∀ content, seeding.contract.Lasts (seeding.Found job content) := by
    intro content before after change found
    exact ⟨found.1, fun cached => Leads.settled change (found.2 cached)⟩
  have lasts : seeding.contract.Lasts (seeding.Settled job) := Leads.settled
  refine Operation.keeps_seed lastsFound lasts keeps_clock keeps_log ?_ ?_ ?_
  · intro fresh later change
    exact keeps_get fresh (since.trans change)
  · intro content later found
    exact found.2 nofun
  · intro map later known change missed
    have due : seeding.IsDue job := missed.elim .inl fun found => found.1 rfl
    exact (keeps_render member due known (since.trans change)).weaken fun seeded ok _ => seeded ok

end Seeding

end TilePyramid
