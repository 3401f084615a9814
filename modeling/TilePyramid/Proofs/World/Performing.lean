import TilePyramid.Cache
import TilePyramid.Operation
import TilePyramid.World

/-!
# Programs performed alone

What an action or a task comes to when nothing else is performed next to it: its result and the
world after it. A task that waits for a cancellation in vain comes to no result.
-/

set_option autoImplicit false

namespace TilePyramid

section Performing

variable {α β : Type} (source : Map → Tile → SourceReply)

/-- The result of an action on a world, and the world after it. -/
def Action.on (action : Action α) (world : World) : α × World :=
  (action.run (World.answer source)).run world

@[simp] theorem Action.on_done (result : α) (world : World) :
    Action.on source (.done result) world = (result, world) := rfl

@[simp] theorem Action.on_ask (effect : Effect) (next : effect.Reply → Action α) (world : World) :
    Action.on source (.ask effect next) world =
      Action.on source (next (world.perform source effect).1) (world.perform source effect).2 := rfl

theorem Action.on_bind (action : Action α) (next : α → Action β) (world : World) :
    Action.on source (Program.bind action next) world =
      Action.on source (next (Action.on source action world).1) (Action.on source action world).2 := by
  induction action generalizing world with
  | done result => rfl
  | ask effect replies ih => exact ih _ _

namespace Work

/-- The result of a task on a world if it comes to one, with whether the run is cancelled then, and
the world after it. -/
def on (work : Work α) (cancelled : Bool) (world : World) : (Option α × Bool) × World :=
  (Task.run (World.answer source) cancelled work).run world

variable (cancelled : Bool) (world : World)

@[simp] theorem on_done (result : α) :
    Work.on source (Program.done result) cancelled world = ((some result, cancelled), world) := rfl

@[simp] theorem on_isCancelled (next : Bool → Work α) :
    Work.on source (Program.ask .isCancelled next) cancelled world =
      Work.on source (next cancelled) cancelled world := rfl

@[simp] theorem on_untilCancelled (next : Unit → Work α) :
    Work.on source (Program.ask .untilCancelled next) cancelled world =
      if cancelled then Work.on source (next ()) cancelled world else ((none, cancelled), world) := by
  cases cancelled <;> rfl

@[simp] theorem on_effect (effect : Effect) (next : effect.Reply → Work α) :
    Work.on source (Program.ask (.effect effect) next) cancelled world =
      Work.on source (next (world.perform source effect).1) cancelled
        (world.perform source effect).2 := rfl

/-- What is done after a task is done on the world that the task leaves, if it comes to a result. -/
def afterwards (next : α → Work β) : (Option α × Bool) × World → (Option β × Bool) × World
  | ((some result, cancelled), world) => Work.on source (next result) cancelled world
  | ((none, cancelled), world) => ((none, cancelled), world)

theorem on_bind (work : Work α) (next : α → Work β) :
    Work.on source (Program.bind work next) cancelled world =
      afterwards source next (Work.on source work cancelled world) := by
  induction work generalizing cancelled world with
  | done result => rfl
  | ask request replies ih =>
      rw [Program.ask_bind]
      cases request with
      | isCancelled => exact ih _ _ _
      | cancel => exact ih _ _ _
      | untilCancelled =>
          rw [on_untilCancelled, on_untilCancelled]
          split
          · exact ih _ _ _
          · rfl
      | effect request => exact ih _ _ _

/-- An action is performed as a task without regard to the run. -/
theorem on_ofAction (action : Action α) :
    Work.on source (Work.ofAction action) cancelled world =
      ((some (Action.on source action world).1, cancelled), (Action.on source action world).2) := by
  induction action generalizing world with
  | done result => rfl
  | ask effect next ih => exact ih _ _

theorem on_ofAction_bind (action : Action α) (next : α → Work β) :
    Work.on source (Program.bind (Work.ofAction action) next) cancelled world =
      Work.on source (next (Action.on source action world).1) cancelled
        (Action.on source action world).2 := by
  rw [on_bind, on_ofAction]
  rfl

end Work

end Performing

section Preserving

variable {α β : Type} (source : Map → Tile → SourceReply)
  (holds : Table String Text.Utf8.Bytes → Files.Tree → Prop)

/-- Whatever holds of the store and the files of a world holds after an action. -/
def Action.Preserves (action : Action α) : Prop :=
  ∀ world : World, holds world.store world.files →
    holds (action.on source world).2.store (action.on source world).2.files

/-- Whatever holds of the store and the files of a world holds after a task. -/
def Work.Preserves (work : Work α) : Prop :=
  ∀ (cancelled : Bool) (world : World), holds world.store world.files →
    holds (work.on source cancelled world).2.store (work.on source cancelled world).2.files

variable {source holds}

namespace Work

theorem preserves_done (result : α) : Work.Preserves source holds (Program.done result) :=
  fun _ _ => id

theorem Preserves.bind {work : Work α} {next : α → Work β} (first : work.Preserves source holds)
    (further : ∀ result, (next result).Preserves source holds) :
    Work.Preserves source holds (Program.bind work next) := by
  intro cancelled world kept
  have between := first cancelled world kept
  rw [on_bind]
  rcases performed : work.on source cancelled world with ⟨⟨_ | result, later⟩, after⟩ <;>
    rw [performed] at between
  · exact between
  · exact further result later after between

end Work

end Preserving

namespace Cache

open Text.Utf8 (Bytes)

/-- What a cache tells of a key. -/
def answer (source : Map → Tile → SourceReply) (cache : Cache) (key : Key) (world : World) :
    Except Report (Option Bytes) :=
  ((cache.get key).on source world).1

section Memory

variable {source : Map → Tile → SourceReply} {maxZoom : Option Nat} {key : Key} {content : Bytes}
  {world : World}

theorem memory_get_on : ((memory maxZoom).get key).on source world =
    (.ok (world.store.find? key.text), world) := rfl

theorem memory_set_on (kept : keeps maxZoom key.tile.level = true) :
    ((memory maxZoom).set key content).on source world =
      (.ok (), { world with store := world.store.put key.text content }) := by
  simp only [memory, if_pos kept]
  rfl

theorem memory_set_on_of_deep (deep : keeps maxZoom key.tile.level = false) :
    ((memory maxZoom).set key content).on source world = (.ok (), world) := by
  simp only [memory, deep]
  rfl

theorem memory_purge_on : ((memory maxZoom).purge key).on source world =
    (.ok (), { world with store := world.store.erase key.text }) := rfl

end Memory

end Cache

end TilePyramid
