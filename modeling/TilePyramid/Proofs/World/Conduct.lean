import TilePyramid.Proofs.World.Asking

/-!
# The conduct of a task

What a task does on its way to a result, in a run that others may cancel at any time: when it looks
whether the run is cancelled, and which effects it asks for. Others matter to it only when it looks
or waits. Main statements: `Conduct.of_bind`, `Conduct.of_action` and `exists_conduct_on`.
-/

set_option autoImplicit false

namespace TilePyramid

namespace Work

inductive Event where
  /-- The task looks whether the run is cancelled. -/
  | looked (cancelled : Bool)
  | asked (effect : Effect)

def Event.look? : Event → Option Bool
  | .looked cancelled => some cancelled
  | .asked _ => none

/-- The map and the tile that a source is asked for. -/
def Event.call? : Event → Option (Map × Tile)
  | .asked (.fetch map tile) => some (map, tile)
  | _ => none

/-- What a task saw of the run when it looked. -/
def looks (events : List Event) : List Bool := events.filterMap Event.look?

/-- The calls of the source. -/
def calls (events : List Event) : List (Map × Tile) := events.filterMap Event.call?

section Events

variable {events further : List Event}

@[simp] theorem looks_nil : looks [] = [] := rfl

@[simp] theorem calls_nil : calls [] = [] := rfl

@[simp] theorem looks_looked (cancelled : Bool) :
    looks (.looked cancelled :: events) = cancelled :: looks events := rfl

@[simp] theorem calls_looked (cancelled : Bool) :
    calls (.looked cancelled :: events) = calls events := rfl

@[simp] theorem looks_asked (effect : Effect) :
    looks (.asked effect :: events) = looks events := rfl

@[simp] theorem calls_fetch (map : Map) (tile : Tile) :
    calls (.asked (.fetch map tile) :: events) = (map, tile) :: calls events := rfl

@[simp] theorem calls_clock : calls (.asked .clock :: events) = calls events := rfl

@[simp] theorem calls_log (entry : LogEntry) :
    calls (.asked (.log entry) :: events) = calls events := rfl

@[simp] theorem looks_append : looks (events ++ further) = looks events ++ looks further :=
  List.filterMap_append

@[simp] theorem calls_append : calls (events ++ further) = calls events ++ calls further :=
  List.filterMap_append

/-- Work on stored content neither looks at the run nor calls the source. -/
theorem quiet_of_isStorage {effects : List Effect}
    (storage : ∀ effect ∈ effects, effect.isStorage = true) :
    looks (effects.map .asked) = [] ∧ calls (effects.map .asked) = [] := by
  constructor
  · simp [looks, Event.look?]
  · simp only [calls, List.filterMap_map, List.filterMap_eq_nil_iff, Function.comp_apply]
    intro effect member
    have kind := storage effect member
    cases effect with
    | fetch map tile => cases kind
    | _ => rfl

end Events

variable {α β : Type}

/-- From a world, and a run that is cancelled or not, a task does something and comes to a result or
waits for ever. Whenever it looks, others may have cancelled the run in the meantime. -/
inductive Conduct (source : Map → Tile → SourceReply) :
    Work α → Bool → World → List Event → Option α → Bool → World → Prop where
  | done {result : α} {cancelled : Bool} {world : World} :
      Conduct source (Program.done result) cancelled world [] (some result) cancelled world
  | isCancelled {next : Bool → Work α} {cancelled later : Bool} {world after : World}
      {events : List Event} {result : Option α} (seen : Bool)
      (final : cancelled = true → seen = true)
      (rest : Conduct source (next seen) seen world events result later after) :
      Conduct source (Program.ask .isCancelled next) cancelled world (.looked seen :: events) result
        later after
  | cancel {next : Unit → Work α} {cancelled later : Bool} {world after : World}
      {events : List Event} {result : Option α}
      (rest : Conduct source (next ()) true world events result later after) :
      Conduct source (Program.ask .cancel next) cancelled world events result later after
  | untilCancelled {next : Unit → Work α} {cancelled later : Bool} {world after : World}
      {events : List Event} {result : Option α}
      (rest : Conduct source (next ()) true world events result later after) :
      Conduct source (Program.ask .untilCancelled next) cancelled world events result later after
  | waits {next : Unit → Work α} {world : World} :
      Conduct source (Program.ask .untilCancelled next) false world [] none false world
  | effect {effect : Effect} {next : effect.Reply → Work α} {cancelled later : Bool}
      {world after : World} {events : List Event} {result : Option α}
      (rest : Conduct source (next (world.perform source effect).1) cancelled
        (world.perform source effect).2 events result later after) :
      Conduct source (Program.ask (.effect effect) next) cancelled world (.asked effect :: events)
        result later after

/-- What a task comes to when it is performed alone is what some conduct of it comes to. -/
theorem exists_conduct_on (source : Map → Tile → SourceReply) (work : Work α) (cancelled : Bool)
    (world : World) : ∃ events, Conduct source work cancelled world events
      (work.on source cancelled world).1.1 (work.on source cancelled world).1.2
      (work.on source cancelled world).2 := by
  induction work generalizing cancelled world with
  | done result => exact ⟨[], .done⟩
  | ask request next ih =>
      cases request with
      | isCancelled =>
          obtain ⟨events, rest⟩ := ih cancelled cancelled world
          exact ⟨_, .isCancelled cancelled id rest⟩
      | cancel =>
          obtain ⟨events, rest⟩ := ih () true world
          exact ⟨_, .cancel rest⟩
      | untilCancelled =>
          rw [on_untilCancelled]
          cases cancelled with
          | true =>
              obtain ⟨events, rest⟩ := ih () true world
              exact ⟨_, .untilCancelled rest⟩
          | false => exact ⟨[], .waits⟩
      | effect effect =>
          obtain ⟨events, rest⟩ := ih _ cancelled (world.perform source effect).2
          exact ⟨_, .effect rest⟩

namespace Conduct

variable {source : Map → Tile → SourceReply} {cancelled later : Bool} {world after : World}
  {events : List Event}

theorem of_done {given : α} {result : Option α}
    (conduct : Conduct source (Program.done given) cancelled world events result later after) :
    events = [] ∧ result = some given ∧ later = cancelled ∧ after = world := by
  cases conduct
  exact ⟨rfl, rfl, rfl, rfl⟩

/-- A task that goes on with the result of another does what both do, unless the first waits for
ever. -/
theorem of_bind {work : Work α} {next : α → Work β} {result : Option β}
    (conduct : Conduct source (Program.bind work next) cancelled world events result later after) :
    (∃ value first rest meanwhile between,
      Conduct source work cancelled world first (some value) meanwhile between ∧
      Conduct source (next value) meanwhile between rest result later after ∧
      events = first ++ rest) ∨
    result = none ∧ Conduct source work cancelled world events none later after := by
  induction work generalizing cancelled world events with
  | done value => exact .inl ⟨value, [], events, cancelled, world, .done, conduct, rfl⟩
  | ask request replies ih =>
      cases conduct with
      | isCancelled seen final rest =>
          obtain ⟨value, first, others, meanwhile, between, head, tail, rfl⟩ | ⟨rfl, waits⟩ :=
            ih _ rest
          · exact .inl ⟨_, _, _, _, _, .isCancelled seen final head, tail, rfl⟩
          · exact .inr ⟨rfl, .isCancelled seen final waits⟩
      | cancel rest =>
          obtain ⟨value, first, others, meanwhile, between, head, tail, rfl⟩ | ⟨rfl, waits⟩ :=
            ih _ rest
          · exact .inl ⟨_, _, _, _, _, .cancel head, tail, rfl⟩
          · exact .inr ⟨rfl, .cancel waits⟩
      | untilCancelled rest =>
          obtain ⟨value, first, others, meanwhile, between, head, tail, rfl⟩ | ⟨rfl, waits⟩ :=
            ih _ rest
          · exact .inl ⟨_, _, _, _, _, .untilCancelled head, tail, rfl⟩
          · exact .inr ⟨rfl, .untilCancelled waits⟩
      | waits => exact .inr ⟨rfl, .waits⟩
      | effect rest =>
          obtain ⟨value, first, others, meanwhile, between, head, tail, rfl⟩ | ⟨rfl, waits⟩ :=
            ih _ rest
          · exact .inl ⟨_, _, _, _, _, .effect head, tail, rfl⟩
          · exact .inr ⟨rfl, .effect waits⟩

theorem of_ask_bind {effect : Effect} {next : effect.Reply → Work β} {result : Option β}
    (conduct : Conduct source (Program.bind (Work.ask effect) next) cancelled world events result
      later after) :
    ∃ rest, events = .asked effect :: rest ∧
      Conduct source (next (world.perform source effect).1) cancelled
        (world.perform source effect).2 rest result later after := by
  cases conduct with
  | effect rest => exact ⟨_, rfl, rest⟩

/-- An action always comes to a result, and asks only for effects of its kind. -/
theorem of_action {action : Action α} {among : Effect → Bool} {result : Option α}
    (asks : action.Asks among)
    (conduct : Conduct source (Work.ofAction action) cancelled world events result later after) :
    result = some (action.on source world).1 ∧ later = cancelled ∧
      after = (action.on source world).2 ∧
      ∃ effects : List Effect, events = effects.map .asked ∧
        ∀ effect ∈ effects, among effect = true := by
  induction asks generalizing world events with
  | done given =>
      obtain ⟨rfl, rfl, rfl, rfl⟩ := conduct.of_done
      exact ⟨rfl, rfl, rfl, [], rfl, nofun⟩
  | @ask effect next member _ ih =>
      cases conduct with
      | effect rest =>
        obtain ⟨rfl, rfl, rfl, effects, rfl, others⟩ := ih _ rest
        refine ⟨rfl, rfl, rfl, effect :: effects, rfl, ?_⟩
        exact List.forall_mem_cons.mpr ⟨member, others⟩

/-- An action on stored content comes first, and neither looks at the run nor calls the source. -/
theorem of_storage_bind {action : Action α} {next : α → Work β} {result : Option β}
    (asks : action.Asks Effect.isStorage)
    (conduct : Conduct source (Program.bind (Work.ofAction action) next) cancelled world events
      result later after) :
    ∃ rest, looks events = looks rest ∧ calls events = calls rest ∧
      Conduct source (next (action.on source world).1) cancelled (action.on source world).2 rest
        result later after := by
  obtain ⟨value, first, rest, meanwhile, between, head, tail, rfl⟩ | ⟨-, waits⟩ := conduct.of_bind
  · obtain ⟨same, rfl, rfl, effects, rfl, storage⟩ := head.of_action asks
    obtain rfl := Option.some.inj same
    obtain ⟨unseen, uncalled⟩ := quiet_of_isStorage storage
    exact ⟨rest, by simp [unseen], by simp [uncalled], tail⟩
  · obtain ⟨same, -⟩ := waits.of_action asks
    cases same

end Conduct

end Work

end TilePyramid
