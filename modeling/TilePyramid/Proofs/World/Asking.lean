import TilePyramid.Proofs.World.Performing
import TilePyramid.Proofs.World.Sources

/-!
# What actions ask for

Surroundings may answer in ways that no world with a fixed source and a clock at rest does. An action
that asks neither the source nor the clock gets the same answers in all of them, and one that only
asks about what is stored leaves the rest of the world as it is. Main statements: `Asks.run_eq` and
`Asks.frame`.
-/

set_option autoImplicit false

namespace TilePyramid

/-- Surroundings do what a world can do whose source obeys a law. -/
def World.Lawful (law : SourceLaw) (answer : (effect : Effect) → StateM World effect.Reply) : Prop :=
  ∀ effect world,
    World.Admits law effect world ((answer effect).run world).1 ((answer effect).run world).2

theorem World.lawful_answer {law : SourceLaw} {source : Map → Tile → SourceReply}
    (obeyed : law.Obeyed source) : World.Lawful law (World.answer source) :=
  fun _ _ => .performed obeyed

namespace Effect

/-- The world alone tells the reply. -/
def isTold : Effect → Bool
  | .fetch _ _ | .clock => false
  | _ => true

/-- The effect is about stored content or files. -/
def isStorage : Effect → Bool
  | .readInput | .fetch _ _ | .clock | .log _ => false
  | _ => true

/-- The effect looks at stored content or files. -/
def isLook : Effect → Bool
  | .lookup _ | .readFile _ => true
  | _ => false

end Effect

theorem World.exists_changeFiles (change : Except Files.Fault Files.Tree) (world : World) :
    ∃ store files, (world.changeFiles change).2 = { world with store, files } := by
  cases change <;> exact ⟨_, _, rfl⟩

namespace World.Admits

variable {law : SourceLaw} {effect : Effect} {world after : World} {reply : effect.Reply}

theorem perform_eq (admits : World.Admits law effect world reply after)
    (told : effect.isTold = true) (source : Map → Tile → SourceReply) :
    world.perform source effect = (reply, after) := by
  cases admits with
  | ticked => cases told
  | performed obeyed => cases effect <;> first | rfl | cases told

theorem eq_of_isLook (admits : World.Admits law effect world reply after)
    (look : effect.isLook = true) : after = world := by
  cases admits with
  | ticked => rfl
  | performed obeyed => cases effect <;> first | rfl | cases look

theorem exists_of_isStorage (admits : World.Admits law effect world reply after)
    (storage : effect.isStorage = true) : ∃ store files, after = { world with store, files } := by
  cases admits with
  | ticked => cases storage
  | performed obeyed =>
      cases effect with
      | writeFile path content => exact exists_changeFiles (world.files.write path content) world
      | moveFile origin target => exact exists_changeFiles (world.files.move origin target) world
      | removeFile path => exact exists_changeFiles (world.files.remove path) world
      | readInput | fetch map tile | clock | log entry => cases storage
      | _ => exact ⟨_, _, rfl⟩

end World.Admits

/-- Whatever the replies, an action asks only for effects of a kind. -/
inductive Action.Asks {α : Type} (among : Effect → Bool) : Action α → Prop where
  | done (result : α) : Asks among (.done result)
  | ask {effect : Effect} {next : effect.Reply → Action α} (member : among effect = true)
      (goesOn : ∀ reply, Asks among (next reply)) : Asks among (.ask effect next)

namespace Action.Asks

variable {α β : Type} {among : Effect → Bool} {action : Action α} {law : SourceLaw}
  {answer : (effect : Effect) → StateM World effect.Reply}

theorem bind {next : α → Action β} (first : action.Asks among)
    (rest : ∀ result, (next result).Asks among) : Action.Asks among (Program.bind action next) := by
  induction first with
  | done result => exact rest result
  | ask member _ ih => exact .ask member ih

/-- An action that asks neither the source nor the clock comes to the same in all surroundings. -/
theorem run_eq (asks : action.Asks Effect.isTold) (lawful : World.Lawful law answer)
    (source : Map → Tile → SourceReply) (world : World) :
    (action.run answer).run world = action.on source world := by
  induction asks generalizing world with
  | done result => rfl
  | @ask effect next member _ ih =>
      rw [Program.run, StateT.run_bind, Action.on_ask,
        (lawful effect world).perform_eq member source]
      exact ih _ _

/-- What every effect of a kind may change, and what follows from such changes, is all that an action
changes. -/
theorem allows (asks : action.Asks among) (lawful : World.Lawful law answer)
    {allows : World → World → Prop} (refl : ∀ world, allows world world)
    (trans : ∀ {first second third}, allows first second → allows second third → allows first third)
    (allowed : ∀ {effect before reply after}, among effect = true →
      World.Admits law effect before reply after → allows before after) (world : World) :
    allows world ((action.run answer).run world).2 := by
  induction asks generalizing world with
  | done result => exact refl world
  | @ask effect next member _ ih =>
      rw [Program.run, StateT.run_bind]
      exact trans (allowed member (lawful effect world)) (ih _ _)

theorem frame (asks : action.Asks Effect.isStorage) (lawful : World.Lawful law answer)
    (world : World) :
    ∃ store files, ((action.run answer).run world).2 = { world with store, files } := by
  refine @allows _ _ _ _ _ asks lawful
    (fun before after => ∃ store files, after = { before with store, files }) ?_ ?_ ?_ world
  · exact fun world => ⟨world.store, world.files, rfl⟩
  · rintro first second third ⟨store, files, rfl⟩ ⟨later, left, rfl⟩
    exact ⟨later, left, rfl⟩
  · exact fun member admits => admits.exists_of_isStorage member

theorem unchanged (asks : action.Asks Effect.isLook) (lawful : World.Lawful law answer)
    (world : World) : ((action.run answer).run world).2 = world :=
  @allows _ _ _ _ _ asks lawful (fun before after => after = before) (fun _ => rfl)
    (fun first second => second.trans first) (fun member admits => admits.eq_of_isLook member) world

end Action.Asks

end TilePyramid
