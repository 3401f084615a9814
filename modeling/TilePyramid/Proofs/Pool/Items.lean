import TilePyramid.Proofs.Pool.History

/-!
# The way of items into a pool

Items go from the generator through the slot of the stream to the coordinator, which receives them
one after the other, and discards those that still come once it has stopped.
-/

set_option autoImplicit false

namespace TilePyramid

variable {Q : Type} {R : Q → Type}

/-- The jobs of the last item received that were not handed out yet, while more can come. -/
def Coordinator.pending? : Coordinator → Option (List Job)
  | .receiving => some []
  | .crossing pending => some pending
  | .offering job pending => some (job :: pending)
  | .closing _ | .draining _ | .joining _ | .returned _ => none

namespace Pool

/-- How the items that were received stand to those that the generator handed over. -/
structure TakesIn (moments : List (Moment Q R)) (pool : Pool Q R) : Prop where
  balanced : tally Event.sentItems moments = tally Event.receivedItems moments ++
    tally Event.discardedItems moments ++ pool.stream.channel.slot.toList
  feeding : pool.coordinator.pending?.isSome = true → tally Event.discardedItems moments = []
  complete : pool.coordinator.pending? = none →
    (∀ reason ∈ tally Event.stops moments, reason = .exhausted) →
    tally Event.discardedItems moments = [] ∧ pool.stream.channel.slot = none ∧
      pool.stream.hasEnded = true

namespace TakesIn

variable {plan : Plan Q R} {moments : List (Moment Q R)} {pool next : Pool Q R} {event : Event}

private theorem quiet {channel : Channel} {queue : Option Job} {latch : Latch}
    {workers : List (Worker Q R)} {coordinator : Coordinator} {cancelled : Bool}
    (kept : TakesIn moments pool) (sent : event.sentItems = []) (received : event.receivedItems = [])
    (discarded : event.discardedItems = []) (slot : channel.slot = pool.stream.channel.slot)
    (stops : event.stops = []) (place : coordinator.pending? = none → pool.coordinator.pending? = none)
    (feeding : coordinator.pending?.isSome = true → pool.coordinator.pending?.isSome = true) :
    TakesIn (moments ++ [⟨pool, event⟩])
      ⟨{ pool.stream with channel }, coordinator, queue, latch, workers, cancelled⟩ := by
  constructor
  · simpa [sent, received, discarded, slot] using kept.balanced
  · intro more
    simpa [discarded] using kept.feeding (feeding more)
  · intro past all
    simpa [discarded, slot, Stream.hasEnded] using
      kept.complete (place past) (by simpa [stops] using all)

/-- The coordinator stops for another reason than that nothing more comes. -/
private theorem breakOff {reason : FeedEnd} {coordinator : Coordinator}
    (kept : TakesIn moments pool) (early : reason ≠ .exhausted)
    (place : coordinator.pending? = none) :
    TakesIn (moments ++ [⟨pool, .stopped reason⟩]) { pool with coordinator } := by
  constructor
  · simpa [Event.sentItems, Event.receivedItems, Event.discardedItems] using kept.balanced
  · intro more
    simp [place] at more
  · intro _ all
    exact absurd (all reason (by simp [Event.stops])) early

theorem step (change : Change plan pool event next) (kept : TakesIn moments pool) :
    TakesIn (moments ++ [⟨pool, event⟩]) next := by
  cases change with
  | cancel running => exact kept.quiet rfl rfl rfl rfl rfl id id
  | worker found move => cases move <;> exact kept.quiet rfl rfl rfl rfl rfl id id
  | generator step =>
      have move := Stream.move_of_turn step
      constructor
      · simp [Event.sentItems, Event.receivedItems, Event.discardedItems, kept.balanced, move.slot]
      · intro more
        simpa [Event.discardedItems] using kept.feeding more
      · intro past all
        have ended := (kept.complete past (by simpa [Event.stops] using all)).2.2
        simp [move.running] at ended
  | coordinator move =>
      cases move with
      | receives place running taken =>
          obtain ⟨full, rfl⟩ := Channel.take?_eq_some_iff.mp taken
          have fresh := kept.feeding (by rw [place]; rfl)
          refine ⟨?_, fun _ => by simp [Event.discardedItems, fresh], nofun⟩
          simp [Event.sentItems, Event.receivedItems, Event.discardedItems, kept.balanced, fresh, full]
      | discards place taken =>
          obtain ⟨full, rfl⟩ := Channel.take?_eq_some_iff.mp taken
          refine ⟨?_, nofun, ?_⟩
          · simp [Event.sentItems, Event.receivedItems, Event.discardedItems, kept.balanced, full]
          · intro _ all
            have empty := kept.complete (by rw [place]; rfl) (by simpa [Event.stops] using all)
            simp [full] at empty
      | exhausts place running empty ended =>
          have fresh := kept.feeding (by rw [place]; rfl)
          refine ⟨?_, nofun, fun _ _ => ?_⟩
          · simpa [Event.sentItems, Event.receivedItems, Event.discardedItems] using kept.balanced
          · exact ⟨by simp [Event.discardedItems, fresh], by simpa using empty, ended⟩
      | halts place cancelled => exact kept.breakOff (by decide) rfl
      | givesUp place failed => exact kept.breakOff (by decide) rfl
      | withdraws place cancelled => exact kept.breakOff (by decide) rfl
      | crosses place =>
          exact kept.quiet rfl rfl rfl rfl rfl nofun fun _ => by rw [place]; rfl
      | offers place unset =>
          exact kept.quiet rfl rfl rfl rfl rfl nofun fun _ => by rw [place]; rfl
      | dispatches place running free =>
          exact kept.quiet rfl rfl rfl rfl rfl nofun fun _ => by rw [place]; rfl
      | closes place =>
          refine kept.quiet rfl rfl rfl ?_ rfl (fun _ => by rw [place]; rfl) nofun
          split <;> rfl
      | drains place empty ended =>
          exact kept.quiet rfl rfl rfl rfl rfl (fun _ => by rw [place]; rfl) nofun
      | joins place ended =>
          exact kept.quiet rfl rfl rfl rfl rfl (fun _ => by rw [place]; rfl) nofun

end TakesIn

section Runs

variable {S : Type} {plan : Plan Q R} {answers : (request : Q) → S → R request → S → Prop}
  {last : Pool Q R × S} {moments : List (Moment Q R)} {generator : Generator} {concurrency : Nat}
  {cancelled : Bool} {state : S}

theorem Runs.takesIn
    (run : Runs plan answers (start generator concurrency cancelled, state) moments last) :
    TakesIn moments last.1 :=
  run.induct TakesIn ⟨rfl, fun _ => rfl, nofun⟩ TakesIn.step

/-- The items that were received are the first ones of those that the generator handed over. -/
theorem Runs.received_prefix
    (run : Runs plan answers (start generator concurrency cancelled, state) moments last) :
    tally Event.receivedItems moments <+: tally Event.sentItems moments := by
  rw [run.takesIn.balanced, List.append_assoc]
  exact List.prefix_append _ _

end Runs

end Pool

end TilePyramid
