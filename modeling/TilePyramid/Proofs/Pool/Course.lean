import TilePyramid.Proofs.Pool.Ending
import TilePyramid.Proofs.Stream.Course

/-!
# The course of the generator in a run

Until it has to stop, the generator of a run follows its course; afterwards it hands over nothing
more. So what it has handed over at any point are the first of the items that it set out to offer.
-/

set_option autoImplicit false

namespace TilePyramid

variable {Q : Type} {R : Q → Type}

namespace Pool

variable {plan : Plan Q R} {moments : List (Moment Q R)} {pool next : Pool Q R} {event : Event}
  {generator : Generator}

/-- The generator has to stop at the next occasion. -/
def mustStop (pool : Pool Q R) : Bool := pool.stream.channel.mustStop pool.cancelled

theorem CoordinatorMove.stopped {channel : Channel} {queue : Option Job} {coordinator : Coordinator}
    (move : CoordinatorMove plan pool event channel queue coordinator)
    (stopped : pool.stream.channel.stopped = true) : channel.stopped = true := by
  cases move with
  | receives place running taken =>
      obtain ⟨_, rfl⟩ := Channel.take?_eq_some_iff.mp taken
      exact stopped
  | discards place taken =>
      obtain ⟨_, rfl⟩ := Channel.take?_eq_some_iff.mp taken
      exact stopped
  | closes place =>
      split
      · exact stopped
      · rfl
  | _ => exact stopped

theorem Change.mustStop (change : Change plan pool event next) (stops : pool.mustStop = true) :
    next.mustStop = true := by
  rcases Bool.or_eq_true_iff.mp stops with cancelled | stopped
  · exact Bool.or_eq_true_iff.mpr (.inl (change.cancelled cancelled))
  · refine Bool.or_eq_true_iff.mpr (.inr ?_)
    cases change with
    | generator step =>
        rw [(Stream.move_of_turn step).stopped]
        exact stopped
    | coordinator move => exact move.stopped stopped
    | worker found move => exact stopped
    | cancel running => exact stopped

/-- What the generator has handed over and latched, and what it still will, is what it set out to. -/
structure OnCourse (generator : Generator) (moments : List (Moment Q R)) (pool : Pool Q R) :
    Prop where
  offers_eq : generator.offers = tally Event.sentItems moments ++ pool.stream.generator.offers
  failure?_eq : generator.failure? =
    pool.stream.channel.latch.held.or pool.stream.generator.failure?

/-- The generator is on its course, or has to stop after the first part of it. -/
def KeepsCourse (generator : Generator) (moments : List (Moment Q R)) (pool : Pool Q R) : Prop :=
  OnCourse generator moments pool ∨
    pool.mustStop = true ∧ tally Event.sentItems moments <+: generator.offers

namespace KeepsCourse

private theorem quiet (kept : KeepsCourse generator moments pool) (change : Change plan pool event next)
    (sent : event.sentItems = []) (generators : next.stream.generator = pool.stream.generator)
    (latch : next.stream.channel.latch = pool.stream.channel.latch) :
    KeepsCourse generator (moments ++ [⟨pool, event⟩]) next := by
  rcases kept with ⟨offers, failure⟩ | ⟨stops, leading⟩
  · exact .inl ⟨by simpa [sent, generators] using offers, by simpa [generators, latch] using failure⟩
  · exact .inr ⟨change.mustStop stops, by simpa [sent] using leading⟩

theorem step (change : Change plan pool event next) (kept : KeepsCourse generator moments pool) :
    KeepsCourse generator (moments ++ [⟨pool, event⟩]) next := by
  have whole := change
  cases change with
  | cancel running => exact kept.quiet whole rfl rfl rfl
  | worker found move => exact kept.quiet whole (by cases move <;> rfl) rfl rfl
  | coordinator move => exact kept.quiet whole (by cases move <;> rfl) rfl move.latch_eq
  | @generator exchange stream step =>
      have move := Stream.move_of_turn step
      -- A generator that has to stop hands over nothing, whether it was on its course or not.
      have leaves (stops : pool.mustStop = true)
          (leading : tally Event.sentItems moments <+: generator.offers) :
          KeepsCourse generator (moments ++ [⟨pool, .generated exchange⟩]) { pool with stream } := by
        have none := move.sent?_of_mustStop stops
        exact .inr ⟨whole.mustStop stops, by simpa [Event.sentItems, none] using leading⟩
      rcases kept with ⟨offers, failure⟩ | ⟨stops, leading⟩
      · by_cases hinders : exchange.hinders = true
        · exact leaves (move.mustStop_of_hinders hinders) ⟨_, offers.symm⟩
        · have unhindered : exchange.hinders = false := by simpa using hinders
          refine .inl ⟨?_, ?_⟩
          · simp [Event.sentItems, offers, move.offers_eq unhindered]
          · rw [failure, ← move.failure?_eq unhindered]
      · exact leaves stops leading

end KeepsCourse

section Runs

variable {S : Type} {answers : (request : Q) → S → R request → S → Prop}
  {last : Pool Q R × S} {concurrency : Nat} {cancelled : Bool} {state : S}

theorem Runs.keepsCourse
    (run : Runs plan answers (start generator concurrency cancelled, state) moments last) :
    KeepsCourse generator moments last.1 :=
  run.induct (KeepsCourse generator) (.inl ⟨rfl, rfl⟩) KeepsCourse.step

theorem Runs.onCourse
    (run : Runs plan answers (start generator concurrency cancelled, state) moments last)
    (goesOn : last.1.mustStop = false) : OnCourse generator moments last.1 := by
  rcases run.keepsCourse with onCourse | ⟨stops, -⟩
  · exact onCourse
  · simp [goesOn] at stops

theorem Runs.sent_prefix
    (run : Runs plan answers (start generator concurrency cancelled, state) moments last) :
    tally Event.sentItems moments <+: generator.offers := by
  rcases run.keepsCourse with ⟨offers, -⟩ | ⟨-, leading⟩
  · exact ⟨_, offers.symm⟩
  · exact leading

theorem Runs.receivedJobs_eq
    (run : Runs plan answers (start generator concurrency cancelled, state) moments last)
    (sent : tally Event.sentItems moments = generator.offers)
    (kept : tally Event.discardedItems moments = [])
    (empty : last.1.stream.channel.slot = none) :
    receivedJobs plan moments = generator.offers.flatMap (Item.jobs plan.targets) := by
  have balanced := run.takesIn.balanced
  rw [sent, kept, empty, List.append_nil, Option.toList_none, List.append_nil] at balanced
  rw [receivedJobs, balanced]

/-- The jobs that were handed out are the first of those that the generator set out to offer. -/
theorem Runs.dispatched_prefix
    (run : Runs plan answers (start generator concurrency cancelled, state) moments last) :
    tally Event.dispatchedJobs moments <+: generator.offers.flatMap (Item.jobs plan.targets) := by
  obtain ⟨rest, all⟩ := run.received_prefix.trans run.sent_prefix
  refine run.handsOut.leading.trans ⟨rest.flatMap (Item.jobs plan.targets), ?_⟩
  rw [receivedJobs, ← List.flatMap_append, all]

theorem Runs.canReport
    (run : Runs plan answers (start generator concurrency cancelled, state) moments last)
    {error : Error} (reported : error ∈ tally Event.failures moments) :
    generator.CanReport error := by
  have kept := run.induct (fun moments pool => pool.stream.generator.CanReport error ∨
    error ∈ tally Event.failures moments → generator.CanReport error) (by simp [start]) ?_
  · exact kept (.inr reported)
  intro moments pool event next change kept told
  have before : pool.stream.generator.CanReport error ∨ error ∈ tally Event.failures moments := by
    cases change with
    | worker found move => cases move <;> simpa [Event.failures] using told
    | cancel running => simpa [Event.failures] using told
    | coordinator move => cases move <;> simpa [Event.failures] using told
    | generator step =>
        rw [tally_append, tally_singleton, List.mem_append, or_left_comm] at told
        rcases told with earlier | now
        · exact .inr earlier
        · exact .inl ((Stream.move_of_turn step).canReport
            (now.imp id fun member => by simpa [Event.failures] using member))
  exact kept before

end Runs

end Pool

end TilePyramid
