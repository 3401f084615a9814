import TilePyramid.Proofs.Pool.Jobs
import TilePyramid.Proofs.Pool.Schedule

/-!
# How runs of a pool end

The coordinator stops handing out jobs once, for one reason. What a run returns depends on that
reason and on two latches, which keep the first error stored into them.
-/

set_option autoImplicit false

namespace TilePyramid

variable {Q : Type} {R : Q → Type}

/-- Why the coordinator stopped handing out jobs, until it returns. -/
def Coordinator.reason? : Coordinator → Option FeedEnd
  | .closing reason | .draining reason | .joining reason => some reason
  | .receiving | .crossing _ | .offering _ _ | .returned _ => none

namespace Pool

variable {plan : Plan Q R} {moments : List (Moment Q R)} {pool next : Pool Q R} {event : Event}

theorem Change.isSet (change : Change plan pool event next) (latched : pool.latch.isSet = true) :
    next.latch.isSet = true := by
  cases change with
  | generator step => exact latched
  | coordinator move => exact latched
  | cancel running => exact latched
  | worker found move => cases move <;> simp [latched]

theorem Change.cancelled (change : Change plan pool event next) (cancelled : pool.cancelled = true) :
    next.cancelled = true := by
  cases change with
  | generator step => exact cancelled
  | coordinator move => exact cancelled
  | cancel running => rfl
  | worker found move =>
      cases move with
      | cancels => rfl
      | _ => exact cancelled

theorem Change.held (change : Change plan pool event next) :
    next.latch.held = pool.latch.held.or event.stored.head? := by
  cases change with
  | generator step => simp [Event.stored]
  | cancel running => simp [Event.stored]
  | coordinator move => cases move <;> simp [Event.stored]
  | worker found move => cases move <;> simp [Event.stored, Latch.held_store]

/-- The reason for which the coordinator stopped is noted once, and holds ever after. -/
structure Stops (moments : List (Moment Q R)) (pool : Pool Q R) : Prop where
  feeding : pool.coordinator.pending?.isSome = true → tally Event.stops moments = []
  stopped : ∀ reason, pool.coordinator.reason? = some reason → tally Event.stops moments = [reason]
  failed : FeedEnd.failed ∈ tally Event.stops moments → pool.latch.isSet = true
  canceled : FeedEnd.canceled ∈ tally Event.stops moments → pool.cancelled = true

namespace Stops

private theorem quiet (kept : Stops moments pool) (change : Change plan pool event next)
    (stops : event.stops = [])
    (feeding : next.coordinator.pending?.isSome = true → pool.coordinator.pending?.isSome = true)
    (stopped : ∀ reason, next.coordinator.reason? = some reason →
      pool.coordinator.reason? = some reason) : Stops (moments ++ [⟨pool, event⟩]) next := by
  constructor
  · intro more
    simpa [stops] using kept.feeding (feeding more)
  · intro reason found
    simpa [stops] using kept.stopped reason (stopped reason found)
  · intro failed
    exact change.isSet (kept.failed (by simpa [stops] using failed))
  · intro canceled
    exact change.cancelled (kept.canceled (by simpa [stops] using canceled))

private theorem stop {reason : FeedEnd} (kept : Stops moments pool)
    (place : pool.coordinator.pending?.isSome = true)
    (failed : reason = .failed → pool.latch.isSet = true)
    (canceled : reason = .canceled → pool.cancelled = true) :
    Stops (moments ++ [⟨pool, .stopped reason⟩]) { pool with coordinator := .closing reason } := by
  have fresh := kept.feeding place
  constructor
  · exact nofun
  · intro other same
    cases same
    simp [fresh, Event.stops]
  · intro member
    exact failed (by simpa [fresh, Event.stops, eq_comm] using member)
  · intro member
    exact canceled (by simpa [fresh, Event.stops, eq_comm] using member)

theorem step (change : Change plan pool event next) (kept : Stops moments pool) :
    Stops (moments ++ [⟨pool, event⟩]) next := by
  have whole := change
  cases change with
  | generator step => exact kept.quiet whole rfl id fun _ => id
  | cancel running => exact kept.quiet whole rfl id fun _ => id
  | worker found move =>
      refine kept.quiet whole ?_ id fun _ => id
      cases move <;> rfl
  | coordinator move =>
      cases move with
      | halts place cancelled => exact kept.stop (by rw [place]; rfl) nofun fun _ => cancelled
      | exhausts place running empty ended => exact kept.stop (by rw [place]; rfl) nofun nofun
      | givesUp place failed => exact kept.stop (by rw [place]; rfl) (fun _ => failed) nofun
      | withdraws place cancelled =>
          exact kept.stop (by rw [place]; rfl) nofun fun _ => cancelled
      | receives place running taken =>
          exact kept.quiet whole rfl (fun _ => by rw [place]; rfl) nofun
      | crosses place => exact kept.quiet whole rfl (fun _ => by rw [place]; rfl) nofun
      | offers place unset => exact kept.quiet whole rfl (fun _ => by rw [place]; rfl) nofun
      | dispatches place running free =>
          exact kept.quiet whole rfl (fun _ => by rw [place]; rfl) nofun
      | closes place => exact kept.quiet whole rfl nofun fun _ found => by rw [place]; exact found
      | discards place taken =>
          exact kept.quiet whole rfl nofun fun _ found => by rw [place]; exact found
      | drains place empty ended =>
          exact kept.quiet whole rfl nofun fun _ found => by rw [place]; exact found
      | joins place ended => exact kept.quiet whole rfl nofun nofun

end Stops

/-- What has ended when the coordinator waits for the workers, and when it has returned. -/
structure Closed (moments : List (Moment Q R)) (pool : Pool Q R) : Prop where
  joining : ∀ reason, pool.coordinator = .joining reason → pool.stream.hasEnded = true
  returned : ∀ result, pool.coordinator = .returned result →
    pool.stream.hasEnded = true ∧ pool.workers.all Worker.hasEnded = true ∧
      ∃ reason, tally Event.stops moments = [reason] ∧ result = pool.result reason

theorem WorkerMove.unfinished {index : Nat} {worker after : Worker Q R} {queue : Option Job}
    {latch : Latch} {cancelled : Bool}
    (move : WorkerMove plan pool index worker event queue latch cancelled after) :
    worker.hasEnded = false := by
  cases move <;> rfl

namespace Closed

theorem step (change : Change plan pool event next) (stops : Stops moments pool)
    (kept : Closed moments pool) : Closed (moments ++ [⟨pool, event⟩]) next := by
  obtain ⟨joining, returned⟩ := kept
  cases change with
  | generator step =>
      have running := (Stream.move_of_turn step).running
      constructor
      · intro reason place
        simp [joining reason place] at running
      · intro result place
        simp [(returned result place).1] at running
  | cancel running =>
      refine ⟨joining, ?_⟩
      simp only [tally_append, tally_singleton, Event.stops, List.append_nil]
      exact returned
  | worker found move =>
      refine ⟨joining, ?_⟩
      intro result place
      have ended := List.all_eq_true.mp (returned result place).2.1 _ (List.mem_of_getElem? found)
      simp [move.unfinished] at ended
  | coordinator move =>
      cases move with
      | drains place empty ended =>
          constructor
          · exact fun _ _ => ended
          · intro result same
            cases same
      | joins place ended =>
          constructor
          · intro reason same
            cases same
          intro result same
          cases same
          have noted := stops.stopped _ (by rw [place]; rfl)
          exact ⟨joining _ place, ended, _, by simpa [Event.stops] using noted, rfl⟩
      | _ => constructor <;> intro _ same <;> cases same

end Closed

theorem CoordinatorMove.latch_eq {channel : Channel} {queue : Option Job}
    {coordinator : Coordinator}
    (move : CoordinatorMove plan pool event channel queue coordinator) :
    channel.latch = pool.stream.channel.latch := by
  cases move with
  | receives place running taken =>
      obtain ⟨_, rfl⟩ := Channel.take?_eq_some_iff.mp taken
      rfl
  | discards place taken =>
      obtain ⟨_, rfl⟩ := Channel.take?_eq_some_iff.mp taken
      rfl
  | closes place => split <;> rfl
  | _ => rfl

/-- The error that a stream holds after a step was held before, is reported in this step, or is the
cancellation of the run. -/
theorem Change.streamError {error : Error} (change : Change plan pool event next)
    (held : next.stream.channel.latch.held = some error) :
    pool.stream.channel.latch.held = some error ∨ error ∈ event.failures ∨
      error = .canceled ∧ pool.cancelled = true := by
  cases change with
  | worker found move => exact .inl held
  | cancel running => exact .inl held
  | coordinator move => exact .inl (by rw [← move.latch_eq]; exact held)
  | generator step =>
      rcases (Stream.move_of_turn step).latch with same | ⟨failure, reported, same⟩ |
        ⟨cancelled, same⟩
      · exact .inl (by rw [← same]; exact held)
      · rcases Latch.held_or_eq_of_store (by rw [← same]; exact held) with old | rfl
        · exact .inl old
        · exact .inr (.inl (by simp [Event.failures, reported]))
      · rcases Latch.held_or_eq_of_store (by rw [← same]; exact held) with old | rfl
        · exact .inl old
        · exact .inr (.inr ⟨rfl, cancelled⟩)

section Runs

variable {S : Type} {answers : (request : Q) → S → R request → S → Prop}
  {last : Pool Q R × S} {generator : Generator} {concurrency : Nat} {cancelled : Bool} {state : S}

theorem Runs.stops
    (run : Runs plan answers (start generator concurrency cancelled, state) moments last) :
    Stops moments last.1 :=
  run.induct Stops ⟨fun _ => rfl, nofun, nofun, nofun⟩ Stops.step

theorem Runs.closed
    (run : Runs plan answers (start generator concurrency cancelled, state) moments last) :
    Closed moments last.1 :=
  run.induct_along Closed ⟨nofun, nofun⟩ fun earlier change kept => kept.step change earlier.stops

/-- The latch holds the first error that was stored. -/
theorem Runs.held_eq
    (run : Runs plan answers (start generator concurrency cancelled, state) moments last) :
    last.1.latch.held = (tally Event.stored moments).head? := by
  refine run.induct (fun moments pool => pool.latch.held = (tally Event.stored moments).head?) rfl ?_
  intro moments pool event next change kept
  simp [change.held, kept]

/-- An error that the stream holds was reported by the generator or is the cancellation. -/
theorem Runs.streamError
    (run : Runs plan answers (start generator concurrency cancelled, state) moments last)
    {error : Error} (held : last.1.stream.channel.latch.held = some error) :
    error ∈ tally Event.failures moments ∨ error = .canceled ∧ last.1.cancelled = true := by
  refine run.induct (fun moments pool => ∀ error, pool.stream.channel.latch.held = some error →
    error ∈ tally Event.failures moments ∨ error = .canceled ∧ pool.cancelled = true)
    nofun ?_ error held
  intro moments pool event next change kept error held
  rcases change.streamError held with old | reported | ⟨same, cancelled⟩
  · rcases kept error old with reported | ⟨same, cancelled⟩
    · exact .inl (by simp [reported])
    · exact .inr ⟨same, change.cancelled cancelled⟩
  · exact .inl (by simp [reported])
  · exact .inr ⟨same, change.cancelled cancelled⟩

/-- What the events of a step report is so. -/
structure Moment.Honest (moment : Moment Q R) : Prop where
  finished : ∀ worker job result, moment.event = .finished worker job result →
    moment.pool.workers[worker]? = some (.running job (.done result))
  noticed : ∀ worker job, moment.event = .noticed worker job → moment.pool.cancelled = true
  canceled : moment.event = .stopped .canceled → moment.pool.cancelled = true

theorem Change.honest (change : Change plan pool event next) : Moment.Honest ⟨pool, event⟩ := by
  cases change with
  | generator step => exact ⟨nofun, nofun, nofun⟩
  | cancel running => exact ⟨nofun, nofun, nofun⟩
  | coordinator move =>
      refine ⟨?_, ?_, ?_⟩ <;> cases move <;> simp_all
  | worker found move =>
      refine ⟨?_, ?_, ?_⟩ <;> cases move <;> simp_all

theorem Runs.honest
    (run : Runs plan answers (start generator concurrency cancelled, state) moments last)
    {moment : Moment Q R} (member : moment ∈ moments) : moment.Honest := by
  obtain ⟨_, next, change⟩ := run.at_moment (fun _ => True) trivial (fun _ _ => trivial) member
  exact change.honest

/-- Every stored error was returned by the operation, or is the cancellation of the run. -/
theorem Runs.stored_cases
    (run : Runs plan answers (start generator concurrency cancelled, state) moments last)
    {error : Error} (member : error ∈ tally Event.stored moments) :
    error ∈ tally Event.jobErrors moments ∨ error = .canceled ∧
      ∃ moment ∈ moments, (∃ worker job, moment.event = .noticed worker job) ∧
        moment.pool.cancelled = true := by
  obtain ⟨moment, inside, stored⟩ := (mem_tally _).mp member
  have honest := run.honest inside
  generalize happened : moment.event = event at stored
  cases event with
  | noticed worker job =>
      refine .inr ⟨by simpa [Event.stored] using stored, moment, inside, ⟨worker, job, happened⟩, ?_⟩
      exact honest.noticed worker job happened
  | finished worker job result =>
      refine .inl ((mem_tally _).mpr ⟨moment, inside, ?_⟩)
      rw [happened]
      cases result with
      | ok done => exact absurd stored List.not_mem_nil
      | error failure => exact stored
  | _ => exact absurd stored List.not_mem_nil

theorem coordinator_of_result? {result : Except Error Unit} (returned : pool.result? = some result) :
    pool.coordinator = .returned result := by
  unfold result? at returned
  split at returned
  · next place =>
    cases returned
    exact place
  · cases returned

theorem result_of_streamError {error : Error} (held : pool.stream.channel.latch.held = some error)
    (reason : FeedEnd) : pool.result reason = .error error := by
  simp [result, held]

theorem result_of_held {error : Error} (unbroken : pool.stream.channel.latch.held = none)
    (held : pool.latch.held = some error) (reason : FeedEnd) :
    pool.result reason = .error error := by
  simp [result, unbroken, held]

theorem result_of_unset (unbroken : pool.stream.channel.latch.held = none)
    (unset : pool.latch.held = none) (reason : FeedEnd) :
    pool.result reason = if reason = .canceled then .error .canceled else .ok () := by
  cases reason <;> simp [result, unbroken, unset]

/-- A cancellation is returned only if the run was cancelled, or the operation or the generator
reported it. -/
theorem Runs.canceled_cause {reason : FeedEnd}
    (run : Runs plan answers (start generator concurrency cancelled, state) moments last)
    (stopped : tally Event.stops moments = [reason])
    (canceled : last.1.result reason = .error .canceled) :
    last.1.cancelled = true ∨ Error.canceled ∈ tally Event.jobErrors moments ∨
      Error.canceled ∈ tally Event.failures moments := by
  cases broken : last.1.stream.channel.latch.held with
  | some error =>
      rw [result_of_streamError broken] at canceled
      cases canceled
      rcases run.streamError broken with reported | ⟨_, cancelled⟩
      · exact .inr (.inr reported)
      · exact .inl cancelled
  | none =>
      cases stored : last.1.latch.held with
      | some error =>
          rw [result_of_held broken stored] at canceled
          cases canceled
          rw [run.held_eq] at stored
          rcases run.stored_cases (List.mem_of_mem_head? (by rw [stored]; rfl)) with returned | noticed
          · exact .inr (.inl returned)
          · obtain ⟨-, moment, inside, -, seen⟩ := noticed
            exact .inl (run.persists (Pool.cancelled · = true) Change.cancelled inside seen)
      | none =>
          rw [result_of_unset broken stored] at canceled
          split at canceled
          · next same => exact .inl (run.stops.canceled (by rw [stopped, same]; simp))
          · cases canceled

/-- A run returns the error of its stream if there is one, else the first error that was stored, else
a cancellation if that is why the coordinator stopped, and else succeeds. -/
theorem result_by_precedence {pool : Pool Q R} {after : S} {result : Except Error Unit}
    (run : Runs plan answers (start generator concurrency cancelled, state) moments (pool, after))
    (returned : pool.result? = some result) :
    ∃ reason, tally Event.stops moments = [reason] ∧
      (∀ error, pool.stream.channel.latch.held = some error → result = .error error) ∧
      (pool.stream.channel.latch.held = none →
        (∀ error, (tally Event.stored moments).head? = some error → result = .error error) ∧
        (tally Event.stored moments = [] →
          (result = .error .canceled ↔ reason = .canceled) ∧
          (reason ≠ .canceled → result = .ok ()))) ∧
      pool.latch.held = (tally Event.stored moments).head? ∧
      (∀ error ∈ tally Event.stored moments, error ∈ tally Event.jobErrors moments ∨
        error = .canceled ∧ ∃ moment ∈ moments, (∃ worker job, moment.event = .noticed worker job) ∧
          moment.pool.cancelled = true) ∧
      (∀ moment ∈ moments, moment.Honest) ∧
      (result = .error .canceled → pool.cancelled = true ∨
        .canceled ∈ tally Event.jobErrors moments ∨ .canceled ∈ tally Event.failures moments) ∧
      (reason = .failed → result ≠ .ok ()) := by
  obtain ⟨-, -, reason, stopped, rfl⟩ :=
    run.closed.returned result (coordinator_of_result? returned)
  have first := run.held_eq
  refine ⟨reason, stopped, fun error held => result_of_streamError held reason, ?_, first,
    fun error member => run.stored_cases member, fun moment member => run.honest member,
    run.canceled_cause stopped, ?_⟩
  · intro unbroken
    refine ⟨fun error head => result_of_held unbroken (first.trans head) reason, fun empty => ?_⟩
    rw [result_of_unset unbroken (by rw [first, empty]; rfl) reason]
    refine ⟨⟨fun canceled => ?_, fun same => if_pos same⟩, fun other => if_neg other⟩
    by_contra other
    rw [if_neg other] at canceled
    cases canceled
  · intro same succeeded
    have latched := run.stops.failed (by rw [stopped, same]; simp)
    obtain ⟨error, held⟩ := Option.isSome_iff_exists.mp latched
    cases broken : pool.stream.channel.latch.held with
    | some error => rw [result_of_streamError broken] at succeeded; cases succeeded
    | none => rw [result_of_held broken held] at succeeded; cases succeeded

/-- An operation that cancels the run makes it return the cancellation. -/
theorem cancelling_operation_ends_canceled :
    ∃ moments, Runs (samplePlan [⟨{}, true, none⟩]) sampleAnswers (sampleStart, {}) moments
        ((sampleRun [⟨{}, true, none⟩]).1.1, (sampleRun [⟨{}, true, none⟩]).2) ∧
      (sampleRun [⟨{}, true, none⟩]).1.1.result? = some (.error .canceled) ∧
      tally Event.stored moments = [.canceled] ∧
      (∀ error ∈ tally Event.stored moments, error ∈ tally Event.jobErrors moments ∨
        error = .canceled ∧ ∃ moment ∈ moments, (∃ worker job, moment.event = .noticed worker job) ∧
          moment.pool.cancelled = true) := by
  obtain ⟨moments, run, told⟩ := exists_runs_sampleRun [⟨{}, true, none⟩]
  have returned : (sampleRun [⟨{}, true, none⟩]).1.1.result? = some (.error .canceled) := by cbv
  obtain ⟨reason, -, -, -, -, sources, -⟩ := result_by_precedence run returned
  have stored : tally Event.stored moments = [.canceled] := by
    rw [← told Event.stored rfl]
    cbv
  exact ⟨moments, run, returned, stored, sources⟩

end Runs

end Pool

end TilePyramid
