import Mathlib.Order.WellFounded
import TilePyramid.Pool.Progress
import TilePyramid.Proofs.Pool.Completeness
import TilePyramid.Proofs.Pool.Situations
import TilePyramid.Proofs.Stream.Course

/-!
# When a run can go on

A run that has not returned can go on, unless its coordinator waits for an item while its generator
waits to be stopped: whatever else a task waits for, another task can bring about. This needs
operations that return. Main statements: `waits_of_stuck`, `stuck_iff_starved`, and `wellFounded_step`,
by which every run comes to its end.
-/

set_option autoImplicit false

namespace TilePyramid

variable {Q : Type} {R : Q → Type} {S : Type}
  {answers : (request : Q) → S → R request → S → Prop}

/-- A task returns in the given surroundings. It waits for the end of its run at most where that is
known to have come, because the task has cancelled the run or was told so. -/
inductive Task.Returns {α : Type} (answers : (request : Q) → S → R request → S → Prop) :
    (known : Bool) → Task Q R α → Prop where
  | done (known : Bool) (result : α) : Returns answers known (.done result)
  | isCancelled {known : Bool} {next : Bool → Task Q R α}
      (goesOn : ∀ cancelled, (known = true → cancelled = true) →
        Returns answers cancelled (next cancelled)) :
      Returns answers known (.ask .isCancelled next)
  | cancel {known : Bool} {next : Unit → Task Q R α} (goesOn : Returns answers true (next ())) :
      Returns answers known (.ask .cancel next)
  | untilCancelled {next : Unit → Task Q R α} (goesOn : Returns answers true (next ())) :
      Returns answers true (.ask .untilCancelled next)
  | effect {known : Bool} {request : Q} {next : R request → Task Q R α}
      (answered : ∀ state, ∃ reply after, answers request state reply after)
      (goesOn : ∀ {state reply after}, answers request state reply after →
        Returns answers known (next reply)) :
      Returns answers known (.ask (.effect request) next)

def Worker.rests : Worker Q R → Bool
  | .idle _ | .listening _ => true
  | _ => false

namespace Pool

variable {plan : Plan Q R} {pool next : Pool Q R} {event : Event} {state after : S}

/-- A turn is a step in surroundings in the given state. -/
def Turn.Goes (answers : (request : Q) → S → R request → S → Prop) (state : S) :
    Turn Q R → Prop
  | .waits => False
  | .moves _ _ => True
  | .asks _ request _ => ∃ reply after, answers request state reply after

/-- The generator, the coordinator or a worker can make a step. -/
def CanGoOn (plan : Plan Q R) (answers : (request : Q) → S → R request → S → Prop)
    (pool : Pool Q R) (state : S) : Prop :=
  ∃ actor, (pool.turn plan actor).Goes answers state

/-- Every run of the operation that was started and goes on will return. -/
def Returning (answers : (request : Q) → S → R request → S → Prop) (pool : Pool Q R) : Prop :=
  ∀ job task, .running job task ∈ pool.workers →
    ∃ known, (known = true → pool.cancelled = true) ∧ Task.Returns answers known task

theorem Returning.step (returns : ∀ job, Task.Returns answers false (plan.operation job))
    (change : Change plan pool event next) (still : StillAwaits pool next)
    (kept : Returning answers pool) : Returning answers next := by
  intro job task member
  have before : .running job task ∈ pool.workers →
      ∃ known, (known = true → next.cancelled = true) ∧ Task.Returns answers known task := by
    intro member
    obtain ⟨known, sure, later⟩ := kept job task member
    exact ⟨known, fun told => change.cancelled (sure told), later⟩
  cases change with
  | generator step => exact before member
  | coordinator move => exact before member
  | cancel running => exact before member
  | worker found move =>
      rcases List.mem_or_eq_of_mem_set member with other | same
      · exact before other
      cases move with
      | starts unset =>
          cases same
          exact ⟨false, nofun, returns _⟩
      | looks =>
          cases same
          obtain ⟨known, sure, later⟩ := kept _ _ (List.mem_of_getElem? found)
          cases later with
          | isCancelled goesOn => exact ⟨pool.cancelled, id, goesOn _ sure⟩
      | cancels =>
          cases same
          obtain ⟨known, sure, later⟩ := kept _ _ (List.mem_of_getElem? found)
          cases later with
          | cancel goesOn => exact ⟨true, fun _ => rfl, goesOn⟩
      | wakes cancelled =>
          cases same
          obtain ⟨known, sure, later⟩ := kept _ _ (List.mem_of_getElem? found)
          cases later with
          | untilCancelled goesOn => exact ⟨true, fun _ => cancelled, goesOn⟩
      | learns reply => exact still.absurd_learns found rfl
      | _ => cases same

theorem Runs.returning {generator : Generator} {concurrency : Nat} {cancelled : Bool}
    {moments : List (Moment Q R)} {last : Pool Q R × S}
    (returns : ∀ job, Task.Returns answers false (plan.operation job))
    (run : Runs plan answers (start generator concurrency cancelled, state) moments last) :
    Returning answers last.1 := by
  refine run.induct_within (fun _ pool _ => Returning answers pool) ?_ ?_ ?_
  · intro job task member
    cases List.eq_of_mem_replicate member
  · intro moments pool state event next earlier change still kept
    exact kept.step returns change still
  · intro moments pool state after index job request replies reply earlier awaits answer kept
      other task member
    rcases List.mem_or_eq_of_mem_set member with before | same
    · exact kept other task before
    · cases same
      obtain ⟨known, sure, later⟩ := kept _ _ (List.mem_of_getElem? awaits)
      cases later with
      | effect answered goesOn => exact ⟨known, sure, goesOn answer⟩

theorem turn_worker {index : Nat} {worker : Worker Q R}
    (found : pool.workers[index]? = some worker) :
    pool.turn plan (.worker index) = pool.workerTurn plan index worker := by
  simp [turn, found]

theorem Returning.taskTurn_goes {index : Nat} {job : Job} {task : Task Q R (Except Error Unit)}
    (returning : Returning answers pool) (member : .running job task ∈ pool.workers) :
    (pool.taskTurn index job task).Goes answers state := by
  obtain ⟨known, sure, returns⟩ := returning job task member
  cases returns with
  | done known result => cases result <;> trivial
  | isCancelled goesOn => trivial
  | cancel goesOn => trivial
  | untilCancelled goesOn => simp [taskTurn, sure rfl, Turn.Goes]
  | effect answered goesOn => exact answered state

/-- As long as a worker has not ended, some worker can go on if there is a job in the queue or no
more will come. -/
theorem canGoOn_of_unended {worker : Worker Q R} (returning : Returning answers pool)
    (member : worker ∈ pool.workers) (unended : worker.hasEnded = false)
    (fed : pool.queue ≠ none ∨ pool.queueClosed = true) : pool.CanGoOn plan answers state := by
  have listens : ∀ (index : Nat) (skipping : Bool), pool.workers[index]? = some (.listening skipping) →
      pool.CanGoOn plan answers state := by
    intro index skipping found
    refine ⟨.worker index, ?_⟩
    rw [turn_worker found]
    simp only [workerTurn, takeJob]
    cases queued : pool.queue with
    | some job => cases skipping <;> trivial
    | none =>
        have closed : pool.queueClosed = true := by simpa [queued] using fed
        simp [closed, Turn.Goes]
  by_cases listener : pool.hasListener = true
  · obtain ⟨other, inside, listening⟩ := List.any_eq_true.mp listener
    obtain ⟨index, found⟩ := List.mem_iff_getElem?.mp inside
    cases other with
    | listening skipping => exact listens index skipping found
    | _ => cases listening
  · obtain ⟨index, found⟩ := List.mem_iff_getElem?.mp member
    cases worker with
    | listening skipping => exact listens index skipping found
    | ended => cases unended
    | idle skipping =>
        exact ⟨.worker index, by simp [turn_worker found, workerTurn, listener, Turn.Goes]⟩
    | running job task =>
        exact ⟨.worker index, by rw [turn_worker found]; exact returning.taskTurn_goes member⟩
    | holding job | weighing job =>
        refine ⟨.worker index, ?_⟩
        rw [turn_worker found]
        simp only [workerTurn]
        split <;> trivial

section Stuck

variable (stuck : ¬ pool.CanGoOn plan answers state) (unreturned : pool.result? = none)
  (crew : 0 < pool.workers.length) (endsEmpty : EndsEmpty pool)
  (returning : Returning answers pool)

include stuck unreturned crew endsEmpty returning

/-- A coordinator that cannot go on while the workers cannot either waits for its generator. -/
theorem coordinator_waits_of_stuck :
    (pool.coordinator = .receiving ∧ pool.cancelled = false ∨
        ∃ reason, pool.coordinator = .draining reason) ∧
      pool.stream.channel.slot = none ∧ pool.stream.hasEnded = false := by
  have waits : ¬ (pool.coordinatorTurn plan).Goes answers state :=
    fun goes => stuck ⟨.coordinator, goes⟩
  unfold coordinatorTurn at waits
  cases place : pool.coordinator with
  | receiving =>
      simp only [place] at waits
      split at waits
      · exact absurd trivial waits
      · next running =>
        split at waits
        · exact absurd trivial waits
        · next empty =>
          split at waits
          · exact absurd trivial waits
          · next unended =>
            exact ⟨.inl ⟨rfl, by simpa using running⟩, Channel.take?_eq_none_iff.mp empty,
              by simpa using unended⟩
  | crossing pending =>
      cases pending with
      | nil => exact absurd (by simp [place, moveCoordinator, Turn.Goes]) waits
      | cons job rest =>
          simp only [place] at waits
          split at waits <;> exact absurd trivial waits
  | offering job pending =>
      simp only [place] at waits
      split at waits
      · exact absurd trivial waits
      · split at waits
        · exact absurd trivial waits
        · next queued =>
          -- Workers end only when nothing is queued.
          have unended : pool.workers[0].hasEnded = false := by
            by_contra ended
            have empty := (endsEmpty _ (List.getElem_mem crew) (by simpa using ended)).2
            simp [empty] at queued
          exact absurd (canGoOn_of_unended returning (List.getElem_mem crew) unended
            (.inl (by simp [queued]))) stuck
  | closing reason => exact absurd (by simp [place, moveReceiver, Turn.Goes]) waits
  | draining reason =>
      simp only [place] at waits
      split at waits
      · exact absurd trivial waits
      · next empty =>
        split at waits
        · exact absurd trivial waits
        · next unended =>
          exact ⟨.inr ⟨reason, rfl⟩, Channel.take?_eq_none_iff.mp empty, by simpa using unended⟩
  | joining reason =>
      simp only [place] at waits
      split at waits
      · exact absurd trivial waits
      · next unfinished =>
        obtain ⟨worker, member, unended⟩ := List.all_eq_false.mp (by simpa using unfinished)
        exact absurd (canGoOn_of_unended returning member (by simpa using unended)
          (.inr (by simp [queueClosed, place, Coordinator.isFeeding]))) stuck
  | returned result => simp [result?, place] at unreturned

/-- A run that cannot go on before it returns waits for a generator that waits to be stopped. -/
theorem generator_waits_of_stuck :
    ∃ next, pool.stream.generator = .ask .untilStopped next ∧
      pool.stream.channel.mustStop pool.cancelled = false := by
  obtain ⟨-, empty, unended⟩ := coordinator_waits_of_stuck stuck unreturned crew endsEmpty returning
  by_contra awake
  have woken : ∀ next, pool.stream.generator = .ask .untilStopped next →
      pool.stream.channel.mustStop pool.cancelled = true := by
    intro next waits
    by_contra goesOn
    exact awake ⟨next, waits, by simpa using goesOn⟩
  obtain ⟨exchange, after, turns⟩ := Stream.exists_turn unended empty woken
  exact stuck ⟨.generator, by simp [turn, generatorTurn, turns, Turn.Goes]⟩

end Stuck

/-- The coordinator waits for an item, the generator to be stopped, and the workers for a job. -/
structure Starved (pool : Pool Q R) : Prop where
  running : pool.cancelled = false
  receiving : pool.coordinator = .receiving
  empty : pool.stream.channel.slot = none
  unstopped : pool.stream.channel.stopped = false
  waiting : ∃ next, pool.stream.generator = .ask .untilStopped next
  unfed : pool.queue = none
  listener : pool.hasListener = true
  resting : ∀ worker ∈ pool.workers, worker.rests = true

theorem Starved.stuck (starved : pool.Starved) : ¬ pool.CanGoOn plan answers state := by
  obtain ⟨running, receiving, empty, unstopped, ⟨next, waits⟩, unfed, listener, resting⟩ := starved
  rintro ⟨actor, goes⟩
  cases actor with
  | generator =>
      simp [turn, generatorTurn, Stream.turn, waits, Channel.respond, Channel.mustStop, running,
        unstopped, Turn.Goes] at goes
  | coordinator =>
      simp [turn, coordinatorTurn, receiving, running, Channel.take?, empty, Stream.hasEnded, waits,
        Turn.Goes] at goes
  | worker index =>
      cases found : pool.workers[index]? with
      | none => simp [turn, found, Turn.Goes] at goes
      | some worker =>
          rw [turn_worker found] at goes
          have rests := resting worker (List.mem_of_getElem? found)
          cases worker with
          | idle skipping => simp [workerTurn, listener, Turn.Goes] at goes
          | listening skipping =>
              simp [workerTurn, takeJob, unfed, queueClosed, receiving, Coordinator.isFeeding,
                Turn.Goes] at goes
          | _ => cases rests

section Runs

variable {generator : Generator} {concurrency : Nat} {cancelled : Bool}
  {moments : List (Moment Q R)} {last : Pool Q R × S}

theorem Runs.stopped_of_draining {reason : FeedEnd}
    (run : Runs plan answers (start generator concurrency cancelled, state) moments last)
    (place : last.1.coordinator = .draining reason) (unended : last.1.stream.hasEnded = false) :
    last.1.stream.channel.stopped = true := by
  -- A stream that was read to its end has ended.
  have early : reason ≠ .exhausted := by
    rintro rfl
    have noted := run.stops.stopped .exhausted (by rw [place]; rfl)
    have complete := run.takesIn.complete (by rw [place]; rfl) (by simp [noted])
    simp [complete.2.2] at unended
  refine run.invariant (fun pool => ∀ reason, pool.coordinator = .draining reason →
    reason ≠ .exhausted → pool.stream.channel.stopped = true) nofun ?_ reason place early
  intro pool event next change kept other place early
  cases change with
  | generator step =>
      rw [(Stream.move_of_turn step).stopped]
      exact kept other place early
  | cancel running => exact kept other place early
  | worker found move => exact kept other place early
  | coordinator move =>
      cases move with
      | closes closing =>
          cases place
          rw [if_neg early]
          rfl
      | discards draining taken =>
          cases place
          obtain ⟨_, rfl⟩ := Channel.take?_eq_some_iff.mp taken
          exact kept other draining early
      | _ => cases place

theorem Runs.waits_of_stuck
    (run : Runs plan answers (start generator concurrency cancelled, state) moments (pool, after))
    (returning : Returning answers pool) (stuck : ¬ pool.CanGoOn plan answers after)
    (unreturned : pool.result? = none) :
    pool.coordinator = .receiving ∧ pool.stream.channel.slot = none ∧
      ∃ next, pool.stream.generator = .ask .untilStopped next ∧
        pool.stream.channel.mustStop pool.cancelled = false := by
  have crew : 0 < pool.workers.length := run.workers_pos
  obtain ⟨waits, empty, unended⟩ :=
    coordinator_waits_of_stuck stuck unreturned crew run.endsEmpty returning
  obtain ⟨next, asks, goesOn⟩ :=
    generator_waits_of_stuck stuck unreturned crew run.endsEmpty returning
  rcases waits with ⟨receiving, -⟩ | ⟨reason, draining⟩
  · exact ⟨receiving, empty, next, asks, goesOn⟩
  · have stopped : pool.stream.channel.stopped = true := run.stopped_of_draining draining unended
    simp [Channel.mustStop, stopped] at goesOn

/-- While no operation is in progress, a run that has not returned cannot go on just if it is
starved. -/
theorem Runs.stuck_iff_starved
    (run : Runs plan answers (start generator concurrency cancelled, state) moments (pool, after))
    (quiet : ∀ worker ∈ pool.workers, worker.inProgress = [])
    (unreturned : pool.result? = none) :
    ¬ pool.CanGoOn plan answers after ↔ pool.Starved := by
  refine ⟨fun stuck => ?_, Starved.stuck⟩
  have returning : Returning answers pool := by
    intro job task member
    cases quiet _ member
  obtain ⟨receiving, empty, next, waits, goesOn⟩ := run.waits_of_stuck returning stuck unreturned
  obtain ⟨running, unstopped⟩ := Bool.or_eq_false_iff.mp goesOn
  have crew : 0 < pool.workers.length := run.workers_pos
  have unended : ∀ worker ∈ pool.workers, worker.hasEnded = false := by
    intro worker member
    by_contra ended
    have closed := (run.endsEmpty worker member (by simpa using ended)).1
    simp [queueClosed, receiving, Coordinator.isFeeding] at closed
  have resting : ∀ worker ∈ pool.workers, worker.rests = true := by
    intro worker member
    obtain ⟨index, found⟩ := List.mem_iff_getElem?.mp member
    cases worker with
    | idle skipping | listening skipping => rfl
    | running job task => cases quiet _ member
    | ended => cases unended _ member
    | holding job | weighing job =>
        refine absurd ⟨.worker index, ?_⟩ stuck
        rw [turn_worker found]
        simp only [workerTurn]
        split <;> trivial
  -- The workers rest, so that one would listen if none did and take what is in the queue.
  have first := List.getElem_mem crew
  refine ⟨running, receiving, empty, unstopped, ⟨next, waits⟩, ?_, ?_, resting⟩
  · by_contra queued
    exact stuck (canGoOn_of_unended returning first (unended _ first) (.inl queued))
  · by_contra alone
    refine stuck ⟨.worker 0, ?_⟩
    have found : pool.workers[0]? = some pool.workers[0] := List.getElem?_eq_getElem crew
    rw [turn_worker found]
    cases place : pool.workers[0] with
    | idle skipping => simp [workerTurn, alone, Turn.Goes]
    | listening skipping => exact absurd (List.any_eq_true.mpr ⟨_, first, by rw [place]; rfl⟩) alone
    | _ => simpa [place, Worker.rests] using resting _ first

end Runs

/-- Every step brings a run nearer to its end, but for its cancellation, which can come once. -/
theorem wellFounded_step (plan : Plan Q R) (answers : (request : Q) → S → R request → S → Prop) :
    WellFounded fun next before : Pool Q R × S => ∃ event, Step plan answers before event next := by
  -- A cancellation can make tasks go on that waited, so it counts before all they have to do.
  let uncancelled (situation : Pool Q R × S) : Nat := if situation.1.cancelled then 0 else 1
  have order : WellFounded (Prod.Lex (· < ·) (@Nearer Q R)) :=
    WellFounded.prod_lex Nat.lt_wfRel.wf wellFounded_nearer
  refine Subrelation.wf ?_ (InvImage.wf (fun situation => (uncancelled situation, situation.1)) order)
  rintro ⟨next, after⟩ ⟨pool, state⟩ ⟨event, step⟩
  have lasts : pool.cancelled = true → next.cancelled = true := (change_of_step step).cancelled
  have nearer : Nearer next pool → Prod.Lex (· < ·) (@Nearer Q R)
      (uncancelled (next, after), next) (uncancelled (pool, state), pool) := by
    intro nearer
    by_cases same : next.cancelled = pool.cancelled
    · simp only [uncancelled, same]
      exact .right _ nearer
    · refine .left _ _ ?_
      cases here : pool.cancelled <;> cases there : next.cancelled <;> simp_all [uncancelled]
  cases step with
  | move actor event turns =>
      have approaches := pool.turn_approaches plan actor
      rw [turns] at approaches
      exact nearer approaches
  | effect actor worker request resume reply asks answer =>
      have approaches := pool.turn_approaches plan actor
      rw [asks] at approaches
      exact nearer (approaches reply)
  | cancel running =>
      refine .left _ _ ?_
      simp [uncancelled, running]

end Pool

end TilePyramid
