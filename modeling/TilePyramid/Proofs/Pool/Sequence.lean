import TilePyramid.Proofs.Pool.Completeness
import TilePyramid.Proofs.Pool.Course
import TilePyramid.Proofs.Pool.Shutdown

/-!
# A single worker

With a single worker, a run that is not cancelled does what a sequential program does: it runs the
operation on one job after the other until one fails, whatever is generated, handed out and taken
meanwhile. Main statement: `single_worker_runs_in_sequence`.
-/

set_option autoImplicit false

namespace TilePyramid

variable {Q : Type} {R : Q → Type} {S : Type}
  {answers : (request : Q) → S → R request → S → Prop}

/-- A task comes to a result in given surroundings, in a run that is not cancelled. -/
inductive Task.Yields {α : Type} (answers : (request : Q) → S → R request → S → Prop) :
    Task Q R α → S → α → S → Prop where
  | done {state : S} (result : α) : Yields answers (.done result) state result state
  | isCancelled {next : Bool → Task Q R α} {state after : S} {result : α}
      (later : Yields answers (next false) state result after) :
      Yields answers (.ask .isCancelled next) state result after
  | effect {request : Q} {next : R request → Task Q R α} {reply : R request}
      {state between after : S} {result : α} (answer : answers request state reply between)
      (later : Yields answers (next reply) between result after) :
      Yields answers (.ask (.effect request) next) state result after

/-- An operation is run on jobs one after the other, up to the first that fails: the jobs that it was
run on, the error if there is one, and the surroundings before and after. -/
inductive InSequence (answers : (request : Q) → S → R request → S → Prop)
    (operation : Job → Task Q R (Except Error Unit)) :
    List Job → S → List Job → Option Error → S → Prop where
  | nothing {state : S} : InSequence answers operation [] state [] none state
  | fails {job : Job} {rest : List Job} {error : Error} {state after : S}
      (head : Task.Yields answers (operation job) state (.error error) after) :
      InSequence answers operation (job :: rest) state [job] (some error) after
  | succeeds {job : Job} {rest calls : List Job} {failure : Option Error} {state between after : S}
      (head : Task.Yields answers (operation job) state (.ok ()) between)
      (tail : InSequence answers operation rest between calls failure after) :
      InSequence answers operation (job :: rest) state (job :: calls) failure after

namespace InSequence

variable {operation : Job → Task Q R (Except Error Unit)} {jobs more calls others : List Job}
  {job : Job} {error : Error} {failure : Option Error} {state between after : S}

theorem append (first : InSequence answers operation jobs state calls none between)
    (rest : InSequence answers operation more between others failure after) :
    InSequence answers operation (jobs ++ more) state (calls ++ others) failure after := by
  generalize unfailed : (none : Option Error) = outcome at first
  induction first with
  | nothing => exact rest
  | fails head => cases unfailed
  | succeeds head tail ih => exact .succeeds head (ih rest unfailed)

theorem skip (first : InSequence answers operation jobs state calls (some error) after)
    (more : List Job) :
    InSequence answers operation (jobs ++ more) state calls (some error) after := by
  generalize failed : some error = outcome at first
  induction first with
  | nothing => cases failed
  | fails head =>
      cases failed
      exact .fails head
  | succeeds head tail ih => exact .succeeds head (ih failed)

theorem succeed (first : InSequence answers operation jobs state calls none between)
    (last : Task.Yields answers (operation job) between (.ok ()) after) :
    InSequence answers operation (jobs ++ [job]) state (calls ++ [job]) none after :=
  first.append (.succeeds last .nothing)

theorem fail (first : InSequence answers operation jobs state calls none between)
    (last : Task.Yields answers (operation job) between (.error error) after) :
    InSequence answers operation (jobs ++ [job]) state (calls ++ [job]) (some error) after :=
  first.append (.fails last)

end InSequence

/-- A worker that has no job and would run the operation on the next. -/
def Worker.isReady : Worker Q R → Bool
  | .idle false | .listening false | .ended => true
  | _ => false

/-- A worker that has no job and will run the operation on none. -/
def Worker.isDone : Worker Q R → Bool
  | .idle true | .listening true | .ended => true
  | _ => false

theorem Stream.failure?_of_hasEnded {stream : Stream} (ended : stream.hasEnded = true) :
    stream.generator.failure? = none := by
  obtain ⟨generator, channel⟩ := stream
  cases generator with
  | done result => rfl
  | ask request next => cases ended

/-- What may be returned, given the error of the job that failed and the one that was latched by the
generator, if any. -/
def MayReturn : (failed broken : Option Error) → Except Error Unit → Prop
  | none, none, result => result = .ok ()
  | none, some broken, result => result = .error broken
  | some failed, none, result => result = .error failed
  | some failed, some broken, result => result = .error failed ∨ result = .error broken

theorem MayReturn.ok_or_error {failed broken : Option Error} {result : Except Error Unit}
    (may : MayReturn failed broken result) :
    (result = .ok () ∧ failed = none ∧ broken = none) ∨
      ∃ error, result = .error error ∧ (failed = some error ∨ broken = some error) := by
  cases failed with
  | none =>
      cases broken with
      | none => exact .inl ⟨may, rfl, rfl⟩
      | some error => exact .inr ⟨error, may, .inr rfl⟩
  | some error =>
      cases broken with
      | none => exact .inr ⟨error, may, .inl rfl⟩
      | some other =>
          obtain same | same := may
          · exact .inr ⟨error, same, .inl rfl⟩
          · exact .inr ⟨other, same, .inr rfl⟩

namespace Pool

variable {plan : Plan Q R} {moments : List (Moment Q R)} {pool next : Pool Q R} {event : Event}
  {state : S}

/-- How far the only worker of a run has come: the jobs that it took and those that it has run the
operation on, what the latch holds, where the worker is, and the surroundings. -/
inductive Single (answers : (request : Q) → S → R request → S → Prop)
    (operation : Job → Task Q R (Except Error Unit)) (first : S) :
    List Job → List Job → Option Error → Worker Q R → S → Prop where
  | ready {jobs : List Job} {worker : Worker Q R} {state : S} (place : worker.isReady = true)
      (past : InSequence answers operation jobs first jobs none state) :
      Single answers operation first jobs jobs none worker state
  | deciding {jobs : List Job} {job : Job} {worker : Worker Q R} {state : S}
      (place : worker.undecided = [job])
      (past : InSequence answers operation jobs first jobs none state) :
      Single answers operation first (jobs ++ [job]) jobs none worker state
  | running {jobs : List Job} {job : Job} {task : Task Q R (Except Error Unit)} {between state : S}
      (past : InSequence answers operation jobs first jobs none between)
      (goesOn : ∀ {result after}, Task.Yields answers task state result after →
        Task.Yields answers (operation job) between result after) :
      Single answers operation first (jobs ++ [job]) (jobs ++ [job]) none (.running job task) state
  | done {jobs calls : List Job} {error : Error} {worker : Worker Q R} {state : S}
      (place : worker.isDone = true)
      (past : InSequence answers operation jobs first calls (some error) state) :
      Single answers operation first jobs calls (some error) worker state

theorem Single.step {index : Nat} {worker after : Worker Q R} {queue : Option Job} {latch : Latch}
    {cancelled : Bool} {first : S} {taken calls : List Job}
    (move : WorkerMove plan pool index worker event queue latch cancelled after)
    (unasked : worker.asks = false) (running : pool.cancelled = false) (goesOn : cancelled = false)
    (single : Single answers plan.operation first taken calls pool.latch.held worker state) :
    Single answers plan.operation first (taken ++ event.takes.map Prod.snd)
      (calls ++ event.starts.map Prod.snd) latch.held after state := by
  generalize stored : pool.latch.held = held at single
  cases single with
  | ready place past =>
      cases move with
      | @listens skipping free =>
          cases skipping with
          | true => cases place
          | false => simpa [stored, Event.takes, Event.starts] using .ready rfl past
      | takes queued => simpa [stored, Event.takes, Event.starts] using .deciding rfl past
      | ends empty closed => simpa [stored, Event.takes, Event.starts] using .ready rfl past
      | _ => cases place
  | deciding place past =>
      cases move with
      | notices cancelled => simp [running] at cancelled
      | goesOn running =>
          simpa [stored, Event.takes, Event.starts] using .deciding place past
      | skips failed => simp [Latch.isSet, stored] at failed
      | starts unset =>
          cases place
          simpa [stored, Event.takes, Event.starts] using .running past id
      | _ => cases place
  | running past later =>
      cases move with
      | succeeds =>
          simpa [stored, Event.takes, Event.starts] using .ready rfl (past.succeed (later (.done _)))
      | fails =>
          simpa [stored, Event.takes, Event.starts, Latch.held_store] using
            .done rfl (past.fail (later (.done _)))
      | looks =>
          simpa [stored, Event.takes, Event.starts, running] using
            .running past fun yields => later (.isCancelled yields)
      | cancels => cases goesOn
      | wakes cancelled => simp [running] at cancelled
      | learns reply => cases unasked
  | done place past =>
      cases move with
      | @listens skipping free =>
          cases skipping with
          | true => simpa [stored, Event.takes, Event.starts] using .done rfl past
          | false => cases place
      | drops queued => simpa [stored, Event.takes, Event.starts] using .done rfl (past.skip _)
      | ends empty closed => simpa [stored, Event.takes, Event.starts] using .done rfl past
      | _ => cases place

theorem Single.learn {job : Job} {request : Q} {reply : R request}
    {replies : R request → Task Q R (Except Error Unit)} {first after : S} {taken calls : List Job}
    {held : Option Error}
    (single : Single answers plan.operation first taken calls held
      (.running job (.ask (.effect request) replies)) state)
    (answer : answers request state reply after) :
    Single answers plan.operation first taken calls held (.running job (replies reply)) after := by
  cases single with
  | running past goesOn => exact .running past fun yields => goesOn (.effect answer yields)
  | ready place past => cases place
  | deciding place past => cases place
  | done place past => cases place

theorem eq_of_alone {index : Nat} {worker held : Worker Q R} (alone : pool.workers = [worker])
    (found : pool.workers[index]? = some held) : index = 0 ∧ worker = held := by
  rw [alone] at found
  cases index with
  | zero => exact ⟨rfl, Option.some.inj found⟩
  | succ index => cases found

section Runs

variable {last : Pool Q R × S} {after : S} {generator : Generator} {concurrency : Nat}
  {cancelled : Bool}

theorem Runs.single (few : concurrency ≤ 1)
    (run : Runs plan answers (start generator concurrency cancelled, state) moments last)
    (uncancelled : last.1.cancelled = false) :
    ∃ worker, last.1.workers = [worker] ∧
      Single answers plan.operation state ((tally Event.takes moments).map Prod.snd)
        ((tally Event.starts moments).map Prod.snd) last.1.latch.held worker last.2 := by
  refine run.induct_within (fun moments pool after => pool.cancelled = false →
    ∃ worker, pool.workers = [worker] ∧
      Single answers plan.operation state ((tally Event.takes moments).map Prod.snd)
        ((tally Event.starts moments).map Prod.snd) pool.latch.held worker after) ?_ ?_ ?_ uncancelled
  · intro _
    have alone : max 1 concurrency = 1 := by omega
    exact ⟨.idle false, by simp [start, alone], .ready rfl .nothing⟩
  -- The surroundings stay as they are but for the replies that the worker gets.
  · intro moments pool after event next earlier change still kept goesOn
    have running : pool.cancelled = false := by
      by_contra cancelled
      simp [change.cancelled (by simpa using cancelled)] at goesOn
    obtain ⟨worker, alone, single⟩ := kept running
    cases change with
    | generator step => exact ⟨worker, alone, by simpa [Event.takes, Event.starts] using single⟩
    | coordinator move =>
        refine ⟨worker, alone, ?_⟩
        cases move <;> simpa [Event.takes, Event.starts] using single
    | cancel running => cases goesOn
    | worker found move =>
        obtain ⟨rfl, rfl⟩ := eq_of_alone alone found
        refine ⟨_, by rw [alone]; rfl, ?_⟩
        simp only [tally_append, tally_singleton, List.map_append]
        refine single.step move ?_ running goesOn
        cases move with
        | learns reply => exact still.absurd_learns found rfl
        | _ => rfl
  · intro moments pool before after index job request replies reply earlier awaits answer kept goesOn
    obtain ⟨worker, alone, single⟩ := kept goesOn
    obtain ⟨rfl, rfl⟩ := eq_of_alone alone awaits
    refine ⟨_, by rw [setWorker, alone]; rfl, ?_⟩
    simpa [Event.takes, Event.starts, setWorker] using single.learn answer

/-- A run that stopped because nothing more came has handed out all jobs that its generator set out
to offer, and its stream holds the error that the generator was to latch. -/
theorem Runs.dispatched_of_exhausted {result : Except Error Unit}
    (run : Runs plan answers (start generator concurrency cancelled, state) moments (pool, after))
    (uncancelled : pool.cancelled = false) (returned : pool.coordinator = .returned result)
    (noted : tally Event.stops moments = [.exhausted]) :
    tally Event.dispatchedJobs moments = generator.offers.flatMap (Item.jobs plan.targets) ∧
      generator.failure? = pool.stream.channel.latch.held := by
  have place : pool.coordinator.pending? = none := by
    rw [returned]
    rfl
  have all : ∀ reason ∈ tally Event.stops moments, reason = .exhausted := by simp [noted]
  obtain ⟨kept, empty, streamEnded⟩ := run.takesIn.complete place all
  have unstopped : pool.stream.channel.stopped = false := by
    by_contra stopped
    obtain ⟨reason, member, early⟩ := run.delivers.stopped (by simpa using stopped)
    exact early (all reason member)
  have onCourse := run.onCourse (by simp [mustStop, Channel.mustStop, uncancelled, unstopped])
  have sent : tally Event.sentItems moments = generator.offers := by
    rw [onCourse.offers_eq, Stream.offers_of_hasEnded streamEnded, List.append_nil]
  constructor
  · rw [run.handsOut.complete place all, run.receivedJobs_eq sent kept empty]
  · rw [onCourse.failure?_eq, Stream.failure?_of_hasEnded streamEnded, Option.or_none]

theorem Runs.exhausted_of_unset {reason : FeedEnd}
    (run : Runs plan answers (start generator concurrency cancelled, state) moments last)
    (uncancelled : last.1.cancelled = false) (noted : tally Event.stops moments = [reason])
    (unset : last.1.latch.held = none) : reason = .exhausted := by
  cases reason with
  | exhausted => rfl
  | failed => simpa [Latch.isSet, unset] using run.stops.failed (by simp [noted])
  | canceled => simpa [uncancelled] using run.stops.canceled (by simp [noted])

/-- Without a cancellation, a stream holds no error but the one that its generator latches. -/
theorem Runs.eq_of_streamError {items : List Item} {broken : Option Error} {error : Error}
    (gives : generator.Gives items broken)
    (run : Runs plan answers (start generator concurrency cancelled, state) moments last)
    (uncancelled : last.1.cancelled = false)
    (held : last.1.stream.channel.latch.held = some error) : broken = some error := by
  rcases run.streamError held with told | ⟨-, cancelled⟩
  · exact gives.reports (run.canReport told)
  · simp [uncancelled] at cancelled

theorem mayReturn_of_held {failed : Error} {broken : Option Error}
    (reported : ∀ error, pool.stream.channel.latch.held = some error → broken = some error)
    (stored : pool.latch.held = some failed) (reason : FeedEnd) :
    MayReturn (some failed) broken (pool.result reason) := by
  cases held : pool.stream.channel.latch.held with
  | some error =>
      rw [reported error held]
      exact .inr (result_of_streamError held reason)
  | none =>
      have same : pool.result reason = .error failed := result_of_held held stored reason
      cases broken with
      | none => exact same
      | some error => exact .inl same

/-- When a run with a single worker returns, the operation was run on the jobs in sequence. -/
theorem Runs.inSequence {items : List Item} {broken : Option Error} {result : Except Error Unit}
    (gives : generator.Gives items broken) (few : concurrency ≤ 1)
    (run : Runs plan answers (start generator concurrency cancelled, state) moments (pool, after))
    (uncancelled : pool.cancelled = false) (returned : pool.result? = some result) :
    ∃ failed, InSequence answers plan.operation (items.flatMap (Item.jobs plan.targets)) state
        ((tally Event.starts moments).map Prod.snd) failed after ∧
      MayReturn failed broken result := by
  have closing := coordinator_of_result? returned
  obtain ⟨-, ended, reason, noted, rfl⟩ := run.closed.returned result closing
  have taken : (tally Event.takes moments).map Prod.snd = tally Event.dispatchedJobs moments := by
    rw [run.dispatched_eq, run.queue_eq_none ended, Option.toList_none, List.append_nil]
  obtain ⟨worker, (alone : pool.workers = [worker]), single⟩ := run.single few uncancelled
  have finished : worker.hasEnded = true := List.all_eq_true.mp ended worker (by simp [alone])
  rw [taken] at single
  generalize came : tally Event.dispatchedJobs moments = jobs at single
  generalize (tally Event.starts moments).map Prod.snd = calls at single ⊢
  generalize stored : pool.latch.held = held at single
  cases single with
  | ready place past =>
      -- No job failed, so all that was generated came to the worker.
      obtain rfl := run.exhausted_of_unset uncancelled noted stored
      obtain ⟨all, latched⟩ := run.dispatched_of_exhausted uncancelled closing noted
      rw [came, gives.offers_eq] at all
      rw [gives.failure?_eq] at latched
      refine ⟨none, all ▸ past, ?_⟩
      cases held : pool.stream.channel.latch.held <;> simp [MayReturn, latched, held, result, stored]
  | @done _ _ failed _ _ place past =>
      -- Whatever did not come to the worker lies behind the job that failed.
      obtain ⟨rest, all⟩ := run.dispatched_prefix
      rw [came, gives.offers_eq] at all
      refine ⟨some failed, all ▸ past.skip rest, ?_⟩
      exact mayReturn_of_held (fun error => run.eq_of_streamError gives uncancelled) stored reason
  | running past later => cases finished
  | deciding place past =>
      cases worker with
      | ended => cases place
      | _ => cases finished

/-- With a single worker, a run that is not cancelled runs the operation on the jobs of the generated
items in sequence, up to the first that fails. It returns the error of that job or the one that the
generator latches, if there is only one of them, one of both, or success. -/
theorem single_worker_runs_in_sequence {items : List Item} {broken : Option Error}
    (gives : generator.Gives items broken) (few : concurrency ≤ 1)
    (run : Runs plan answers (start generator concurrency cancelled, state) moments (pool, after))
    (uncancelled : pool.cancelled = false) :
    ((∀ job, Task.Returns answers false (plan.operation job)) → pool.result? = none →
      pool.CanGoOn plan answers after) ∧
    ∀ result, pool.result? = some result →
      ∃ failed, InSequence answers plan.operation (items.flatMap (Item.jobs plan.targets)) state
          ((tally Event.starts moments).map Prod.snd) failed after ∧
        MayReturn failed broken result :=
  ⟨run.canGoOn gives.waits, fun _ returned => run.inSequence gives few uncancelled returned⟩

end Runs

def partlyFailing : List OperationRule := [⟨{ map := some "b" }, false, some (.renderFailure "boom")⟩]

/-- One worker, and a generator that latches an error after its items. -/
def breakingStart : Pool Effect Effect.Reply :=
  start (.ofItemsThen [.tile ⟨1, 0, 0⟩, .job ⟨"c", ⟨1, 1, 0⟩⟩] (some .noMaps)) 1 false

def breakingRun : (Pool Effect Effect.Reply × List Event) × World :=
  (run (samplePlan partlyFailing) (World.answer (ruledSource [])) breakingStart []).run {}

/-- The job behind the one that fails is not run, and an error of the generator is returned. -/
theorem jobs_up_to_failure_run_in_sequence :
    ∃ moments failed,
      Runs (samplePlan partlyFailing) sampleAnswers (breakingStart, {}) moments
        (breakingRun.1.1, breakingRun.2) ∧
      breakingRun.1.1.result? = some (.error .noMaps) ∧
      InSequence sampleAnswers (Operation.ruled partlyFailing)
        [⟨"a", ⟨1, 0, 0⟩⟩, ⟨"b", ⟨1, 0, 0⟩⟩, ⟨"c", ⟨1, 1, 0⟩⟩] {}
        [⟨"a", ⟨1, 0, 0⟩⟩, ⟨"b", ⟨1, 0, 0⟩⟩] failed breakingRun.2 ∧
      MayReturn failed (some .noMaps) (.error .noMaps) := by
  obtain ⟨moments, (run : Runs (samplePlan partlyFailing) sampleAnswers (breakingStart, {}) moments
    (breakingRun.1.1, breakingRun.2)), told⟩ :=
      exists_runs_run (World.answer (ruledSource [])) breakingStart {}
  have returned : breakingRun.1.1.result? = some (.error .noMaps) := by cbv
  have uncancelled : breakingRun.1.1.cancelled = false := by cbv
  have started : tally Event.starts moments =
      [(0, ⟨"a", ⟨1, 0, 0⟩⟩), (0, ⟨"b", ⟨1, 0, 0⟩⟩)] := by
    rw [← told Event.starts rfl]
    cbv
  obtain ⟨-, sequential⟩ := single_worker_runs_in_sequence (Generator.gives_ofItemsThen _ _)
    (Nat.le_refl 1) run uncancelled
  obtain ⟨failed, inSequence, mayReturn⟩ := sequential _ returned
  rw [started] at inSequence
  exact ⟨moments, failed, run, returned, inSequence, mayReturn⟩

end Pool

end TilePyramid
