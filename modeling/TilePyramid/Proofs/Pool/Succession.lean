import TilePyramid.Proofs.Pool.Contract
import TilePyramid.Proofs.Pool.Schedule
import TilePyramid.Proofs.Pool.Sequence

/-!
# Successful runs of a single worker

A run may be cancelled at any time and succeed all the same, if all was handed out before. Whether it
was or not, a single worker has then done the work on one job after the other, and each job has
succeeded. Main statement: `Runs.succession_of_ok`.
-/

set_option autoImplicit false

namespace TilePyramid

variable {Q : Type} {R : Q → Type} {S : Type}

namespace Task

variable {α β : Type} {answers : (request : Q) → S → R request → S → Prop}

/-- A task may come to a result in given surroundings, in a run that can be cancelled at any time. -/
inductive MayYield (answers : (request : Q) → S → R request → S → Prop) :
    Task Q R α → S → α → S → Prop where
  | done {state : S} (result : α) : MayYield answers (.done result) state result state
  | isCancelled {next : Bool → Task Q R α} {state after : S} {result : α} (cancelled : Bool)
      (later : MayYield answers (next cancelled) state result after) :
      MayYield answers (.ask .isCancelled next) state result after
  | cancel {next : Unit → Task Q R α} {state after : S} {result : α}
      (later : MayYield answers (next ()) state result after) :
      MayYield answers (.ask .cancel next) state result after
  | untilCancelled {next : Unit → Task Q R α} {state after : S} {result : α}
      (later : MayYield answers (next ()) state result after) :
      MayYield answers (.ask .untilCancelled next) state result after
  | effect {request : Q} {next : R request → Task Q R α} {reply : R request}
      {state between after : S} {result : α} (answer : answers request state reply between)
      (later : MayYield answers (next reply) between result after) :
      MayYield answers (.ask (.effect request) next) state result after

namespace MayYield

variable {state after : S}

theorem exists_of_bind {task : Task Q R α} {next : α → Task Q R β} {result : β}
    (yields : MayYield answers (Program.bind task next) state result after) :
    ∃ first between, MayYield answers task state first between ∧
      MayYield answers (next first) between result after := by
  induction task generalizing state with
  | done first => exact ⟨first, state, .done first, yields⟩
  | ask request replies ih =>
      cases yields with
      | isCancelled cancelled later =>
          obtain ⟨first, between, head, rest⟩ := ih _ later
          exact ⟨first, between, .isCancelled cancelled head, rest⟩
      | cancel later =>
          obtain ⟨first, between, head, rest⟩ := ih _ later
          exact ⟨first, between, .cancel head, rest⟩
      | untilCancelled later =>
          obtain ⟨first, between, head, rest⟩ := ih _ later
          exact ⟨first, between, .untilCancelled head, rest⟩
      | effect answer later =>
          obtain ⟨first, between, head, rest⟩ := ih _ later
          exact ⟨first, between, .effect answer head, rest⟩

theorem eq_of_done {given result : α} (yields : MayYield answers (.done given) state result after) :
    result = given ∧ after = state := by
  cases yields
  exact ⟨rfl, rfl⟩

theorem of_perform {request : Q} {reply : R request}
    (yields : MayYield answers (Task.perform request) state reply after) :
    answers request state reply after := by
  cases yields with
  | effect answer later =>
      cases later
      exact answer

/-- In a run that can be cancelled at any time, a task that cancels it first may come to nothing more. -/
theorem of_cancelIf {condition : Prop} [Decidable condition] {rest : Unit → Task Q R α} {result : α}
    (yields : MayYield answers (if condition then Program.bind Task.cancel rest else rest ())
      state result after) : MayYield answers (rest ()) state result after := by
  by_cases holds : condition
  · rw [if_pos holds] at yields
    cases yields with
    | cancel later => exact later
  · rwa [if_neg holds] at yields

/-- A program that does not ask about the run comes to the same whether it is cancelled or not. -/
theorem run_eq_of_ofProgram {answer : (request : Q) → StateM S (R request)}
    {program : Program Q R α} {result : α}
    (yields : MayYield (Pool.answersOf answer) (Task.ofProgram program) state result after) :
    (program.run answer).run state = (result, after) := by
  induction program generalizing state with
  | done given =>
      obtain ⟨rfl, rfl⟩ := yields.eq_of_done
      rfl
  | ask request replies ih =>
      cases yields with
      | @effect _ _ reply _ between _ _ replied later =>
          have replied : (answer request).run state = (reply, between) := replied
          rw [Program.run, StateT.run_bind, replied]
          exact ih reply later

end MayYield

end Task

namespace Pool

variable {plan : Plan Q R} {pool next : Pool Q R} {event : Event}
  {answers : (request : Q) → S → R request → S → Prop}
  {operation : Job → Task Q R (Except Error Unit)} {first state after : S} {jobs : List Job}

/-- An operation succeeds on jobs one after the other, each in the surroundings that the one before it
leaves. -/
inductive Succession (answers : (request : Q) → S → R request → S → Prop)
    (operation : Job → Task Q R (Except Error Unit)) (first : S) : List Job → S → Prop where
  | nothing : Succession answers operation first [] first
  | further {jobs : List Job} {job : Job} {state after : S}
      (past : Succession answers operation first jobs state)
      (last : Task.MayYield answers (operation job) state (.ok ()) after) :
      Succession answers operation first (jobs ++ [job]) after

/-- How far the only worker has come while no job has failed: the jobs that it took, where it is, and
the surroundings. -/
inductive Following (answers : (request : Q) → S → R request → S → Prop)
    (operation : Job → Task Q R (Except Error Unit)) (first : S) :
    List Job → Worker Q R → S → Prop where
  | ready {jobs : List Job} {worker : Worker Q R} {state : S} (place : worker.isReady = true)
      (past : Succession answers operation first jobs state) :
      Following answers operation first jobs worker state
  | deciding {jobs : List Job} {job : Job} {worker : Worker Q R} {state : S}
      (place : worker.undecided = [job]) (past : Succession answers operation first jobs state) :
      Following answers operation first (jobs ++ [job]) worker state
  | running {jobs : List Job} {job : Job} {task : Task Q R (Except Error Unit)} {between state : S}
      (past : Succession answers operation first jobs between)
      (goesOn : ∀ {result after}, Task.MayYield answers task state result after →
        Task.MayYield answers (operation job) between result after) :
      Following answers operation first (jobs ++ [job]) (.running job task) state

theorem Following.step {index : Nat} {worker after : Worker Q R} {queue : Option Job} {latch : Latch}
    {cancelled : Bool} (move : WorkerMove plan pool index worker event queue latch cancelled after)
    (unasked : worker.asks = false) (unset : pool.latch.held = none) (unfailed : latch.held = none)
    (follows : Following answers plan.operation first jobs worker state) :
    Following answers plan.operation first (jobs ++ event.takes.map Prod.snd) after state := by
  cases follows with
  | ready place past =>
      cases move with
      | @listens skipping free =>
          cases skipping with
          | true => cases place
          | false => simpa [Event.takes] using .ready rfl past
      | takes queued => simpa [Event.takes] using .deciding rfl past
      | ends empty closed => simpa [Event.takes] using .ready rfl past
      | _ => cases place
  | deciding place past =>
      cases move with
      | notices cancelled => simp [Latch.held_store, unset] at unfailed
      | goesOn running => simpa [Event.takes] using .deciding place past
      | skips failed => simp [Latch.isSet, unset] at failed
      | starts free =>
          cases place
          simpa [Event.takes] using .running past id
      | _ => cases place
  | running past later =>
      cases move with
      | succeeds =>
          simpa [Event.takes] using .ready rfl (past.further (later (.done _)))
      | fails => simp [Latch.held_store, unset] at unfailed
      | looks => simpa [Event.takes] using .running past fun yields => later (.isCancelled _ yields)
      | cancels => simpa [Event.takes] using .running past fun yields => later (.cancel yields)
      | wakes cancelled =>
          simpa [Event.takes] using .running past fun yields => later (.untilCancelled yields)
      | learns reply => cases unasked

theorem Following.learn {job : Job} {request : Q} {reply : R request}
    {replies : R request → Task Q R (Except Error Unit)}
    (follows : Following answers operation first jobs (.running job (.ask (.effect request) replies))
      state)
    (answer : answers request state reply after) :
    Following answers operation first jobs (.running job (replies reply)) after := by
  cases follows with
  | running past goesOn => exact .running past fun yields => goesOn (.effect answer yields)
  | ready place past => cases place
  | deciding place past => cases place

/-- The error that the generator of a run will latch is still ahead, unless the stream holds one or was
stopped. -/
def FailsAhead (failure : Option Error) (pool : Pool Q R) : Prop :=
  pool.stream.generator.failure? = failure ∨ pool.stream.channel.latch.isSet = true ∨
    pool.stream.channel.stopped = true

theorem FailsAhead.step {failure : Option Error} (change : Change plan pool event next)
    (kept : FailsAhead failure pool) : FailsAhead failure next := by
  cases change with
  | worker found move => exact kept
  | cancel running => exact kept
  | coordinator move =>
      rcases kept with ahead | latched | stopped
      · exact .inl ahead
      · exact .inr (.inl (by rw [move.latch_eq]; exact latched))
      · exact .inr (.inr (move.stopped stopped))
  | @generator exchange stream step =>
      have move := Stream.move_of_turn step
      have stays (latched : pool.stream.channel.latch.isSet = true) :
          stream.channel.latch.isSet = true := by
        rcases move.latch with same | ⟨error, -, same⟩ | ⟨-, same⟩ <;> simp [same, latched]
      rcases kept with ahead | latched | stopped
      · by_cases hinders : exchange.hinders = true
        · rcases Bool.or_eq_true_iff.mp (move.mustStop_of_hinders hinders) with cancelled | stopped
          · rw [cancelled] at move
            exact .inr (.inl (move.isSet_of_hinders hinders))
          · exact .inr (.inr (move.stopped.trans stopped))
        · have same := move.failure?_eq (by simpa using hinders)
          cases held : stream.channel.latch.held with
          | some error => exact .inr (.inl (by simp [Latch.isSet, held]))
          | none =>
              have unset : pool.stream.channel.latch.held = none := by
                by_contra set
                have latched := stays (by simpa [Latch.isSet, Option.isSome_iff_ne_none] using set)
                simp [Latch.isSet, held] at latched
              rw [held, unset, Option.none_or, Option.none_or] at same
              exact .inl (same.trans ahead)
      · exact .inr (.inl (stays latched))
      · exact .inr (.inr (move.stopped.trans stopped))

section Runs

variable {last : Pool Q R × S} {moments : List (Moment Q R)} {generator : Generator}
  {concurrency : Nat} {cancelled : Bool}

/-- The generator of a run that returned success was to latch no error. -/
theorem Runs.failure?_of_ok
    (run : Runs plan answers (start generator concurrency cancelled, state) moments last)
    (returned : last.1.result? = some (.ok ())) : generator.failure? = none := by
  have closing := coordinator_of_result? returned
  obtain ⟨-, -, reason, -, same⟩ := run.closed.returned _ closing
  obtain ⟨unbroken, -, -⟩ := result_eq_ok_iff.mp same.symm
  have all := run.exhausted_of_ok returned
  have place : last.1.coordinator.pending? = none := by
    rw [closing]
    rfl
  obtain ⟨-, -, streamEnded⟩ := run.takesIn.complete place all
  rcases run.invariant (FailsAhead generator.failure?) (.inl rfl) FailsAhead.step with
    ahead | latched | stopped
  · rw [← ahead, Stream.failure?_of_hasEnded streamEnded]
  · simp [Latch.isSet, unbroken] at latched
  · obtain ⟨reason, member, early⟩ := run.delivers.stopped stopped
    exact absurd (all reason member) early

theorem Runs.following (few : concurrency ≤ 1)
    (run : Runs plan answers (start generator concurrency cancelled, state) moments last)
    (unset : last.1.latch.held = none) :
    ∃ worker, last.1.workers = [worker] ∧
      Following answers plan.operation state ((tally Event.takes moments).map Prod.snd) worker
        last.2 := by
  refine run.induct_within (fun moments pool after => pool.latch.held = none →
    ∃ worker, pool.workers = [worker] ∧
      Following answers plan.operation state ((tally Event.takes moments).map Prod.snd) worker
        after) ?_ ?_ ?_ unset
  · intro _
    have alone : max 1 concurrency = 1 := by omega
    exact ⟨.idle false, by simp [start, alone], .ready rfl .nothing⟩
  -- A latch that is not set was not set before.
  · intro moments pool after event next earlier change still kept unset
    have unlatched : pool.latch.held = none := by
      cases held : pool.latch.held with
      | none => rfl
      | some error =>
          have latched := change.isSet (by simp [Latch.isSet, held])
          simp [Latch.isSet, unset] at latched
    obtain ⟨worker, alone, follows⟩ := kept unlatched
    cases change with
    | generator step => exact ⟨worker, alone, by simpa [Event.takes] using follows⟩
    | coordinator move =>
        refine ⟨worker, alone, ?_⟩
        cases move <;> simpa [Event.takes] using follows
    | cancel running => exact ⟨worker, alone, by simpa [Event.takes] using follows⟩
    | worker found move =>
        obtain ⟨rfl, rfl⟩ := eq_of_alone alone found
        refine ⟨_, by rw [alone]; rfl, ?_⟩
        simp only [tally_append, tally_singleton, List.map_append]
        refine follows.step move ?_ unlatched unset
        cases move with
        | learns reply => exact still.absurd_learns found rfl
        | _ => rfl
  · intro moments pool before after index job request replies reply earlier awaits answer kept unset
    obtain ⟨worker, alone, follows⟩ := kept unset
    obtain ⟨rfl, rfl⟩ := eq_of_alone alone awaits
    refine ⟨_, by rw [setWorker, alone]; rfl, ?_⟩
    simpa [Event.takes, setWorker] using follows.learn answer

/-- When a run with a single worker returns success, the operation has succeeded on all jobs that the
generator set out to offer, one after the other. -/
theorem Runs.succession_of_ok (few : concurrency ≤ 1)
    (run : Runs plan answers (start generator concurrency cancelled, state) moments (pool, after))
    (returned : pool.result? = some (.ok ())) :
    Succession answers plan.operation state (generator.offers.flatMap (Item.jobs plan.targets))
      after := by
  obtain ⟨-, ended, reason, -, same⟩ := run.closed.returned _ (coordinator_of_result? returned)
  obtain ⟨-, unset, -⟩ := result_eq_ok_iff.mp same.symm
  have taken : (tally Event.takes moments).map Prod.snd = tally Event.dispatchedJobs moments := by
    rw [run.dispatched_eq, run.queue_eq_none ended, Option.toList_none, List.append_nil]
  obtain ⟨worker, (alone : pool.workers = [worker]), follows⟩ := run.following few unset
  have finished : worker.hasEnded = true := List.all_eq_true.mp ended worker (by simp [alone])
  rw [taken, run.dispatched_of_ok returned] at follows
  generalize generator.offers.flatMap (Item.jobs plan.targets) = jobs at follows ⊢
  cases follows with
  | ready place past => exact past
  | running past later => cases finished
  | deciding place past =>
      cases worker with
      | ended => cases place
      | _ => cases finished

end Runs

end Pool

end TilePyramid
