import TilePyramid.Proofs.Pool.Liveness

/-!
# Every run comes to a clean end

A generator that waits only for its items to be taken, and an operation whose runs return, make a run
that never gets stuck and ends after finitely many steps, whatever fails and whenever it is
cancelled. When it returns, nothing of it is left behind.
-/

set_option autoImplicit false

namespace TilePyramid

variable {Q : Type} {R : Q → Type}

namespace Pool

variable {S : Type} {plan : Plan Q R} {answers : (request : Q) → S → R request → S → Prop}
  {generator : Generator} {concurrency : Nat} {cancelled : Bool} {state : S}
  {moments : List (Moment Q R)} {last : Pool Q R × S}

theorem Runs.waitsOnlyToSend (waits : generator.WaitsOnlyToSend)
    (run : Runs plan answers (start generator concurrency cancelled, state) moments last) :
    last.1.stream.generator.WaitsOnlyToSend := by
  refine run.invariant (·.stream.generator.WaitsOnlyToSend) waits ?_
  intro pool event next change kept
  cases change with
  | generator step => exact (Stream.move_of_turn step).waitsOnlyToSend kept
  | coordinator move => exact kept
  | worker found move => exact kept
  | cancel running => exact kept

theorem Runs.canGoOn (waits : generator.WaitsOnlyToSend)
    (returns : ∀ job, Task.Returns answers false (plan.operation job))
    (run : Runs plan answers (start generator concurrency cancelled, state) moments last)
    (unreturned : last.1.result? = none) : last.1.CanGoOn plan answers last.2 := by
  by_contra stuck
  obtain ⟨-, -, next, asks, -⟩ := run.waits_of_stuck (run.returning returns) stuck unreturned
  have held := run.waitsOnlyToSend waits
  rw [asks] at held
  exact held.1 rfl

theorem Runs.finishes_perm
    (run : Runs plan answers (start generator concurrency cancelled, state) moments last)
    (ended : last.1.workers.all Worker.hasEnded = true) :
    (tally Event.finishes moments).Perm (tally Event.starts moments) := by
  refine perm_of_ofWorker fun worker => ?_
  rw [run.starts_eq worker, atWorker_of_ended rfl ended, List.append_nil]

/-- No run goes on forever or gets stuck before it returns. When it returns, the generator and all
workers have ended, every started run of the operation has finished, and no job is left. -/
theorem runs_return_and_leave_nothing (waits : generator.WaitsOnlyToSend)
    (returns : ∀ job, Task.Returns answers false (plan.operation job)) :
    (∀ path : Nat → Pool Q R × S, path 0 = (start generator concurrency cancelled, state) →
      ∃ n, ∀ event, ¬ Step plan answers (path n) event (path (n + 1))) ∧
    ∀ moments pool after,
      Runs plan answers (start generator concurrency cancelled, state) moments (pool, after) →
      (pool.result? = none → pool.CanGoOn plan answers after) ∧
      (pool.result? ≠ none → pool.stream.hasEnded = true ∧
        pool.workers.all Worker.hasEnded = true ∧
        (tally Event.finishes moments).Perm (tally Event.starts moments) ∧ pool.queue = none) := by
  constructor
  · intro path begins
    have finite : IsWellFounded (Pool Q R × S) fun next before =>
        ∃ event, Step plan answers before event next := ⟨wellFounded_step plan answers⟩
    obtain ⟨n, breaks⟩ := WellFounded.not_rel_apply_succ (r := fun next before =>
      ∃ event, Step plan answers before event next) path
    exact ⟨n, fun event step => breaks ⟨event, step⟩⟩
  · intro moments pool after run
    refine ⟨run.canGoOn waits returns, fun returned => ?_⟩
    obtain ⟨result, found⟩ := Option.ne_none_iff_exists'.mp returned
    obtain ⟨streamEnded, ended, -⟩ := run.closed.returned result (coordinator_of_result? found)
    exact ⟨streamEnded, ended, run.finishes_perm ended, run.queue_eq_none ended⟩

/-- An operation that follows rules does not wait. -/
theorem returns_ruled (rules : List OperationRule) (job : Job) :
    Task.Returns sampleAnswers false (Operation.ruled rules job) := by
  unfold Operation.ruled
  cases rules.find? (·.pattern.matches job) with
  | none => exact .done false _
  | some rule =>
      obtain ⟨pattern, cancels, error⟩ := rule
      cases cancels with
      | false => cases error <;> exact .done false _
      | true => cases error <;> exact .cancel (.done true _)

/-- A run that fails leaves nothing behind. -/
theorem failed_run_leaves_nothing :
    ∃ moments, Runs (samplePlan [⟨{}, false, some .noMaps⟩]) sampleAnswers (sampleStart, {}) moments
        ((sampleRun [⟨{}, false, some .noMaps⟩]).1.1, (sampleRun [⟨{}, false, some .noMaps⟩]).2) ∧
      (sampleRun [⟨{}, false, some .noMaps⟩]).1.1.result? = some (.error .noMaps) ∧
      tally Event.starts moments = [(0, ⟨"a", ⟨1, 0, 0⟩⟩)] ∧
      (tally Event.finishes moments).Perm (tally Event.starts moments) ∧
      (sampleRun [⟨{}, false, some .noMaps⟩]).1.1.stream.hasEnded = true ∧
      (sampleRun [⟨{}, false, some .noMaps⟩]).1.1.workers.all Worker.hasEnded = true := by
  obtain ⟨moments, run, told⟩ := exists_runs_sampleRun [⟨{}, false, some .noMaps⟩]
  have returned : (sampleRun [⟨{}, false, some .noMaps⟩]).1.1.result? = some (.error .noMaps) := by
    cbv
  have started : tally Event.starts moments = [(0, ⟨"a", ⟨1, 0, 0⟩⟩)] := by
    rw [← told Event.starts rfl]
    cbv
  have waits : (Generator.ofItems [.tile ⟨1, 0, 0⟩, .job ⟨"c", ⟨1, 1, 0⟩⟩]).WaitsOnlyToSend :=
    (Generator.Gives.sends (.whileTaken .send _)).waits
  have returns : ∀ job, Task.Returns sampleAnswers false
      ((samplePlan [⟨{}, false, some .noMaps⟩]).operation job) :=
    returns_ruled [⟨{}, false, some .noMaps⟩]
  obtain ⟨-, reached⟩ := runs_return_and_leave_nothing waits returns
  obtain ⟨-, clean⟩ := reached moments _ _ run
  obtain ⟨streamEnded, ended, finished, -⟩ := clean (by simp [returned])
  exact ⟨moments, run, returned, started, finished, streamEnded, ended⟩

end Pool

end TilePyramid
