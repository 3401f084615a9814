import TilePyramid.Proofs.Pool.Course
import TilePyramid.Proofs.Pool.Liveness

/-!
# Failed runs over an open reader

A coordinator that waits for an item does not see that a job fails meanwhile, and a generator that
waits for its reader is stopped by nobody else. So a failed run over a reader that stays open goes on
unless all jobs of the lines delivered so far were taken before the coordinator looked at the latch.
-/

set_option autoImplicit false

namespace TilePyramid

variable {Q : Type} {R : Q → Type}

namespace Pool

/-- An error was latched, and every run of the operation that was started has returned. -/
structure HasFailed (pool : Pool Q R) : Prop where
  failed : pool.latch.isSet = true
  quiet : ∀ worker ∈ pool.workers, worker.inProgress = []

section Runs

variable {S : Type} {plan : Plan Q R} {answers : (request : Q) → S → R request → S → Prop}
  {moments : List (Moment Q R)} {pool : Pool Q R} {state after : S} {generator : Generator}
  {concurrency : Nat} {cancelled : Bool}

/-- A starved run has taken all jobs that its generator set out to offer. -/
theorem Runs.takes_of_starved
    (run : Runs plan answers (start generator concurrency cancelled, state) moments (pool, after))
    (starved : pool.Starved) : (tally Event.takes moments).map Prod.snd =
      generator.offers.flatMap (Item.jobs plan.targets) := by
  obtain ⟨running, receiving, empty, unstopped, ⟨next, waits⟩, unfed, -, -⟩ := starved
  have onCourse := run.onCourse (by simp [mustStop, Channel.mustStop, running, unstopped])
  have sent : tally Event.sentItems moments = generator.offers := by
    simp [onCourse.offers_eq, waits, Generator.offers]
  have feeding : pool.coordinator.pending? = some [] := by
    rw [receiving]
    rfl
  have kept : tally Event.discardedItems moments = [] := run.takesIn.feeding (by simp [feeding])
  have dispatched := run.handsOut.feeding [] feeding
  rw [run.receivedJobs_eq sent kept empty, run.dispatched_eq, unfed] at dispatched
  simpa using dispatched.symm

/-- Nothing but a cancellation changes a starved run. -/
theorem Starved.eq_of_step {event : Event} {next : Pool Q R × S} (starved : pool.Starved)
    (step : Step plan answers (pool, after) event next) :
    next = ({ pool with cancelled := true }, after) := by
  have stuck : ¬ pool.CanGoOn plan answers after := starved.stuck
  cases step with
  | move actor event turns => exact absurd ⟨actor, by rw [turns]; trivial⟩ stuck
  | effect actor worker request resume reply asks answer =>
      exact absurd ⟨actor, by rw [asks]; exact ⟨_, _, answer⟩⟩ stuck
  | cancel running => rfl

/-- A failed run over a reader that stays open cannot go on just if it is starved. Then all jobs of
the lines that were delivered have been taken, and nothing but a cancellation changes it. -/
theorem failed_run_stuck_iff_starved {text : Text.Utf8.Bytes} {format : NameFormat}
    {expansion : Expansion} {maps : List String}
    (run : Runs plan answers (start ((TileList.ofOpenReader text).generate format expansion maps)
      concurrency cancelled, state) moments (pool, after))
    (failed : pool.HasFailed) (unreturned : pool.result? = none) :
    (¬ pool.CanGoOn plan answers after ↔ pool.Starved) ∧
      (pool.Starved →
        (tally Event.takes moments).map Prod.snd =
          ((TileList.ofOpenReader text).generate format expansion maps).offers.flatMap
            (Item.jobs plan.targets) ∧
        ∀ event next, Step plan answers (pool, after) event next →
          next = ({ pool with cancelled := true }, after)) := by
  refine ⟨run.stuck_iff_starved failed.quiet unreturned, fun starved => ?_⟩
  exact ⟨run.takes_of_starved starved, fun event next => starved.eq_of_step⟩

end Runs

def sampleRules : List OperationRule := [⟨{}, false, some (.renderFailure "boom")⟩]

/-- The generator of a reader that has delivered one line and stays open. -/
def sampleListing : Generator :=
  (TileList.ofOpenReader (Text.Utf8.encode "0/0/0\n")).generate .slashes { explicit := true } ["a"]

theorem sampleListing_eq : sampleListing = .ask .mayGoOn fun goesOn =>
    if goesOn then
      (Generator.sendExpansion { explicit := true } ["a"] ⟨0, 0, 0⟩).bind fun taken =>
        if taken then
          .ask .mayGoOn fun goesOn => if goesOn then .ask .untilStopped .done else .done ()
        else .done ()
    else .done () := by
  have lines : (TileList.ofOpenReader (Text.Utf8.encode "0/0/0\n")).lines =
      [[48, 47, 48, 47, 48, 10]] := by cbv
  have read : TileList.readLine .slashes [48, 47, 48, 47, 48, 10] = .tile ⟨0, 0, 0⟩ := by rfl
  rw [sampleListing, TileList.generate, lines]
  simp only [TileList.generateFrom, read]
  rfl

/-- The only job has failed; the coordinator waits for an item and the generator for its reader. -/
def starvedSample : Pool Effect Effect.Reply where
  stream := { generator := .ask .untilStopped .done }
  latch := ⟨some (.renderFailure "boom")⟩
  workers := [.listening true]

theorem starved_starvedSample : starvedSample.Starved where
  running := rfl
  receiving := rfl
  empty := rfl
  unstopped := rfl
  waiting := ⟨.done, rfl⟩
  unfed := rfl
  listener := rfl
  resting := by
    intro worker member
    rw [List.mem_singleton.mp member]
    rfl

theorem hasFailed_starvedSample : starvedSample.HasFailed where
  failed := rfl
  quiet := by
    intro worker member
    rw [List.mem_singleton.mp member]
    rfl

theorem exists_runs_starvedSample :
    ∃ moments after, Runs (samplePlan sampleRules) sampleAnswers
        (start sampleListing 1 false, {}) moments (starvedSample, after) ∧
      tally Event.jobErrors moments = [.renderFailure "boom"] := by
  have reached : ((run (samplePlan sampleRules) (World.answer (ruledSource []))
      (start sampleListing 1 false) []).run {}).1.1 = starvedSample := by
    rw [sampleListing_eq]
    cbv
  obtain ⟨moments, runs, told⟩ := exists_runs_run (World.answer (ruledSource []))
    (start sampleListing 1 false) {}
  rw [reached] at runs
  refine ⟨moments, _, runs, ?_⟩
  rw [← told Event.jobErrors rfl, sampleListing_eq]
  cbv

/-- A run whose only job has failed waits for a further line. -/
theorem failed_run_can_wait_for_input :
    ∃ moments after, Runs (samplePlan sampleRules) sampleAnswers
        (start sampleListing 1 false, {}) moments (starvedSample, after) ∧
      tally Event.jobErrors moments = [.renderFailure "boom"] ∧ starvedSample.HasFailed ∧
      starvedSample.result? = none ∧
      ¬ starvedSample.CanGoOn (samplePlan sampleRules) sampleAnswers after := by
  obtain ⟨moments, after, run, failures⟩ := exists_runs_starvedSample
  exact ⟨moments, after, run, failures, hasFailed_starvedSample, rfl, starved_starvedSample.stuck⟩

theorem only_cancellation_ends_the_wait :
    ∃ moments after, Runs (samplePlan sampleRules) sampleAnswers
        (start sampleListing 1 false, {}) moments (starvedSample, after) ∧
      (tally Event.takes moments).map Prod.snd = [⟨"a", ⟨0, 0, 0⟩⟩] ∧
      ∀ event next, Step (samplePlan sampleRules) sampleAnswers (starvedSample, after) event next →
        next = ({ starvedSample with cancelled := true }, after) := by
  obtain ⟨moments, after, run, -⟩ := exists_runs_starvedSample
  obtain ⟨-, whole⟩ := failed_run_stuck_iff_starved run hasFailed_starvedSample rfl
  obtain ⟨taken, only⟩ := whole starved_starvedSample
  refine ⟨moments, after, run, ?_, only⟩
  have offered : sampleListing.offers = [.job ⟨"a", ⟨0, 0, 0⟩⟩] := by
    rw [sampleListing_eq]
    cbv
  calc (tally Event.takes moments).map Prod.snd
      = sampleListing.offers.flatMap (Item.jobs ["a", "b"]) := taken
    _ = [⟨"a", ⟨0, 0, 0⟩⟩] := by rw [offered]; rfl

end Pool

end TilePyramid
