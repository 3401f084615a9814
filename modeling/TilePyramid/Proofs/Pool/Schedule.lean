import Mathlib
import TilePyramid.Pool.Run
import TilePyramid.Proofs.Pool.History
import TilePyramid.World

/-!
# Scheduled runs

Running a pool performs one of its runs. Main statement: `exists_runs_run`. What is proved of all
runs holds of the scheduled one, and an example of a run can be computed.
-/

set_option autoImplicit false

namespace TilePyramid.Pool

variable {Q : Type} {R : Q → Type} {S : Type} {plan : Plan Q R} {pool : Pool Q R}

/-- Surroundings that answer as a computation on states does. -/
def answersOf (answer : (request : Q) → StateM S (R request)) (request : Q) (state : S)
    (reply : R request) (after : S) : Prop :=
  (answer request).run state = (reply, after)

theorem turn_of_firstTurn_moves {actors : List Actor} {event : Event} {next : Pool Q R}
    (moved : pool.firstTurn plan actors = .moves event next) :
    ∃ actor, pool.turn plan actor = .moves event next := by
  induction actors with
  | nil => cases moved
  | cons actor others ih =>
      simp only [firstTurn] at moved
      split at moved
      · exact ih moved
      · exact ⟨actor, moved⟩

theorem turn_of_firstTurn_asks {actors : List Actor} {worker : Nat} {request : Q}
    {resume : R request → Pool Q R}
    (asks : pool.firstTurn plan actors = .asks worker request resume) :
    ∃ actor, pool.turn plan actor = .asks worker request resume := by
  induction actors with
  | nil => cases asks
  | cons actor others ih =>
      simp only [firstTurn] at asks
      split at asks
      · exact ih asks
      · exact ⟨actor, asks⟩

variable [Program.Lasting Q]

/-- A scheduled run is a run, and what it tells of its events is what its history tells. -/
theorem exists_runs_runInOrder (answer : (request : Q) → StateM S (R request)) (order : List Nat)
    (pool : Pool Q R) (events : List Event) (state : S) :
    ∃ moments, Runs plan (answersOf answer) (pool, state) moments
        (((runInOrder plan answer order pool events).run state).1.1,
          ((runInOrder plan answer order pool events).run state).2) ∧
      ∀ {α : Type} (read : Event → List α), read .silent = [] →
        ((runInOrder plan answer order pool events).run state).1.2.reverse.flatMap read =
          events.reverse.flatMap read ++ tally read moments := by
  induction pool using wellFounded_nearer.induction generalizing order events state with
  | _ pool ih =>
    have approaches := pool.firstTurn_approaches plan (actors order)
    rw [runInOrder]
    split
    · exact ⟨[], .still, fun _ _ => (List.append_nil _).symm⟩
    · next event next moved =>
      rw [moved] at approaches
      obtain ⟨actor, turns⟩ := turn_of_firstTurn_moves moved
      obtain ⟨moments, run, told⟩ := ih next approaches order (event :: events) state
      refine ⟨_, .cons (.move actor event turns) run, fun read silent => ?_⟩
      rw [told read silent]
      simp [tally]
    · next worker request resume asks =>
      rw [asks] at approaches
      obtain ⟨actor, turns⟩ := turn_of_firstTurn_asks asks
      obtain ⟨moments, run, told⟩ := ih (resume ((answer request).run state).1) (approaches _)
        (orderAfter order worker request) events ((answer request).run state).2
      refine ⟨_, .cons (.effect actor worker request resume _ turns rfl) run,
        fun read silent => (told read silent).trans ?_⟩
      simp [tally, silent]

theorem exists_runs_run (answer : (request : Q) → StateM S (R request)) (pool : Pool Q R)
    (state : S) :
    ∃ moments, Runs plan (answersOf answer) (pool, state) moments
        (((run plan answer pool []).run state).1.1, ((run plan answer pool []).run state).2) ∧
      ∀ {α : Type} (read : Event → List α), read .silent = [] →
        ((run plan answer pool []).run state).1.2.reverse.flatMap read = tally read moments :=
  exists_runs_runInOrder answer (List.range pool.workers.length) pool [] state

/-- A run that goes on until no task can move, if that takes few enough steps. -/
def runWithin (plan : Plan Q R) (answer : (request : Q) → StateM S (R request)) :
    Nat → List Nat → Pool Q R → List Event → S → Option ((Pool Q R × List Event) × S)
  | 0, _, _, _, _ => none
  | bound + 1, order, pool, events, state =>
      match pool.firstTurn plan (actors order) with
      | .waits => some ((pool, events), state)
      | .moves event next => runWithin plan answer bound order next (event :: events) state
      | .asks worker request resume =>
          let (reply, after) := (answer request).run state
          runWithin plan answer bound (orderAfter order worker request) (resume reply) events after

/-- What a run comes to within a bound is what it comes to without one. -/
theorem runInOrder_eq_of_runWithin {answer : (request : Q) → StateM S (R request)} {bound : Nat}
    {order : List Nat} {events : List Event} {state : S} {outcome : (Pool Q R × List Event) × S}
    (ran : runWithin plan answer bound order pool events state = some outcome) :
    (runInOrder plan answer order pool events).run state = outcome := by
  induction bound generalizing order pool events state with
  | zero => cases ran
  | succ bound ih =>
      rw [runInOrder]
      rw [runWithin] at ran
      split at ran
      · next waits =>
        cases ran
        split <;> next same => cases waits.symm.trans same <;> rfl
      · next moved =>
        split <;> next same => cases moved.symm.trans same <;> exact ih ran
      · next asks =>
        split <;> next same => cases asks.symm.trans same <;> exact ih ran

/-- An operation that follows rules, for two target maps. -/
def samplePlan (rules : List OperationRule) : Plan Effect Effect.Reply where
  targets := ["a", "b"]
  operation := Operation.ruled rules

/-- Two workers, a tile that is meant for all target maps, and a job. -/
def sampleStart : Pool Effect Effect.Reply :=
  start (Generator.ofItems [.tile ⟨1, 0, 0⟩, .job ⟨"c", ⟨1, 1, 0⟩⟩]) 2 false

def sampleAnswers : (effect : Effect) → World → effect.Reply → World → Prop :=
  answersOf (World.answer (ruledSource []))

def sampleRun (rules : List OperationRule) : (Pool Effect Effect.Reply × List Event) × World :=
  (run (samplePlan rules) (World.answer (ruledSource [])) sampleStart []).run {}

theorem exists_runs_sampleRun (rules : List OperationRule) :
    ∃ moments, Runs (samplePlan rules) sampleAnswers (sampleStart, {}) moments
        ((sampleRun rules).1.1, (sampleRun rules).2) ∧
      ∀ {α : Type} (read : Event → List α), read .silent = [] →
        (sampleRun rules).1.2.reverse.flatMap read = tally read moments :=
  exists_runs_run _ _ _

end TilePyramid.Pool
