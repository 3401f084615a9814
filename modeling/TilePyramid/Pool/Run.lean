import TilePyramid.Pool.Progress

/-!
# Running a pool

One of the possible orders of steps: the generator goes first, then the coordinator, then the
workers, of whom the one whose operation waits for a lasting request goes behind the others. The run
ends when no task can move.
-/

set_option autoImplicit false

namespace TilePyramid

variable {Q : Type} {R : Q → Type}

namespace Pool

/-- The first of the given tasks that does not wait makes a step. -/
def firstTurn (plan : Plan Q R) (pool : Pool Q R) : List Actor → Turn Q R
  | [] => .waits
  | actor :: others =>
      match pool.turn plan actor with
      | .waits => pool.firstTurn plan others
      | step => step

/-- The tasks of a run, with the workers in a given order. -/
def actors (order : List Nat) : List Actor := .generator :: .coordinator :: order.map .worker

theorem firstTurn_approaches (plan : Plan Q R) (pool : Pool Q R) (actors : List Actor) :
    (pool.firstTurn plan actors).Approaches pool := by
  induction actors with
  | nil => trivial
  | cons actor others ih =>
      simp only [firstTurn]
      split
      · exact ih
      · exact pool.turn_approaches plan actor

/-- The order of workers after the operation of one of them asked: it goes behind the others if the
request takes time. -/
def orderAfter [Program.Lasting Q] (order : List Nat) (worker : Nat) (request : Q) : List Nat :=
  if Program.Lasting.lasts request then order.erase worker ++ [worker] else order

/-- Runs a pool until no task can move, with the workers in a given order. The surroundings reply to
what operations ask; events are collected with the latest first. -/
def runInOrder {m : Type → Type} [Monad m] [Program.Lasting Q] (plan : Plan Q R)
    (answer : (request : Q) → m (R request)) (order : List Nat) (pool : Pool Q R)
    (events : List Event) : m (Pool Q R × List Event) :=
  match _step : pool.firstTurn plan (actors order) with
  | .waits => pure (pool, events)
  | .moves event next => runInOrder plan answer order next (event :: events)
  | .asks worker request resume => do
      let reply ← answer request
      runInOrder plan answer (orderAfter order worker request) (resume reply) events
termination_by wellFounded_nearer.wrap pool
decreasing_by
  all_goals
    have approaches := firstTurn_approaches plan pool (actors order)
    rw [_step] at approaches
  · exact approaches
  · exact approaches reply

/-- Runs a pool until no task can move, with the workers in their order at first. -/
def run {m : Type → Type} [Monad m] [Program.Lasting Q] (plan : Plan Q R)
    (answer : (request : Q) → m (R request)) (pool : Pool Q R) (events : List Event) :
    m (Pool Q R × List Event) :=
  runInOrder plan answer (List.range pool.workers.length) pool events

/-- The result of a run that has returned. -/
def result? (pool : Pool Q R) : Option (Except Error Unit) :=
  match pool.coordinator with
  | .returned result => some result
  | _ => none

/-- The jobs that operations were run on, in their order, of events with the latest first. -/
def startedJobs (events : List Event) : List Job :=
  events.reverse.filterMap fun
    | .started _ job => some job
    | _ => none

end Pool

end TilePyramid
