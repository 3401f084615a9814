import TilePyramid.Pool

/-!
# Progress of worker pools

Every step of a task brings a run nearer to its end, in an order that compares, one after the other:
the generator, the slot of the stream, what the coordinator still has to do, the queue, and the
workers. Main statement: the order is well-founded, so no run goes on forever unless its
surroundings change.
-/

set_option autoImplicit false

namespace TilePyramid

variable {Q : Type} {R : Q → Type}

/-- How much a coordinator has to do before it takes another item, and then to return. -/
def Coordinator.remaining : Coordinator → Nat
  | .returned _ => 0
  | .joining _ => 1
  | .draining _ => 2
  | .closing _ => 3
  | .receiving => 4
  | .crossing pending => 2 * pending.length + 5
  | .offering _ pending => 2 * pending.length + 6

namespace Worker

/-- A worker goes on without taking a job. -/
inductive Advances : Worker Q R → Worker Q R → Prop where
  | ends (skipping : Bool) : Advances .ended (.listening skipping)
  | listens (skipping : Bool) : Advances (.listening skipping) (.idle skipping)
  | weighs (job : Job) : Advances (.weighing job) (.holding job)
  | skips (job : Job) : Advances (.idle true) (.weighing job)
  | starts (job : Job) (task : Task Q R (Except Error Unit)) :
      Advances (.running job task) (.weighing job)
  | continues (job : Job) (next task : Task Q R (Except Error Unit)) :
      Program.Continues next task → Advances (.running job next) (.running job task)
  | finishes (job : Job) (task : Task Q R (Except Error Unit)) (skipping : Bool) :
      Advances (.idle skipping) (.running job task)

private theorem acc_ended : Acc (@Advances Q R) .ended :=
  ⟨_, fun _ advances => by cases advances⟩

private theorem acc_listening (skipping : Bool) : Acc (@Advances Q R) (.listening skipping) :=
  ⟨_, fun _ advances => by cases advances; exact acc_ended⟩

private theorem acc_idle (skipping : Bool) : Acc (@Advances Q R) (.idle skipping) :=
  ⟨_, fun _ advances => by cases advances; exact acc_listening skipping⟩

private theorem acc_running (job : Job) (task : Task Q R (Except Error Unit)) :
    Acc (@Advances Q R) (.running job task) := by
  induction task using Program.wellFounded_continues.induction with
  | _ task ih =>
    refine ⟨_, fun _ advances => ?_⟩
    cases advances with
    | continues _ next _ continues => exact ih next continues
    | finishes _ _ skipping => exact acc_idle skipping

private theorem acc_weighing (job : Job) : Acc (@Advances Q R) (.weighing job) := by
  refine ⟨_, fun _ advances => ?_⟩
  cases advances with
  | skips => exact acc_idle true
  | starts _ task => exact acc_running job task

/-- A worker that takes no job comes to its end. -/
theorem wellFounded_advances : WellFounded (@Advances Q R) := by
  refine ⟨fun worker => ?_⟩
  cases worker with
  | idle skipping => exact acc_idle skipping
  | listening skipping => exact acc_listening skipping
  | holding job => exact ⟨_, fun _ advances => by cases advances; exact acc_weighing job⟩
  | weighing job => exact acc_weighing job
  | running job task => exact acc_running job task
  | ended => exact acc_ended

end Worker

structure Crew (Q : Type) (R : Q → Type) where
  workers : List (Worker Q R)

namespace Crew

/-- One worker goes on without taking a job. -/
inductive Advances : List (Worker Q R) → List (Worker Q R) → Prop where
  | head {next worker : Worker Q R} (rest : List (Worker Q R)) :
      Worker.Advances next worker → Advances (next :: rest) (worker :: rest)
  | tail (worker : Worker Q R) {next rest : List (Worker Q R)} :
      Advances next rest → Advances (worker :: next) (worker :: rest)

private theorem acc_cons {worker : Worker Q R} (first : Acc Worker.Advances worker) :
    ∀ {rest : List (Worker Q R)}, Acc Advances rest → Acc Advances (worker :: rest) := by
  induction first with
  | intro worker _ headIH =>
    intro rest others
    induction others with
    | intro rest restAcc tailIH =>
      refine ⟨_, fun _ advances => ?_⟩
      cases advances with
      | head _ step => exact headIH _ step ⟨_, restAcc⟩
      | tail _ step => exact tailIH _ step

theorem wellFounded_advances : WellFounded (@Advances Q R) := by
  refine ⟨fun workers => ?_⟩
  induction workers with
  | nil => exact ⟨_, fun _ advances => by cases advances⟩
  | cons worker rest ih => exact acc_cons (Worker.wellFounded_advances.apply worker) ih

theorem advances_set {workers : List (Worker Q R)} {index : Nat} {worker next : Worker Q R}
    (found : workers[index]? = some worker) (step : Worker.Advances next worker) :
    Advances (workers.set index next) workers := by
  induction workers generalizing index with
  | nil => simp at found
  | cons first rest ih =>
      cases index with
      | zero =>
          simp only [List.getElem?_cons_zero, Option.some.injEq] at found
          subst found
          exact .head rest step
      | succ index => exact .tail first (ih (by simpa using found))

instance : WellFoundedRelation (Crew Q R) where
  rel next crew := Advances next.workers crew.workers
  wf := InvImage.wf Crew.workers wellFounded_advances

end Crew

namespace Pool

/-- What is compared to see that a run comes nearer to its end. -/
@[reducible] def standing (pool : Pool Q R) : Generator × Nat × Nat × Nat × Crew Q R :=
  (pool.stream.generator, pool.stream.channel.load, pool.coordinator.remaining,
    pool.queue.toList.length, ⟨pool.workers⟩)

/-- One run is nearer to its end than another. -/
def Nearer (next pool : Pool Q R) : Prop :=
  WellFoundedRelation.rel next.standing pool.standing

theorem wellFounded_nearer : WellFounded (@Nearer Q R) :=
  InvImage.wf standing WellFoundedRelation.wf

theorem nearer_of_generator {next pool : Pool Q R}
    (step : Program.Continues next.stream.generator pool.stream.generator) : Nearer next pool :=
  .left _ _ step

theorem nearer_of_load {next pool : Pool Q R}
    (same : next.stream.generator = pool.stream.generator)
    (less : next.stream.channel.load < pool.stream.channel.load) : Nearer next pool := by
  unfold Nearer standing
  rw [same]
  exact .right _ (.left _ _ less)

theorem nearer_of_remaining {next pool : Pool Q R}
    (same : next.stream.generator = pool.stream.generator)
    (sameLoad : next.stream.channel.load = pool.stream.channel.load)
    (less : next.coordinator.remaining < pool.coordinator.remaining) : Nearer next pool := by
  unfold Nearer standing
  rw [same, sameLoad]
  exact .right _ (.right _ (.left _ _ less))

theorem nearer_of_queue {next pool : Pool Q R} (same : next.stream = pool.stream)
    (sameCoordinator : next.coordinator = pool.coordinator)
    (less : next.queue.toList.length < pool.queue.toList.length) : Nearer next pool := by
  unfold Nearer standing
  rw [same, sameCoordinator]
  exact .right _ (.right _ (.right _ (.left _ _ less)))

theorem nearer_of_worker {next pool : Pool Q R} {index : Nat} {worker after : Worker Q R}
    (same : next.stream = pool.stream) (sameCoordinator : next.coordinator = pool.coordinator)
    (sameQueue : next.queue = pool.queue) (moved : next.workers = pool.workers.set index after)
    (found : pool.workers[index]? = some worker) (step : Worker.Advances after worker) :
    Nearer next pool := by
  unfold Nearer standing
  rw [same, sameCoordinator, sameQueue, moved]
  exact .right _ (.right _ (.right _ (.right _ (Crew.advances_set found step))))

/-- What a step leads to is nearer to the end. -/
def Turn.Approaches (pool : Pool Q R) : Turn Q R → Prop
  | .waits => True
  | .moves _ next => Nearer next pool
  | .asks _ _ resume => ∀ reply, Nearer (resume reply) pool

theorem generatorTurn_approaches (pool : Pool Q R) : pool.generatorTurn.Approaches pool := by
  unfold generatorTurn
  split
  · next step => exact nearer_of_generator (Stream.continues_of_turn step)
  · trivial

private theorem load_stop (channel : Channel) : channel.stop.load = channel.load := rfl

theorem coordinatorTurn_approaches (plan : Plan Q R) (pool : Pool Q R) :
    (pool.coordinatorTurn plan).Approaches pool := by
  unfold coordinatorTurn
  split
  · next place =>
    split
    · exact nearer_of_remaining rfl rfl (by simp [place, Coordinator.remaining])
    · split
      · next taken => exact nearer_of_load rfl (Channel.load_of_take? taken)
      · split
        · exact nearer_of_remaining rfl rfl (by simp [place, Coordinator.remaining])
        · trivial
  · next place => exact nearer_of_remaining rfl rfl (by simp [place, Coordinator.remaining])
  · next place =>
    split
    · exact nearer_of_remaining rfl rfl (by simp [place, Coordinator.remaining])
    · exact nearer_of_remaining rfl rfl (by simp [place, Coordinator.remaining]; omega)
  · next place =>
    split
    · exact nearer_of_remaining rfl rfl (by simp [place, Coordinator.remaining])
    · split
      · exact nearer_of_remaining rfl rfl (by simp [place, Coordinator.remaining])
      · trivial
  · next reason place =>
    refine nearer_of_remaining rfl ?_ (by simp [place, Coordinator.remaining])
    by_cases exhausted : reason = .exhausted <;> simp [exhausted, load_stop]
  · next place =>
    split
    · next taken => exact nearer_of_load rfl (Channel.load_of_take? taken)
    · split
      · exact nearer_of_remaining rfl rfl (by simp [place, Coordinator.remaining])
      · trivial
  · next place =>
    split
    · exact nearer_of_remaining rfl rfl (by simp [place, Coordinator.remaining])
    · trivial
  · trivial

private theorem takeJob_approaches {pool : Pool Q R} {index : Nat} {skipping : Bool}
    (found : pool.workers[index]? = some (.listening skipping)) :
    (pool.takeJob index skipping).Approaches pool := by
  unfold takeJob
  split
  · next queued =>
    split
    · exact nearer_of_queue rfl rfl (by simp [setWorker, queued])
    · exact nearer_of_queue rfl rfl (by simp [setWorker, queued])
  · split
    · exact nearer_of_worker rfl rfl rfl rfl found (.ends skipping)
    · trivial

private theorem taskTurn_approaches {pool : Pool Q R} {index : Nat} {job : Job}
    {task : Task Q R (Except Error Unit)}
    (found : pool.workers[index]? = some (.running job task)) :
    (pool.taskTurn index job task).Approaches pool := by
  unfold taskTurn
  split
  · exact nearer_of_worker rfl rfl rfl rfl found (.finishes _ _ false)
  · exact nearer_of_worker rfl rfl rfl rfl found (.finishes _ _ true)
  · exact nearer_of_worker rfl rfl rfl rfl found
      (.continues _ _ _ (.reply (R := Task.Reply R) .isCancelled _ pool.cancelled))
  · exact nearer_of_worker rfl rfl rfl rfl found
      (.continues _ _ _ (.reply (R := Task.Reply R) .cancel _ ()))
  · split
    · exact nearer_of_worker rfl rfl rfl rfl found
        (.continues _ _ _ (.reply (R := Task.Reply R) .untilCancelled _ ()))
    · trivial
  · intro reply
    exact nearer_of_worker rfl rfl rfl rfl found
      (.continues _ _ _ (.reply (R := Task.Reply R) (.effect _) _ reply))

theorem workerTurn_approaches (plan : Plan Q R) {pool : Pool Q R} {index : Nat}
    {worker : Worker Q R} (found : pool.workers[index]? = some worker) :
    (pool.workerTurn plan index worker).Approaches pool := by
  cases worker with
  | idle skipping =>
      simp only [workerTurn]
      split
      · trivial
      · exact nearer_of_worker rfl rfl rfl rfl found (.listens skipping)
  | listening skipping => exact takeJob_approaches found
  | holding job =>
      simp only [workerTurn]
      split
      · exact nearer_of_worker rfl rfl rfl rfl found (.weighs job)
      · exact nearer_of_worker rfl rfl rfl rfl found (.weighs job)
  | weighing job =>
      simp only [workerTurn]
      split
      · exact nearer_of_worker rfl rfl rfl rfl found (.skips job)
      · exact nearer_of_worker rfl rfl rfl rfl found (.starts job _)
  | running job task => exact taskTurn_approaches found
  | ended => trivial

/-- Every step of a task brings the run nearer to its end. -/
theorem turn_approaches (plan : Plan Q R) (pool : Pool Q R) (actor : Actor) :
    (pool.turn plan actor).Approaches pool := by
  cases actor with
  | generator => exact pool.generatorTurn_approaches
  | coordinator => exact pool.coordinatorTurn_approaches plan
  | worker index =>
      simp only [turn]
      split
      · next found => exact workerTurn_approaches plan found
      · trivial

end Pool

end TilePyramid
