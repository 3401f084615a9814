import TilePyramid.Proofs.Pool.Sequence

/-!
# Runs that are left to themselves

A scheduled run goes on until no task can move. If the work on the jobs neither cancels the run nor
waits for that, nothing stops it, and the run comes to its result. Main statements: `run_invariant`
and `run_returns`.
-/

set_option autoImplicit false

namespace TilePyramid

variable {Q : Type} {R : Q → Type} {S : Type}

namespace Task

variable {α β : Type}

/-- A task asks its surroundings, and of its run at most whether it is cancelled: it neither cancels
the run nor waits until others do. -/
inductive Independent : Task Q R α → Prop where
  | done (result : α) : Independent (.done result)
  | isCancelled {next : Bool → Task Q R α} (goesOn : ∀ cancelled, Independent (next cancelled)) :
      Independent (.ask .isCancelled next)
  | effect {request : Q} {next : R request → Task Q R α}
      (goesOn : ∀ reply, Independent (next reply)) :
      Independent (.ask (.effect request) next)

theorem independent_ofProgram (program : Program Q R α) :
    Independent (ofProgram program : Task Q R α) := by
  induction program with
  | done result => exact .done result
  | ask request next ih => exact .effect ih

theorem Independent.bind {task : Task Q R α} {next : α → Task Q R β} (first : Independent task)
    (rest : ∀ result, Independent (next result)) : Independent (Program.bind task next) := by
  induction first with
  | done result => exact rest result
  | isCancelled _ ih => exact .isCancelled ih
  | effect _ ih => exact .effect ih

/-- What is never waited for cannot keep a task from returning. -/
theorem Independent.returns {task : Task Q R α} (independent : Independent task)
    (answer : (request : Q) → StateM S (R request)) (known : Bool) :
    Returns (Pool.answersOf answer) known task := by
  induction independent generalizing known with
  | done result => exact .done known result
  | isCancelled _ ih => exact .isCancelled fun cancelled _ => ih cancelled cancelled
  | @effect request _ _ ih =>
      exact .effect (fun state => ⟨_, _, rfl⟩) fun {_ reply _} _ => ih reply known

end Task

namespace Pool

variable {plan : Plan Q R} {pool next : Pool Q R} {event : Event}

theorem waits_of_firstTurn {actors : List Actor} (waits : pool.firstTurn plan actors = .waits) :
    ∀ actor ∈ actors, pool.turn plan actor = .waits := by
  induction actors with
  | nil => nofun
  | cons actor others ih =>
      simp only [firstTurn] at waits
      split at waits
      · next rests => exact List.forall_mem_cons.mpr ⟨rests, ih waits⟩
      · next moves => exact absurd waits moves

/-- Only an operation cancels a run by a turn. -/
theorem cancelled_of_turn {actor : Actor} (moved : pool.turn plan actor = .moves event next) :
    next.cancelled = pool.cancelled ∨
      ∃ job replies, .running job (.ask .cancel replies) ∈ pool.workers := by
  cases actor with
  | generator =>
      simp only [turn, generatorTurn] at moved
      split at moved <;> cases moved
      exact .inl rfl
  | coordinator =>
      simp only [turn, coordinatorTurn, moveCoordinator, moveReceiver] at moved
      repeat' split at moved
      all_goals cases moved
      all_goals exact .inl rfl
  | worker index =>
      simp only [turn] at moved
      split at moved
      · next worker found =>
        cases worker with
        | running job task =>
            cases task with
            | done result => cases result <;> cases moved <;> exact .inl rfl
            | ask request replies =>
                cases request with
                | cancel => exact .inr ⟨job, replies, List.mem_of_getElem? found⟩
                | effect request => cases moved
                | isCancelled =>
                    cases moved
                    exact .inl rfl
                | untilCancelled =>
                    simp only [workerTurn, taskTurn] at moved
                    split at moved <;> cases moved
                    exact .inl rfl
        | _ =>
            simp only [workerTurn, takeJob] at moved
            repeat' split at moved
            all_goals cases moved
            all_goals exact .inl rfl
      · cases moved

/-- The run is not cancelled, and no operation that was started will cancel it. -/
structure Undisturbed (pool : Pool Q R) : Prop where
  running : pool.cancelled = false
  independent : ∀ {job task}, .running job task ∈ pool.workers → Task.Independent task

namespace Undisturbed

variable (works : ∀ job, Task.Independent (plan.operation job))

include works in
theorem turn {actor : Actor} (moved : pool.turn plan actor = .moves event next)
    (kept : Undisturbed pool) : Undisturbed next := by
  have running : next.cancelled = false := by
    obtain same | ⟨job, replies, member⟩ := cancelled_of_turn moved
    · exact same.trans kept.running
    · cases kept.independent member
  refine ⟨running, fun {job task} member => ?_⟩
  have still := StillAwaits.of_turn moved
  cases change_of_turn moved with
  | generator step => exact kept.independent member
  | coordinator move => exact kept.independent member
  | cancel _ => cases running
  | worker found move =>
      obtain before | same := List.mem_or_eq_of_mem_set member
      · exact kept.independent before
      cases move with
      | starts unset =>
          cases same
          exact works _
      | looks =>
          cases same
          cases kept.independent (List.mem_of_getElem? found) with
          | isCancelled goesOn => exact goesOn _
      | wakes cancelled => simp [kept.running] at cancelled
      | cancels => cases running
      | learns reply => exact still.absurd_learns found rfl
      | _ => cases same

theorem reply {index : Nat} {job : Job} {request : Q}
    {replies : R request → Task Q R (Except Error Unit)}
    (awaits : pool.Awaits index job request replies) (reply : R request)
    (kept : Undisturbed pool) : Undisturbed (pool.setWorker index (.running job (replies reply))) := by
  refine ⟨kept.running, fun member => ?_⟩
  obtain before | same := List.mem_or_eq_of_mem_set member
  · exact kept.independent before
  · cases same
    cases kept.independent (List.mem_of_getElem? awaits) with
    | effect goesOn => exact goesOn reply

theorem start (generator : Generator) (concurrency : Nat) :
    Undisturbed (Pool.start generator concurrency false : Pool Q R) where
  running := rfl
  independent member := by cases List.eq_of_mem_replicate member

end Undisturbed

section Scheduled

variable [Program.Lasting Q] (answer : (request : Q) → StateM S (R request))

/-- A scheduled run ends where none of its tasks can move, and what its turns and the replies to its
operations keep holds there. -/
theorem runInOrder_invariant (holds : Pool Q R → Prop)
    (moves : ∀ {pool actor event next}, pool.turn plan actor = .moves event next → holds pool →
      holds next)
    (learns : ∀ {pool : Pool Q R} {index job request replies} (reply : R request),
      pool.Awaits index job request replies → holds pool →
      holds (pool.setWorker index (.running job (replies reply))))
    (order : List Nat) (pool : Pool Q R) (events : List Event) (state : S) (initially : holds pool) :
    let last := ((runInOrder plan answer order pool events).run state).1.1
    holds last ∧ ∃ rest, order ⊆ rest ∧ last.firstTurn plan (actors rest) = .waits := by
  induction pool using wellFounded_nearer.induction generalizing order events state with
  | _ pool ih =>
    have approaches := pool.firstTurn_approaches plan (actors order)
    rw [runInOrder]
    split
    · next waits => exact ⟨initially, order, List.Subset.refl order, waits⟩
    · next event next moved =>
      rw [moved] at approaches
      obtain ⟨actor, turns⟩ := turn_of_firstTurn_moves moved
      exact ih next approaches order (event :: events) state (moves turns initially)
    · next worker request resume asks =>
      rw [asks] at approaches
      obtain ⟨actor, turns⟩ := turn_of_firstTurn_asks asks
      obtain ⟨job, replies, awaits, rfl⟩ := running_of_asks turns
      obtain ⟨kept, rest, behind, waits⟩ := ih _ (approaches ((answer request).run state).1)
        (orderAfter order worker request) events ((answer request).run state).2
        (learns _ awaits initially)
      have ordered : order ⊆ orderAfter order worker request := by
        unfold orderAfter
        split
        · intro index member
          by_cases same : index = worker
          · simp [same]
          · exact List.mem_append_left _ ((List.mem_erase_of_ne same).mpr member)
        · exact List.Subset.refl order
      exact ⟨kept, rest, List.Subset.trans ordered behind, waits⟩

theorem run_invariant (holds : Pool Q R → Prop)
    (moves : ∀ {pool actor event next}, pool.turn plan actor = .moves event next → holds pool →
      holds next)
    (learns : ∀ {pool : Pool Q R} {index job request replies} (reply : R request),
      pool.Awaits index job request replies → holds pool →
      holds (pool.setWorker index (.running job (replies reply))))
    (pool : Pool Q R) (state : S) (initially : holds pool) :
    let last := ((run plan answer pool []).run state).1.1
    holds last ∧ ∀ actor, last.turn plan actor = .waits := by
  obtain ⟨⟨kept, crew⟩, rest, everyone, still⟩ := runInOrder_invariant answer
    (fun later => holds later ∧ later.workers.length = pool.workers.length)
    (fun moved kept => ⟨moves moved kept.1, (change_of_turn moved).length_workers.trans kept.2⟩)
    (fun reply awaits kept => ⟨learns reply awaits kept.1, by simpa [setWorker] using kept.2⟩)
    (List.range pool.workers.length) pool [] state ⟨initially, rfl⟩
  have waits := waits_of_firstTurn still
  refine ⟨kept, fun actor => ?_⟩
  cases actor with
  | generator => exact waits _ (by simp [actors])
  | coordinator => exact waits _ (by simp [actors])
  | worker index =>
      by_cases within : index < pool.workers.length
      · have ordered : index ∈ rest := everyone (List.mem_range.mpr within)
        exact waits _ (by simp [actors, ordered])
      · have beyond := (Nat.le_of_eq crew).trans (Nat.le_of_not_lt within)
        rw [turn, run, List.getElem?_eq_none beyond]

/-- A run whose operation is independent of it comes to a result, and nobody has cancelled it. -/
theorem run_returns {generator : Generator} (waits : generator.WaitsOnlyToSend) (concurrency : Nat)
    (works : ∀ job, Task.Independent (plan.operation job)) (state : S) :
    let last := ((run plan answer (start generator concurrency false) []).run state).1.1
    last.cancelled = false ∧ ∃ result, last.result? = some result := by
  intro last
  obtain ⟨undisturbed, still⟩ := run_invariant answer Undisturbed
    (fun moved kept => kept.turn works moved) (fun reply awaits kept => kept.reply awaits reply)
    (start generator concurrency false) state (.start generator concurrency)
  obtain ⟨moments, runs, -⟩ := exists_runs_run answer (start generator concurrency false) state
  refine ⟨undisturbed.running, ?_⟩
  cases returned : last.result? with
  | some result => exact ⟨result, rfl⟩
  | none =>
      have returns (job : Job) := (works job).returns answer false
      obtain ⟨actor, goes⟩ := runs.canGoOn waits returns returned
      rw [still actor] at goes
      exact goes.elim

end Scheduled

end Pool

end TilePyramid
