import TilePyramid.Proofs.Pool.Items
import TilePyramid.Proofs.Pool.Schedule

/-!
# The way of jobs through a pool

Jobs go from the items that were received through the queue to the workers. At every point of a run
the jobs that were handed out are the first ones of those received, workers have taken them in this
order, and each worker has started or left unrun what it has taken, but for the job in its hands.
-/

set_option autoImplicit false

namespace TilePyramid

variable {Q : Type} {R : Q → Type}

namespace Worker

/-- The job that the worker has taken and neither started nor left unrun. -/
def undecided : Worker Q R → List Job
  | .holding job | .weighing job => [job]
  | _ => []

def inProgress : Worker Q R → List Job
  | .running job _ => [job]
  | _ => []

def isSkipping : Worker Q R → Bool
  | .idle skipping | .listening skipping => skipping
  | _ => false

end Worker

namespace Pool

/-- What is read off the worker at an index, if there is one. -/
def atWorker (read : Worker Q R → List Job) (index : Nat) (pool : Pool Q R) : List Job :=
  (pool.workers[index]?.map read).getD []

theorem atWorker_start (read : Worker Q R → List Job) (resting : read (.idle false) = [])
    (index : Nat) (generator : Generator) (concurrency : Nat) (cancelled : Bool) :
    (start generator concurrency cancelled).atWorker read index = [] := by
  cases found : (start generator concurrency cancelled : Pool Q R).workers[index]? with
  | none => simp [atWorker, found]
  | some worker =>
      have idle : worker = .idle false :=
        List.eq_of_mem_replicate (List.mem_of_getElem? found)
      simp [atWorker, found, idle, resting]

theorem ofWorker_map {α : Type} (worker index : Nat) (values : List α) :
    ofWorker worker (values.map (index, ·)) = if index = worker then values else [] := by
  by_cases same : index = worker <;> simp [ofWorker, same, List.filterMap_map]

section Runs

variable {S : Type} {plan : Plan Q R} {answers : (request : Q) → S → R request → S → Prop}
  {first last : Pool Q R × S} {moments : List (Moment Q R)}

/-- The law of conservation for what a single worker has in its hands. -/
theorem Runs.conserved_at (read : Worker Q R → List Job) (gains losses : Event → List (Nat × Job))
    (run : Runs plan answers first moments last)
    (generated : ∀ exchange, gains (.generated exchange) = [] ∧ losses (.generated exchange) = [])
    (coordinated : ∀ {pool event channel queue coordinator},
      CoordinatorMove plan pool event channel queue coordinator → gains event = [] ∧ losses event = [])
    (silent : gains .silent = [] ∧ losses .silent = [])
    (worked : ∀ {pool index worker event queue latch cancelled next},
      WorkerMove plan pool index worker event queue latch cancelled next →
      ∃ gained lost, gains event = gained.map (index, ·) ∧ losses event = lost.map (index, ·) ∧
        read worker ++ gained = lost ++ read next) (worker : Nat) :
    first.1.atWorker read worker ++ ofWorker worker (tally gains moments) =
      ofWorker worker (tally losses moments) ++ last.1.atWorker read worker := by
  simp only [ofWorker, filterMap_tally]
  refine run.conserved (atWorker read worker) (fun event => ofWorker worker (gains event))
    (fun event => ofWorker worker (losses event)) ?_
  intro pool event next change
  cases change with
  | generator step => simp [generated, atWorker]
  | coordinator move => simp [coordinated move, atWorker]
  | cancel running => simp [silent, atWorker]
  | @worker index held after _ queue latch cancelled found move =>
      obtain ⟨gained, lost, gain, loss, balanced⟩ := worked move
      rw [gain, loss, ofWorker_map, ofWorker_map]
      by_cases same : index = worker
      · subst same
        have inside := (List.getElem?_eq_some_iff.mp found).1
        simpa only [atWorker, found, List.getElem?_set_self inside, Option.map_some,
          Option.getD_some, if_true] using balanced
      · simp [atWorker, same]

/-- Each worker has started or left unrun what it took, in this order, but for the job in its
hands. -/
theorem Runs.takes_eq {generator : Generator} {concurrency : Nat} {cancelled : Bool} {state : S}
    (run : Runs plan answers (start generator concurrency cancelled, state) moments last)
    (worker : Nat) :
    ofWorker worker (tally Event.takes moments) =
      ofWorker worker (tally Event.decisions moments) ++
        last.1.atWorker Worker.undecided worker := by
  have balanced := run.conserved_at Worker.undecided Event.takes Event.decisions
    (fun _ => ⟨rfl, rfl⟩) (fun move => by cases move <;> exact ⟨rfl, rfl⟩) ⟨rfl, rfl⟩ ?_ worker
  · rwa [atWorker_start Worker.undecided rfl, List.nil_append] at balanced
  · intro pool index held event queue latch cancelled next move
    refine ⟨event.takes.map Prod.snd, event.decisions.map Prod.snd, ?_, ?_, ?_⟩ <;>
      cases move <;> rfl

/-- Each worker has finished what it started, in this order, but for the run that goes on. -/
theorem Runs.starts_eq {generator : Generator} {concurrency : Nat} {cancelled : Bool} {state : S}
    (run : Runs plan answers (start generator concurrency cancelled, state) moments last)
    (worker : Nat) :
    ofWorker worker (tally Event.starts moments) =
      ofWorker worker (tally Event.finishes moments) ++
        last.1.atWorker Worker.inProgress worker := by
  have balanced := run.conserved_at Worker.inProgress Event.starts Event.finishes
    (fun _ => ⟨rfl, rfl⟩) (fun move => by cases move <;> exact ⟨rfl, rfl⟩) ⟨rfl, rfl⟩ ?_ worker
  · rwa [atWorker_start Worker.inProgress rfl, List.nil_append] at balanced
  · intro pool index held event queue latch cancelled next move
    refine ⟨event.starts.map Prod.snd, event.finishes.map Prod.snd, ?_, ?_, ?_⟩ <;>
      cases move <;> rfl

/-- Workers have taken what was handed out, in this order, but for the job in the queue. -/
theorem Runs.dispatched_eq {generator : Generator} {concurrency : Nat} {cancelled : Bool} {state : S}
    (run : Runs plan answers (start generator concurrency cancelled, state) moments last) :
    tally Event.dispatchedJobs moments =
      (tally Event.takes moments).map Prod.snd ++ last.1.queue.toList := by
  have balanced := run.conserved (fun pool => pool.queue.toList) Event.dispatchedJobs
    (fun event => event.takes.map Prod.snd) ?_
  · simpa [start, tally, List.map_flatMap] using balanced
  · intro pool event next change
    cases change with
    | generator step => simp [Event.dispatchedJobs, Event.takes]
    | cancel running => simp [Event.dispatchedJobs, Event.takes]
    | coordinator move => cases move <;> simp_all [Event.dispatchedJobs, Event.takes]
    | worker found move => cases move <;> simp_all [Event.dispatchedJobs, Event.takes]

end Runs

def receivedJobs (plan : Plan Q R) (moments : List (Moment Q R)) : List Job :=
  (tally Event.receivedItems moments).flatMap (Item.jobs plan.targets)

/-- How the jobs handed out stand to those received: they are the first ones, all others are still
pending while the coordinator goes on, and none is left if it stopped because nothing more came. -/
structure HandsOut (plan : Plan Q R) (moments : List (Moment Q R)) (pool : Pool Q R) : Prop where
  leading : tally Event.dispatchedJobs moments <+: receivedJobs plan moments
  feeding : ∀ pending, pool.coordinator.pending? = some pending →
    receivedJobs plan moments = tally Event.dispatchedJobs moments ++ pending
  complete : pool.coordinator.pending? = none →
    (∀ reason ∈ tally Event.stops moments, reason = .exhausted) →
    tally Event.dispatchedJobs moments = receivedJobs plan moments

namespace HandsOut

variable {plan : Plan Q R} {moments : List (Moment Q R)} {pool next : Pool Q R} {event : Event}

private theorem of_feeding {pending : List Job}
    (place : pool.coordinator.pending? = some pending)
    (same : receivedJobs plan moments = tally Event.dispatchedJobs moments ++ pending) :
    HandsOut plan moments pool where
  leading := ⟨pending, same.symm⟩
  feeding _ found := by rwa [Option.some.inj (place.symm.trans found)] at same
  complete none := by rw [place] at none; cases none

private theorem quiet (kept : HandsOut plan moments pool) (received : event.receivedItems = [])
    (dispatched : event.dispatchedJobs = []) (stops : event.stops = [])
    (place : next.coordinator.pending? = pool.coordinator.pending?) :
    HandsOut plan (moments ++ [⟨pool, event⟩]) next := by
  obtain ⟨leading, feeding, complete⟩ := kept
  constructor
  · simpa [receivedJobs, received, dispatched] using leading
  · simpa [receivedJobs, received, dispatched, place] using feeding
  · simpa [receivedJobs, received, dispatched, stops, place] using complete

private theorem breakOff {reason : FeedEnd} {coordinator : Coordinator}
    (kept : HandsOut plan moments pool)
    (early : reason ≠ .exhausted) (place : coordinator.pending? = none) :
    HandsOut plan (moments ++ [⟨pool, .stopped reason⟩]) { pool with coordinator } := by
  constructor
  · simpa [receivedJobs, Event.receivedItems, Event.dispatchedJobs] using kept.leading
  · intro pending found
    rw [place] at found
    cases found
  · intro _ all
    exact absurd (all reason (by simp [Event.stops])) early

theorem step (change : Change plan pool event next) (kept : HandsOut plan moments pool) :
    HandsOut plan (moments ++ [⟨pool, event⟩]) next := by
  cases change with
  | generator step => exact kept.quiet rfl rfl rfl rfl
  | cancel running => exact kept.quiet rfl rfl rfl rfl
  | worker found move => cases move <;> exact kept.quiet rfl rfl rfl rfl
  | coordinator move =>
      cases move with
      | halts place cancelled => exact kept.breakOff (by decide) rfl
      | givesUp place failed => exact kept.breakOff (by decide) rfl
      | withdraws place cancelled => exact kept.breakOff (by decide) rfl
      | receives place running taken =>
          have all := kept.feeding [] (by rw [place]; rfl)
          refine of_feeding rfl ?_
          simpa [receivedJobs, Event.receivedItems, Event.dispatchedJobs] using all
      | exhausts place running empty ended =>
          have all := kept.feeding [] (by rw [place]; rfl)
          constructor
          · simpa [receivedJobs, Event.receivedItems, Event.dispatchedJobs] using kept.leading
          · intro pending found
            cases found
          · intro _ _
            simpa [receivedJobs, Event.receivedItems, Event.dispatchedJobs] using all.symm
      | crosses place => exact kept.quiet rfl rfl rfl (by rw [place]; rfl)
      | offers place unset => exact kept.quiet rfl rfl rfl (by rw [place]; rfl)
      | @dispatches job pending place running free =>
          have all := kept.feeding (job :: pending) (by rw [place]; rfl)
          refine of_feeding rfl ?_
          simpa [receivedJobs, Event.receivedItems, Event.dispatchedJobs] using all
      | closes place => exact kept.quiet rfl rfl rfl (by rw [place]; rfl)
      | discards place taken => exact kept.quiet rfl rfl rfl (by rw [place])
      | drains place empty ended => exact kept.quiet rfl rfl rfl (by rw [place]; rfl)
      | joins place ended => exact kept.quiet rfl rfl rfl (by rw [place]; rfl)

end HandsOut

section Runs

variable {S : Type} {plan : Plan Q R} {answers : (request : Q) → S → R request → S → Prop}
  {last : Pool Q R × S} {moments : List (Moment Q R)} {generator : Generator} {concurrency : Nat}
  {cancelled : Bool} {state : S}

theorem Runs.handsOut
    (run : Runs plan answers (start generator concurrency cancelled, state) moments last) :
    HandsOut plan moments last.1 :=
  run.induct (HandsOut plan) ⟨List.prefix_rfl, fun _ place => by cases place; rfl, nofun⟩
    HandsOut.step

/-- Workers discard jobs only after an error was latched. -/
def SkipsWithCause (pool : Pool Q R) : Prop :=
  ∀ worker ∈ pool.workers, worker.isSkipping = true → pool.latch.isSet = true

theorem SkipsWithCause.step {pool next : Pool Q R} {event : Event}
    (change : Change plan pool event next) (kept : SkipsWithCause pool) : SkipsWithCause next := by
  cases change with
  | generator step => exact kept
  | cancel running => exact kept
  | coordinator move => exact kept
  | worker found move =>
      have held := kept _ (List.mem_of_getElem? found)
      intro worker member skipping
      rcases List.mem_or_eq_of_mem_set member with other | rfl
      · have latched := kept worker other skipping
        cases move <;> simp [latched, Latch.store_of_isSet]
      · cases move <;> simp_all [Worker.isSkipping]

/-- When a job is left unrun, an error is in the latch. -/
theorem Runs.isSet_of_leaves
    (run : Runs plan answers (start generator concurrency cancelled, state) moments last)
    {moment : Moment Q R} (member : moment ∈ moments) (left : moment.event.leaves ≠ []) :
    moment.pool.latch.isSet = true := by
  have rested : SkipsWithCause (start generator concurrency cancelled : Pool Q R) := by
    intro worker member
    rw [List.eq_of_mem_replicate member]
    exact nofun
  obtain ⟨caused, next, change⟩ := run.at_moment SkipsWithCause rested SkipsWithCause.step member
  generalize moment.event = event at change left
  cases change with
  | generator step => exact absurd rfl left
  | cancel running => exact absurd rfl left
  | coordinator move => cases move <;> exact absurd rfl left
  | worker found move =>
      cases move with
      | drops queued => exact caused _ (List.mem_of_getElem? found) rfl
      | skips failed => exact failed
      | _ => exact absurd rfl left

theorem Runs.starts_sublist
    (run : Runs plan answers (start generator concurrency cancelled, state) moments last)
    (worker : Nat) :
    (ofWorker worker (tally Event.starts moments)).Sublist
      (ofWorker worker (tally Event.takes moments)) := by
  rw [run.takes_eq worker]
  have decided : (tally Event.starts moments).Sublist (tally Event.decisions moments) :=
    tally_sublist (fun _ => List.sublist_append_left _ _) moments
  exact (decided.filterMap _).trans (List.sublist_append_left _ _)

/-- Jobs are handed out in the order in which they come from received items, none is invented, and
each of them is taken by one worker, which starts it once or leaves it unrun after an error was
latched. -/
theorem jobs_taken_in_order_and_started_once {pool : Pool Q R} {after : S}
    (run : Runs plan answers (start generator concurrency cancelled, state) moments (pool, after)) :
    tally Event.receivedItems moments <+: tally Event.sentItems moments ∧
      tally Event.dispatchedJobs moments <+:
        (tally Event.receivedItems moments).flatMap (Item.jobs plan.targets) ∧
      tally Event.dispatchedJobs moments =
        (tally Event.takes moments).map Prod.snd ++ pool.queue.toList ∧
      (∀ worker, ofWorker worker (tally Event.takes moments) =
        ofWorker worker (tally Event.decisions moments) ++
          pool.atWorker Worker.undecided worker) ∧
      ((tally Event.starts moments).map Prod.snd).Subperm (tally Event.dispatchedJobs moments) ∧
      ∀ moment ∈ moments, moment.event.leaves ≠ [] → moment.pool.latch.isSet = true := by
  obtain ⟨part, same, inside⟩ := subperm_of_ofWorker run.starts_sublist
  refine ⟨run.received_prefix, run.handsOut.leading, run.dispatched_eq, run.takes_eq, ?_,
    fun moment member => run.isSet_of_leaves member⟩
  rw [run.dispatched_eq]
  exact ⟨part.map Prod.snd, same.map _, (inside.map _).trans (List.sublist_append_left _ _)⟩

/-- An operation that fails leaves jobs unrun that were handed out already. -/
theorem failing_operation_leaves_jobs :
    ∃ moments, Runs (samplePlan [⟨{}, false, some .noMaps⟩]) sampleAnswers (sampleStart, {}) moments
        ((sampleRun [⟨{}, false, some .noMaps⟩]).1.1, (sampleRun [⟨{}, false, some .noMaps⟩]).2) ∧
      tally Event.leaves moments = [(0, ⟨"b", ⟨1, 0, 0⟩⟩), (0, ⟨"c", ⟨1, 1, 0⟩⟩)] ∧
      ∀ moment ∈ moments, moment.event.leaves ≠ [] → moment.pool.latch.isSet = true := by
  obtain ⟨moments, run, told⟩ := exists_runs_sampleRun [⟨{}, false, some .noMaps⟩]
  obtain ⟨-, -, -, -, -, caused⟩ := jobs_taken_in_order_and_started_once run
  have left : tally Event.leaves moments = [(0, ⟨"b", ⟨1, 0, 0⟩⟩), (0, ⟨"c", ⟨1, 1, 0⟩⟩)] := by
    rw [← told Event.leaves rfl]
    cbv
  exact ⟨moments, run, left, caused⟩

end Runs

end Pool

end TilePyramid
