import TilePyramid.Proofs.Pool.Ending

/-!
# What a successful run has done

A run that returns success has run the operation once on every job of every item that its generator
set out to offer. Whatever could have lost an item or a job would have left an error in a latch or
another reason to stop.
-/

set_option autoImplicit false

namespace TilePyramid

variable {Q : Type} {R : Q → Type}

theorem Stream.offers_of_hasEnded {stream : Stream} (ended : stream.hasEnded = true) :
    stream.generator.offers = [] := by
  obtain ⟨generator, channel⟩ := stream
  cases generator with
  | done result => rfl
  | ask request next => cases ended

namespace Pool

variable {plan : Plan Q R} {moments : List (Moment Q R)} {pool next : Pool Q R} {event : Event}

/-- The coordinator stopped before everything had come. -/
def StoppedEarly (moments : List (Moment Q R)) : Prop :=
  ∃ reason ∈ tally Event.stops moments, reason ≠ .exhausted

theorem StoppedEarly.append (early : StoppedEarly moments) (later : List (Moment Q R)) :
    StoppedEarly (moments ++ later) := by
  obtain ⟨reason, member, other⟩ := early
  exact ⟨reason, by simp [member], other⟩

/-- A stream is stopped only by a coordinator that stopped early, and a generator that has not
offered what it set out to offer was told to stop, which left an error unless that was the cause. -/
structure Delivers (generator : Generator) (moments : List (Moment Q R)) (pool : Pool Q R) :
    Prop where
  stopped : pool.stream.channel.stopped = true → StoppedEarly moments
  delivered : generator.offers = tally Event.sentItems moments ++ pool.stream.generator.offers ∨
    pool.stream.channel.latch.isSet = true ∨ StoppedEarly moments

namespace Delivers

variable {generator : Generator}

private theorem quiet {channel : Channel} {coordinator : Coordinator} {queue : Option Job}
    {latch : Latch} {workers : List (Worker Q R)} {cancelled : Bool}
    (kept : Delivers generator moments pool) (sent : event.sentItems = [])
    (stopped : channel.stopped = true → pool.stream.channel.stopped = true ∨ StoppedEarly moments)
    (latched : channel.latch = pool.stream.channel.latch) :
    Delivers generator (moments ++ [⟨pool, event⟩])
      ⟨{ pool.stream with channel }, coordinator, queue, latch, workers, cancelled⟩ := by
  constructor
  · intro stop
    rcases stopped stop with before | early
    · exact (kept.stopped before).append _
    · exact early.append _
  · rcases kept.delivered with all | broken | early
    · exact .inl (by simpa [sent] using all)
    · exact .inr (.inl (by rw [latched]; exact broken))
    · exact .inr (.inr (early.append _))

theorem step (change : Change plan pool event next) (stops : Stops moments pool)
    (kept : Delivers generator moments pool) :
    Delivers generator (moments ++ [⟨pool, event⟩]) next := by
  cases change with
  | cancel running => exact kept.quiet rfl .inl rfl
  | worker found move => exact kept.quiet (by cases move <;> rfl) .inl rfl
  | @generator exchange stream step =>
      have move := Stream.move_of_turn step
      refine ⟨fun stop => (kept.stopped (by rw [← move.stopped]; exact stop)).append _, ?_⟩
      rcases kept.delivered with all | broken | early
      · by_cases hinders : exchange.hinders = true
        · have told := move.mustStop_of_hinders hinders
          rcases Bool.or_eq_true_iff.mp told with cancelled | stopped
          · rw [cancelled] at move
            exact .inr (.inl (move.isSet_of_hinders hinders))
          · exact .inr (.inr ((kept.stopped stopped).append _))
        · have rest := move.offers_eq (by simpa using hinders)
          exact .inl (by simp [Event.sentItems, all, rest])
      · refine .inr (.inl ?_)
        rcases move.latch with same | ⟨error, -, same⟩ | ⟨-, same⟩ <;> simp [same, broken]
      · exact .inr (.inr (early.append _))
  | coordinator move =>
      refine kept.quiet (by cases move <;> rfl) ?_ move.latch_eq
      intro stop
      cases move with
      | @closes reason place =>
          have noted := stops.stopped reason (by rw [place]; rfl)
          by_cases complete : reason = .exhausted
          · rw [if_pos complete] at stop
            exact .inl stop
          · exact .inr ⟨reason, by simp [noted], complete⟩
      | receives place running taken =>
          obtain ⟨_, rfl⟩ := Channel.take?_eq_some_iff.mp taken
          exact .inl stop
      | discards place taken =>
          obtain ⟨_, rfl⟩ := Channel.take?_eq_some_iff.mp taken
          exact .inl stop
      | _ => exact .inl stop

end Delivers

/-- Workers end only when the queue is closed and empty, which it stays. -/
def EndsEmpty (pool : Pool Q R) : Prop :=
  ∀ worker ∈ pool.workers, worker.hasEnded = true → pool.queueClosed = true ∧ pool.queue = none

theorem EndsEmpty.step (change : Change plan pool event next) (kept : EndsEmpty pool) :
    EndsEmpty next := by
  cases change with
  | generator step => exact kept
  | cancel running => exact kept
  | coordinator move =>
      intro worker member ended
      obtain ⟨closed, empty⟩ := kept worker member ended
      cases move <;> simp_all [queueClosed, Coordinator.isFeeding]
  | worker found move =>
      intro worker member ended
      rcases List.mem_or_eq_of_mem_set member with other | rfl
      · obtain ⟨closed, empty⟩ := kept worker other ended
        cases move with
        | takes queued | drops queued => exact ⟨closed, rfl⟩
        | _ => exact ⟨closed, empty⟩
      · cases move with
        | ends empty closed => exact ⟨closed, empty⟩
        | _ => cases ended

theorem Change.length_workers (change : Change plan pool event next) :
    next.workers.length = pool.workers.length := by
  cases change <;> simp

theorem result_eq_ok_iff {reason : FeedEnd} : pool.result reason = .ok () ↔
    pool.stream.channel.latch.held = none ∧ pool.latch.held = none ∧ reason ≠ .canceled := by
  cases broken : pool.stream.channel.latch.held <;> cases stored : pool.latch.held <;>
    cases reason <;> simp [result, broken, stored]

section Runs

variable {S : Type} {answers : (request : Q) → S → R request → S → Prop}
  {last : Pool Q R × S} {generator : Generator} {concurrency : Nat} {cancelled : Bool} {state : S}

theorem Runs.delivers
    (run : Runs plan answers (start generator concurrency cancelled, state) moments last) :
    Delivers generator moments last.1 :=
  run.induct_along (Delivers generator) ⟨nofun, .inl rfl⟩
    fun earlier change kept => kept.step change earlier.stops

theorem Runs.length_workers
    (run : Runs plan answers (start generator concurrency cancelled, state) moments last) :
    last.1.workers.length = max 1 concurrency := by
  refine run.invariant (·.workers.length = max 1 concurrency) (by simp [start]) ?_
  intro pool event next change same
  rw [change.length_workers, same]

theorem Runs.workers_pos
    (run : Runs plan answers (start generator concurrency cancelled, state) moments last) :
    0 < last.1.workers.length := by
  have length := run.length_workers
  omega

theorem Runs.endsEmpty
    (run : Runs plan answers (start generator concurrency cancelled, state) moments last) :
    EndsEmpty last.1 := by
  refine run.invariant EndsEmpty ?_ EndsEmpty.step
  intro worker member
  rw [List.eq_of_mem_replicate member]
  exact nofun

/-- No job is left in the queue once all workers have ended. -/
theorem Runs.queue_eq_none
    (run : Runs plan answers (start generator concurrency cancelled, state) moments last)
    (ended : last.1.workers.all Worker.hasEnded = true) : last.1.queue = none := by
  have member := List.getElem_mem run.workers_pos
  exact (run.endsEmpty _ member (List.all_eq_true.mp ended _ member)).2

theorem atWorker_of_ended {read : Worker Q R → List Job} (resting : read .ended = [])
    (ended : pool.workers.all Worker.hasEnded = true) (worker : Nat) :
    pool.atWorker read worker = [] := by
  cases found : pool.workers[worker]? with
  | none => simp [atWorker, found]
  | some held =>
      have rests := List.all_eq_true.mp ended held (List.mem_of_getElem? found)
      cases held with
      | ended => simp [atWorker, found, resting]
      | _ => cases rests

theorem Runs.leaves_eq_nil
    (run : Runs plan answers (start generator concurrency cancelled, state) moments last)
    (unset : last.1.latch.isSet = false) : tally Event.leaves moments = [] := by
  refine List.flatMap_eq_nil_iff.mpr fun moment member => ?_
  by_contra left
  have latched := run.persists (·.latch.isSet = true) Change.isSet member
    (run.isSet_of_leaves member left)
  rw [unset] at latched
  cases latched

theorem Event.jobErrors_sublist (event : Event) : event.jobErrors.Sublist event.stored := by
  unfold jobErrors
  split
  · exact .refl _
  · exact List.nil_sublist _

theorem successes_eq_finishes (clean : tally Event.stored moments = []) :
    tally Event.successes moments = tally Event.finishes moments := by
  refine List.flatMap_congr fun moment member => ?_
  have none := List.flatMap_eq_nil_iff.mp clean moment member
  generalize moment.event = event at none
  cases event with
  | finished worker job result =>
      cases result with
      | ok done => rfl
      | error error => cases none
  | _ => rfl

/-- Workers have started all that was handed out and finished all that they started, when all have
ended and no error was stored. -/
theorem Runs.starts_perm
    (run : Runs plan answers (start generator concurrency cancelled, state) moments last)
    (ended : last.1.workers.all Worker.hasEnded = true) (unset : last.1.latch.held = none) :
    ((tally Event.starts moments).map Prod.snd).Perm (tally Event.dispatchedJobs moments) ∧
      (tally Event.successes moments).Perm (tally Event.starts moments) := by
  have clean : tally Event.stored moments = [] := by
    rw [run.held_eq] at unset
    exact List.head?_eq_none_iff.mp unset
  have decided : tally Event.decisions moments = tally Event.starts moments := by
    have none := List.flatMap_eq_nil_iff.mp (run.leaves_eq_nil (by simp [Latch.isSet, unset]))
    refine List.flatMap_congr fun moment member => ?_
    simp [Event.decisions, none moment member]
  constructor
  · rw [run.dispatched_eq, run.queue_eq_none ended, Option.toList_none, List.append_nil]
    refine List.Perm.map _ (perm_of_ofWorker fun worker => ?_)
    rw [run.takes_eq worker, decided, atWorker_of_ended rfl ended, List.append_nil]
  · rw [successes_eq_finishes clean]
    refine perm_of_ofWorker fun worker => ?_
    rw [run.starts_eq worker, atWorker_of_ended rfl ended, List.append_nil]

/-- A run that returns success has run the operation exactly once on every job of every item that
the generator set out to offer, all of these runs succeeded, and the generator ended by itself with
no error. -/
theorem jobs_run_exactly_once_of_ok {pool : Pool Q R} {after : S}
    (run : Runs plan answers (start generator concurrency cancelled, state) moments (pool, after))
    (returned : pool.result? = some (.ok ())) :
    ((tally Event.starts moments).map Prod.snd).Perm
        (generator.offers.flatMap (Item.jobs plan.targets)) ∧
      (tally Event.successes moments).Perm (tally Event.starts moments) ∧
      tally Event.jobErrors moments = [] ∧
      tally Event.sentItems moments = generator.offers ∧
      pool.stream.hasEnded = true ∧ pool.stream.channel.latch = .empty ∧
      pool.stream.channel.stopped = false := by
  obtain ⟨-, ended, reason, noted, same⟩ :=
    run.closed.returned _ (coordinator_of_result? returned)
  obtain ⟨unbroken, unset, uncancelled⟩ : pool.stream.channel.latch.held = none ∧
      pool.latch.held = none ∧ reason ≠ .canceled := result_eq_ok_iff.mp same.symm
  -- Every other reason to stop shows in the result.
  have exhausted : reason = .exhausted := by
    cases reason with
    | exhausted => rfl
    | failed => simpa [Latch.isSet, unset] using run.stops.failed (by simp [noted])
    | canceled => exact absurd rfl uncancelled
  have onTime : ¬ StoppedEarly moments := by
    simp [StoppedEarly, noted, exhausted]
  have place : pool.coordinator.pending? = none := by
    rw [coordinator_of_result? returned]
    rfl
  have all : ∀ reason ∈ tally Event.stops moments, reason = .exhausted := by
    simp [noted, exhausted]
  obtain ⟨kept, empty, streamEnded⟩ := run.takesIn.complete place all
  have sent : tally Event.sentItems moments = generator.offers := by
    rcases run.delivers.delivered with whole | broken | early
    · rw [whole, Stream.offers_of_hasEnded streamEnded, List.append_nil]
    · simp [Latch.isSet, unbroken] at broken
    · exact absurd early onTime
  have received : tally Event.receivedItems moments = generator.offers := by
    have balanced := run.takesIn.balanced
    rw [sent, kept, empty] at balanced
    simpa using balanced.symm
  have dispatched := run.handsOut.complete place all
  rw [receivedJobs, received] at dispatched
  obtain ⟨started, succeeded⟩ := run.starts_perm ended unset
  have clean : tally Event.jobErrors moments = [] := by
    have stored := run.held_eq
    rw [unset, eq_comm, List.head?_eq_none_iff] at stored
    exact List.eq_nil_of_sublist_nil (stored ▸ tally_sublist Event.jobErrors_sublist moments)
  refine ⟨dispatched ▸ started, succeeded, clean, sent, streamEnded, ?_, ?_⟩
  · exact congrArg Latch.mk unbroken
  · by_contra stopped
    exact onTime (run.delivers.stopped (by simpa using stopped))

theorem tile_and_job_run_exactly_once :
    ∃ moments, Runs (samplePlan []) sampleAnswers (sampleStart, {}) moments
        ((sampleRun []).1.1, (sampleRun []).2) ∧
      (sampleRun []).1.1.result? = some (.ok ()) ∧
      ((tally Event.starts moments).map Prod.snd).Perm
        [⟨"a", ⟨1, 0, 0⟩⟩, ⟨"b", ⟨1, 0, 0⟩⟩, ⟨"c", ⟨1, 1, 0⟩⟩] := by
  obtain ⟨moments, run, -⟩ := exists_runs_sampleRun []
  have returned : (sampleRun []).1.1.result? = some (.ok ()) := by cbv
  refine ⟨moments, run, returned, ?_⟩
  simpa [samplePlan, Item.jobs] using (jobs_run_exactly_once_of_ok run returned).1

end Runs

end Pool

end TilePyramid
