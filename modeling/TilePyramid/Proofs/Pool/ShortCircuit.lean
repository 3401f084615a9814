import TilePyramid.Proofs.Pool.Ending

/-!
# What still happens in a run that is to stop

A run is to stop once an error is latched or it is cancelled. From then on a worker discards every
job that it takes; it may only start the one that it had taken before. The coordinator looks at the
latch before each job, so that it hands out no job but the one that it is offering already.
-/

set_option autoImplicit false

namespace TilePyramid

variable {Q : Type} {R : Q → Type}

/-- The job for which the coordinator has looked at the latch and waits for the queue. -/
def Coordinator.offered : Coordinator → List Job
  | .offering job _ => [job]
  | _ => []

namespace Pool

variable {plan : Plan Q R} {pool next : Pool Q R} {event : Event} {index : Nat}

/-- The jobs that skipping workers took. -/
def Event.drops : Event → List (Nat × Job)
  | .dropped worker job => [(worker, job)]
  | _ => []

theorem Event.eq_dropped_of_mem {job : Job} (member : (index, job) ∈ event.drops) :
    event = .dropped index job := by
  cases event with
  | dropped worker other =>
      obtain ⟨rfl, rfl⟩ : index = worker ∧ job = other := by simpa [Event.drops] using member
      rfl
  | _ => cases member

def IsStopping (pool : Pool Q R) : Prop := pool.latch.isSet = true ∨ pool.cancelled = true

theorem IsStopping.step (change : Change plan pool event next) (stopping : pool.IsStopping) :
    next.IsStopping := by
  rcases stopping with latched | cancelled
  · exact .inl (change.isSet latched)
  · exact .inr (change.cancelled cancelled)

/-- The worker at an index starts no job any more: an error is latched, or the worker has yet to see
that the run is cancelled before it looks at the latch. -/
def Barred (index : Nat) (pool : Pool Q R) : Prop :=
  pool.latch.isSet = true ∨
    pool.cancelled = true ∧ ∀ job, pool.workers[index]? ≠ some (.weighing job)

namespace Barred

theorem step (change : Change plan pool event next) (barred : pool.Barred index) :
    next.Barred index := by
  rcases barred with latched | ⟨cancelled, unweighed⟩
  · exact .inl (change.isSet latched)
  cases change with
  | generator step => exact .inr ⟨cancelled, unweighed⟩
  | coordinator move => exact .inr ⟨cancelled, unweighed⟩
  | cancel running => exact .inr ⟨rfl, unweighed⟩
  | @worker mover worker after event queue latch flag found move =>
      by_cases own : mover = index
      · subst own
        have inside := (List.getElem?_eq_some_iff.mp found).1
        cases move with
        | notices noticed => exact .inl (Latch.isSet_store _ _)
        | goesOn running => simp [cancelled] at running
        | cancels => exact .inr ⟨rfl, by simp [inside]⟩
        | _ => exact .inr ⟨cancelled, by simp [inside]⟩
      · have flagged : flag = true := by
          cases move with
          | cancels => rfl
          | _ => exact cancelled
        exact .inr ⟨flagged, by simpa [own] using unweighed⟩

/-- A worker that takes a job when the run is to stop does not start it. -/
theorem of_takes {job : Job} (change : Change plan pool event next) (stopping : pool.IsStopping)
    (taken : (index, job) ∈ event.takes) : next.Barred index := by
  rcases stopping with latched | cancelled
  · exact .inl (change.isSet latched)
  refine .inr ⟨change.cancelled cancelled, fun other => ?_⟩
  cases change with
  | generator step => cases taken
  | cancel running => cases taken
  | coordinator move => cases move <;> cases taken
  | @worker mover worker after event queue latch flag found move =>
      have inside := (List.getElem?_eq_some_iff.mp found).1
      cases move with
      | takes queued | drops queued =>
          obtain ⟨rfl, rfl⟩ : index = mover ∧ job = _ := by simpa [Event.takes] using taken
          simp [inside]
      | _ => cases taken

theorem starts_eq_nil (change : Change plan pool event next) (barred : pool.Barred index) :
    ofWorker index event.starts = [] := by
  cases change with
  | generator step => rfl
  | cancel running => rfl
  | coordinator move => cases move <;> rfl
  | @worker mover worker after event queue latch flag found move =>
      cases move with
      | starts unset =>
          have other : mover ≠ index := by
            rintro rfl
            rcases barred with latched | ⟨-, unweighed⟩
            · simp [unset] at latched
            · exact unweighed _ found
          simp [Event.starts, other]
      | _ => rfl

end Barred

/-- A coordinator that sees the latch set offers no other job than it did. -/
theorem Change.offered (change : Change plan pool event next) (latched : pool.latch.isSet = true) :
    event.dispatchedJobs ++ next.coordinator.offered <+: pool.coordinator.offered := by
  cases change with
  | generator step => exact List.prefix_rfl
  | cancel running => exact List.prefix_rfl
  | worker found move => cases move <;> exact List.prefix_rfl
  | coordinator move =>
      cases move with
      | offers place unset => simp [unset] at latched
      | dispatches place running free => rw [place]; exact List.prefix_rfl
      | _ => exact List.nil_prefix

section Runs

variable {S : Type} {answers : (request : Q) → S → R request → S → Prop}
  {first last : Pool Q R × S} {moments earlier later : List (Moment Q R)} {moment : Moment Q R}
  {generator : Generator} {concurrency : Nat} {cancelled : Bool} {state : S}

theorem Runs.starts_of_barred (run : Runs plan answers first moments last)
    (barred : first.1.Barred index) : ofWorker index (tally Event.starts moments) = [] := by
  refine (run.induct (fun moments pool =>
    pool.Barred index ∧ ofWorker index (tally Event.starts moments) = []) ⟨barred, rfl⟩ ?_).2
  intro moments pool event next change kept
  refine ⟨kept.1.step change, ?_⟩
  simp [kept.2, kept.1.starts_eq_nil change]

theorem Runs.dispatched_of_isSet (run : Runs plan answers first moments last)
    (latched : first.1.latch.isSet = true) :
    tally Event.dispatchedJobs moments ++ last.1.coordinator.offered <+:
      first.1.coordinator.offered := by
  refine (run.induct (fun moments pool => pool.latch.isSet = true ∧
    tally Event.dispatchedJobs moments ++ pool.coordinator.offered <+: first.1.coordinator.offered)
    ⟨latched, List.prefix_rfl⟩ ?_).2
  intro moments pool event next change kept
  refine ⟨change.isSet kept.1, ?_⟩
  rw [tally_append, tally_singleton, List.append_assoc]
  exact ((List.prefix_append_right_inj _).mpr (change.offered kept.1)).trans kept.2

/-- A worker starts none of the jobs that it takes after the run was to stop. -/
theorem Runs.starts_after_taking {before after : List (Moment Q R)} {taking : Moment Q R} {job : Job}
    (run : Runs plan answers first (before ++ taking :: after) last) (stopping : first.1.IsStopping)
    (taken : (index, job) ∈ taking.event.takes) :
    ofWorker index (tally Event.starts after) = [] := by
  obtain ⟨between, former, latter⟩ := run.split
  have still : between.1.IsStopping := former.invariant IsStopping stopping IsStopping.step
  obtain ⟨here, ⟨next, state⟩, step, rest⟩ := latter.head_eq
  exact rest.starts_of_barred (Barred.of_takes (change_of_step step) still taken)

/-- From the moment at which an error is latched or the run is cancelled, no worker starts a job that
it takes afterwards. Once an error is latched, at most one more job is handed out, the one that the
coordinator is offering then. -/
theorem nothing_new_starts_once_stopping
    (run : Runs plan answers (start generator concurrency cancelled, state)
      (earlier ++ moment :: later) last) :
    (moment.pool.latch.isSet = true ∨ moment.pool.cancelled = true →
      ∀ before taking after worker job, moment :: later = before ++ taking :: after →
        (worker, job) ∈ taking.event.takes → ofWorker worker (tally Event.starts after) = []) ∧
      (moment.pool.latch.isSet = true →
        (tally Event.dispatchedJobs (moment :: later)).length ≤ 1 ∧
          ∀ job ∈ tally Event.dispatchedJobs (moment :: later),
            ∃ pending, moment.pool.coordinator = .offering job pending) := by
  obtain ⟨⟨pool, between⟩, -, rest⟩ := run.split
  obtain ⟨rfl, -⟩ := rest.head_eq
  constructor
  · intro stopping before taking after worker job whole taken
    rw [whole] at rest
    exact rest.starts_after_taking stopping taken
  · intro latched
    have offered := (List.prefix_append _ _).trans (rest.dispatched_of_isSet latched)
    constructor
    · refine offered.length_le.trans ?_
      cases moment.pool.coordinator <;> simp [Coordinator.offered]
    · intro job dispatched
      have member := offered.subset dispatched
      cases place : moment.pool.coordinator with
      | offering other pending =>
          rw [place] at member
          exact ⟨pending, by rw [List.mem_singleton.mp member]⟩
      | _ =>
          rw [place] at member
          cases member

/-- A worker whose operation has failed starts nothing more after the next job that it takes. -/
theorem failed_worker_starts_nothing_more :
    ∃ earlier moment later,
      Runs (samplePlan [⟨{}, false, some .noMaps⟩]) sampleAnswers (sampleStart, {})
        (earlier ++ moment :: later)
        ((sampleRun [⟨{}, false, some .noMaps⟩]).1.1, (sampleRun [⟨{}, false, some .noMaps⟩]).2) ∧
      moment.pool.latch.isSet = true ∧ moment.event = .dropped 0 ⟨"b", ⟨1, 0, 0⟩⟩ ∧
      ofWorker 0 (tally Event.starts later) = [] ∧
      (tally Event.dispatchedJobs (moment :: later)).length ≤ 1 := by
  obtain ⟨moments, run, told⟩ := exists_runs_sampleRun [⟨{}, false, some .noMaps⟩]
  have dropped : tally Event.drops moments = [(0, ⟨"b", ⟨1, 0, 0⟩⟩), (0, ⟨"c", ⟨1, 1, 0⟩⟩)] := by
    rw [← told Event.drops rfl]
    cbv
  obtain ⟨moment, member, drops⟩ : ∃ moment ∈ moments, (0, ⟨"b", ⟨1, 0, 0⟩⟩) ∈ moment.event.drops :=
    (mem_tally _).mp (by simp [dropped])
  have event := Event.eq_dropped_of_mem drops
  have latched := run.isSet_of_leaves member (by simp [event, Event.leaves])
  obtain ⟨earlier, later, rfl⟩ := List.append_of_mem member
  obtain ⟨started, dispatched⟩ := nothing_new_starts_once_stopping run
  exact ⟨earlier, moment, later, run, latched, event,
    started (.inl latched) [] moment later 0 ⟨"b", ⟨1, 0, 0⟩⟩ rfl (by simp [event, Event.takes]),
    (dispatched latched).1⟩

end Runs

end Pool

end TilePyramid
