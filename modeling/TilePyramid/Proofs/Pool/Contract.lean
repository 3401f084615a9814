import TilePyramid.Proofs.Pool.Completeness
import TilePyramid.Proofs.Pool.Course
import TilePyramid.Proofs.Pool.Situations
import TilePyramid.Proofs.Task.Contract

/-!
# Runs whose operations keep a contract

If the operation keeps a contract on every job that the generator sets out to offer, then a run
changes its surroundings only as the contract allows, in any order of its steps, and what was promised
of the jobs that have finished holds; if the run returns success, these are all jobs. Main statements:
`Runs.keepsContract` and `Runs.promised_of_ok`.
-/

set_option autoImplicit false

namespace TilePyramid.Pool

variable {Q : Type} {R : Q → Type} {S : Type} {plan : Plan Q R}

/-- The results of the jobs that have finished. -/
def Event.results : Event → List (Job × Except Error Unit)
  | .finished _ job result => [(job, result)]
  | _ => []

theorem mem_results_of_mem_successes {moments : List (Moment Q R)} {worker : Nat} {job : Job}
    (succeeded : (worker, job) ∈ tally Event.successes moments) :
    (job, .ok ()) ∈ tally Event.results moments := by
  obtain ⟨moment, member, success⟩ := (mem_tally _).mp succeeded
  refine (mem_tally _).mpr ⟨moment, member, ?_⟩
  generalize moment.event = event at success
  cases event with
  | finished index other result =>
      cases result with
      | ok done =>
          obtain ⟨-, rfl⟩ : worker = index ∧ job = other := by simpa [Event.successes] using success
          exact List.mem_singleton_self _
      | error error => cases success
  | _ => cases success

/-- A run that started in surroundings `first` has kept its contract so far. -/
structure KeepsContract (contract : Contract Q R S) (promise : Job → Except Error Unit → S → Prop)
    (first : S) (moments : List (Moment Q R)) (pool : Pool Q R) (state : S) : Prop where
  allowed : contract.allows first state
  running : ∀ {job task}, .running job task ∈ pool.workers →
    Task.Keeps contract (promise job) task state
  finished : ∀ {job result}, (job, result) ∈ tally Event.results moments →
    ∀ {later}, contract.allows state later → promise job result later

namespace KeepsContract

variable {contract : Contract Q R S} {promise : Job → Except Error Unit → S → Prop} {first state : S}
  {moments : List (Moment Q R)} {pool next : Pool Q R} {event : Event}

private theorem quiet (kept : KeepsContract contract promise first moments pool state)
    (results : event.results = []) (workers : next.workers = pool.workers) :
    KeepsContract contract promise first (moments ++ [⟨pool, event⟩]) next state where
  allowed := kept.allowed
  running member := kept.running (workers ▸ member)
  finished member := kept.finished (by simpa [results] using member)

theorem step (works : ∀ job, .weighing job ∈ pool.workers →
      Task.Keeps contract (promise job) (plan.operation job) state)
    (change : Change plan pool event next) (still : StillAwaits pool next)
    (kept : KeepsContract contract promise first moments pool state) :
    KeepsContract contract promise first (moments ++ [⟨pool, event⟩]) next state := by
  cases change with
  | generator step => exact kept.quiet rfl rfl
  | coordinator move => exact kept.quiet (by cases move <;> rfl) rfl
  | cancel running => exact kept.quiet rfl rfl
  | @worker index worker after _ queue latch cancelled found move =>
      have member := List.mem_of_getElem? found
      refine ⟨kept.allowed, fun {job task} inside => ?_, fun {job result} inside => ?_⟩
      · rcases List.mem_or_eq_of_mem_set inside with other | same
        · exact kept.running other
        cases move with
        | starts unset =>
            cases same
            exact works _ member
        | looks =>
            cases same
            cases kept.running member with
            | isCancelled goesOn => exact goesOn _
        | cancels =>
            cases same
            cases kept.running member with
            | cancel goesOn => exact goesOn
        | wakes cancelled =>
            cases same
            cases kept.running member with
            | untilCancelled goesOn => exact goesOn
        | learns reply => exact still.absurd_learns found rfl
        | _ => cases same
      · intro later change
        rw [tally_append, List.mem_append, tally_singleton] at inside
        rcases inside with before | now
        · exact kept.finished before change
        cases move with
        | succeeds | fails =>
            cases List.mem_singleton.mp now
            cases kept.running member with
            | done promised => exact promised change
        | _ => cases now

/-- A reply that the contract allows lets the operation that asked for it go on. -/
theorem learn {index : Nat} {job : Job} {request : Q} {after : S}
    {replies : R request → Task Q R (Except Error Unit)} {reply : R request}
    (awaits : pool.Awaits index job request replies)
    (answer : contract.answers request state reply after)
    (kept : KeepsContract contract promise first moments pool state) :
    KeepsContract contract promise first (moments ++ [⟨pool, .silent⟩])
      (pool.setWorker index (.running job (replies reply))) after := by
  cases kept.running (List.mem_of_getElem? awaits) with
  | effect allowed goesOn =>
      have unchanged := contract.refl state
      have change := allowed unchanged answer
      refine ⟨contract.trans kept.allowed change, fun inside => ?_, fun inside _ further => ?_⟩
      · rcases List.mem_or_eq_of_mem_set inside with other | same
        · exact (kept.running other).later change
        · cases same
          exact goesOn unchanged answer
      · exact kept.finished (by simpa [Event.results] using inside) (contract.trans change further)

end KeepsContract

section Runs

variable {contract : Contract Q R S} {promise : Job → Except Error Unit → S → Prop}
  {last : Pool Q R × S} {moments : List (Moment Q R)} {generator : Generator} {concurrency : Nat}
  {cancelled : Bool} {state : S}

/-- A job in the hands of a worker is one of those that the generator set out to offer. -/
theorem Runs.offered_of_weighing {answers : (request : Q) → S → R request → S → Prop} {job : Job}
    (run : Runs plan answers (start generator concurrency cancelled, state) moments last)
    (held : .weighing job ∈ last.1.workers) :
    job ∈ generator.offers.flatMap (Item.jobs plan.targets) := by
  obtain ⟨worker, found⟩ := List.mem_iff_getElem?.mp held
  have taken : job ∈ ofWorker worker (tally Event.takes moments) := by
    rw [run.takes_eq worker]
    simp [atWorker, found, Worker.undecided]
  obtain ⟨⟨index, other⟩, member, same⟩ := List.mem_filterMap.mp taken
  obtain ⟨-, rfl⟩ : index = worker ∧ other = job := by simpa using same
  refine run.dispatched_prefix.subset ?_
  rw [run.dispatched_eq]
  exact List.mem_append_left _ (List.mem_map_of_mem member)

theorem Runs.keepsContract
    (keeps : ∀ job ∈ generator.offers.flatMap (Item.jobs plan.targets),
      ∀ {later}, contract.allows state later →
        Task.Keeps contract (promise job) (plan.operation job) later)
    (run : Runs plan contract.answers (start generator concurrency cancelled, state) moments last) :
    KeepsContract contract promise state moments last.1 last.2 := by
  refine run.induct_within (KeepsContract contract promise state) ?_ ?_ ?_
  · exact ⟨contract.refl state, fun member => (nomatch List.eq_of_mem_replicate member), nofun⟩
  · intro moments pool after event next earlier change still kept
    exact kept.step (fun job held => keeps job (earlier.offered_of_weighing held) kept.allowed)
      change still
  · intro moments pool before after index job request replies reply earlier awaits answer kept
    exact kept.learn awaits answer

/-- A run that returned success stopped handing out jobs because there were no more. -/
theorem Runs.exhausted_of_ok {answers : (request : Q) → S → R request → S → Prop}
    (run : Runs plan answers (start generator concurrency cancelled, state) moments last)
    (returned : last.1.result? = some (.ok ())) :
    ∀ reason ∈ tally Event.stops moments, reason = .exhausted := by
  obtain ⟨-, -, reason, noted, same⟩ := run.closed.returned _ (coordinator_of_result? returned)
  obtain ⟨-, unset, uncancelled⟩ := result_eq_ok_iff.mp same.symm
  rw [noted]
  intro other member
  cases List.mem_singleton.mp member
  cases reason with
  | exhausted => rfl
  | failed => simpa [Latch.isSet, unset] using run.stops.failed (by simp [noted])
  | canceled => exact absurd rfl uncancelled

/-- A run that returned success has handed out every job that its generator set out to offer. -/
theorem Runs.dispatched_of_ok {answers : (request : Q) → S → R request → S → Prop}
    (run : Runs plan answers (start generator concurrency cancelled, state) moments last)
    (returned : last.1.result? = some (.ok ())) :
    tally Event.dispatchedJobs moments = generator.offers.flatMap (Item.jobs plan.targets) := by
  have closing := coordinator_of_result? returned
  obtain ⟨-, -, reason, -, same⟩ := run.closed.returned _ closing
  obtain ⟨unbroken, -, -⟩ := result_eq_ok_iff.mp same.symm
  have all := run.exhausted_of_ok returned
  have place : last.1.coordinator.pending? = none := by
    rw [closing]
    rfl
  obtain ⟨kept, empty, streamEnded⟩ := run.takesIn.complete place all
  have sent : tally Event.sentItems moments = generator.offers := by
    rcases run.delivers.delivered with whole | broken | ⟨reason, member, early⟩
    · rw [whole, Stream.offers_of_hasEnded streamEnded, List.append_nil]
    · simp [Latch.isSet, unbroken] at broken
    · exact absurd (all reason member) early
  rw [run.handsOut.complete place all, run.receivedJobs_eq sent kept empty]

/-- A run that returned success has finished every job that its generator set out to offer with
success, so what was promised of them holds. -/
theorem Runs.promised_of_ok {job : Job}
    (keeps : ∀ job ∈ generator.offers.flatMap (Item.jobs plan.targets),
      ∀ {later}, contract.allows state later →
        Task.Keeps contract (promise job) (plan.operation job) later)
    (run : Runs plan contract.answers (start generator concurrency cancelled, state) moments last)
    (returned : last.1.result? = some (.ok ()))
    (offered : job ∈ generator.offers.flatMap (Item.jobs plan.targets)) :
    promise job (.ok ()) last.2 := by
  obtain ⟨-, ended, reason, -, same⟩ := run.closed.returned _ (coordinator_of_result? returned)
  obtain ⟨-, unset, -⟩ := result_eq_ok_iff.mp same.symm
  obtain ⟨started, succeeded⟩ := run.starts_perm ended unset
  rw [← run.dispatched_of_ok returned, ← started.mem_iff, List.mem_map] at offered
  obtain ⟨⟨worker, _⟩, begun, rfl⟩ := offered
  exact (run.keepsContract keeps).finished
    (mem_results_of_mem_successes (succeeded.mem_iff.mpr begun)) (contract.refl last.2)

/-- Surroundings that reply only as others may make only runs that those allow. -/
theorem Runs.mono {first : Pool Q R × S} {answers more : (request : Q) → S → R request → S → Prop}
    (inside : ∀ {request state reply after}, answers request state reply after →
      more request state reply after)
    (run : Runs plan answers first moments last) : Runs plan more first moments last := by
  induction run with
  | still => exact .still
  | step earlier step ih =>
      refine .step ih ?_
      cases step with
      | move actor _ turn => exact .move actor _ turn
      | effect actor worker request resume reply turn answer =>
          exact .effect actor worker request resume reply turn (inside answer)
      | cancel running => exact .cancel running

end Runs

end TilePyramid.Pool
