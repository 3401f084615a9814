import TilePyramid.Pool

/-!
# What a step of a pool can do

Every step of a run belongs to the generator, to the coordinator, to one worker, or is a
cancellation. The cases below say under which guards each of them moves and what it leaves as it
was. Main statement: `change_of_step`. Facts about whole runs are derived from these cases, and no
other proof opens the definitions of the turns.
-/

set_option autoImplicit false

namespace TilePyramid.Pool

variable {Q : Type} {R : Q → Type}

/-- A step of the coordinator: what happens, and then the channel, the queue and its own place. -/
inductive CoordinatorMove (plan : Plan Q R) (pool : Pool Q R) :
    Event → Channel → Option Job → Coordinator → Prop where
  | halts (place : pool.coordinator = .receiving) (cancelled : pool.cancelled = true) :
      CoordinatorMove plan pool (.stopped .canceled) pool.stream.channel pool.queue
        (.closing .canceled)
  | receives {item : Item} {channel : Channel} (place : pool.coordinator = .receiving)
      (running : pool.cancelled = false)
      (taken : pool.stream.channel.take? = some (item, channel)) :
      CoordinatorMove plan pool (.received item) channel pool.queue
        (.crossing (item.jobs plan.targets))
  | exhausts (place : pool.coordinator = .receiving) (running : pool.cancelled = false)
      (empty : pool.stream.channel.take? = none) (ended : pool.stream.hasEnded = true) :
      CoordinatorMove plan pool (.stopped .exhausted) pool.stream.channel pool.queue
        (.closing .exhausted)
  | crosses (place : pool.coordinator = .crossing []) :
      CoordinatorMove plan pool .silent pool.stream.channel pool.queue .receiving
  | givesUp {job : Job} {pending : List Job} (place : pool.coordinator = .crossing (job :: pending))
      (failed : pool.latch.isSet = true) :
      CoordinatorMove plan pool (.stopped .failed) pool.stream.channel pool.queue
        (.closing .failed)
  | offers {job : Job} {pending : List Job} (place : pool.coordinator = .crossing (job :: pending))
      (unset : pool.latch.isSet = false) :
      CoordinatorMove plan pool .silent pool.stream.channel pool.queue (.offering job pending)
  | withdraws {job : Job} {pending : List Job} (place : pool.coordinator = .offering job pending)
      (cancelled : pool.cancelled = true) :
      CoordinatorMove plan pool (.stopped .canceled) pool.stream.channel pool.queue
        (.closing .canceled)
  | dispatches {job : Job} {pending : List Job} (place : pool.coordinator = .offering job pending)
      (running : pool.cancelled = false) (free : pool.queue = none) :
      CoordinatorMove plan pool (.dispatched job) pool.stream.channel (some job)
        (.crossing pending)
  | closes {reason : FeedEnd} (place : pool.coordinator = .closing reason) :
      CoordinatorMove plan pool .silent
        (if reason = .exhausted then pool.stream.channel else pool.stream.channel.stop) pool.queue
        (.draining reason)
  | discards {reason : FeedEnd} {item : Item} {channel : Channel}
      (place : pool.coordinator = .draining reason)
      (taken : pool.stream.channel.take? = some (item, channel)) :
      CoordinatorMove plan pool (.discarded item) channel pool.queue (.draining reason)
  | drains {reason : FeedEnd} (place : pool.coordinator = .draining reason)
      (empty : pool.stream.channel.take? = none) (ended : pool.stream.hasEnded = true) :
      CoordinatorMove plan pool .silent pool.stream.channel pool.queue (.joining reason)
  | joins {reason : FeedEnd} (place : pool.coordinator = .joining reason)
      (ended : pool.workers.all Worker.hasEnded = true) :
      CoordinatorMove plan pool (.returned (pool.result reason)) pool.stream.channel pool.queue
        (.returned (pool.result reason))

/-- A step of the worker at an index: where it was, what happens, and then the queue, the latch,
whether the run is cancelled, and its own place. -/
inductive WorkerMove (plan : Plan Q R) (pool : Pool Q R) (index : Nat) :
    Worker Q R → Event → Option Job → Latch → Bool → Worker Q R → Prop where
  | listens {skipping : Bool} (free : pool.hasListener = false) :
      WorkerMove plan pool index (.idle skipping) .silent pool.queue pool.latch pool.cancelled
        (.listening skipping)
  | takes {job : Job} (queued : pool.queue = some job) :
      WorkerMove plan pool index (.listening false) (.taken index job) none pool.latch
        pool.cancelled (.holding job)
  | drops {job : Job} (queued : pool.queue = some job) :
      WorkerMove plan pool index (.listening true) (.dropped index job) none pool.latch
        pool.cancelled (.idle true)
  | ends {skipping : Bool} (empty : pool.queue = none) (closed : pool.queueClosed = true) :
      WorkerMove plan pool index (.listening skipping) .silent pool.queue pool.latch
        pool.cancelled .ended
  | notices {job : Job} (cancelled : pool.cancelled = true) :
      WorkerMove plan pool index (.holding job) (.noticed index job) pool.queue
        (pool.latch.store .canceled) pool.cancelled (.weighing job)
  | goesOn {job : Job} (running : pool.cancelled = false) :
      WorkerMove plan pool index (.holding job) .silent pool.queue pool.latch pool.cancelled
        (.weighing job)
  | skips {job : Job} (failed : pool.latch.isSet = true) :
      WorkerMove plan pool index (.weighing job) (.skipped index job) pool.queue pool.latch
        pool.cancelled (.idle true)
  | starts {job : Job} (unset : pool.latch.isSet = false) :
      WorkerMove plan pool index (.weighing job) (.started index job) pool.queue pool.latch
        pool.cancelled (.running job (plan.operation job))
  | succeeds {job : Job} :
      WorkerMove plan pool index (.running job (.done (.ok ()))) (.finished index job (.ok ()))
        pool.queue pool.latch pool.cancelled (.idle false)
  | fails {job : Job} {error : Error} :
      WorkerMove plan pool index (.running job (.done (.error error)))
        (.finished index job (.error error)) pool.queue (pool.latch.store error) pool.cancelled
        (.idle true)
  | looks {job : Job} {next : Bool → Task Q R (Except Error Unit)} :
      WorkerMove plan pool index (.running job (.ask .isCancelled next)) .silent pool.queue
        pool.latch pool.cancelled (.running job (next pool.cancelled))
  | cancels {job : Job} {next : Unit → Task Q R (Except Error Unit)} :
      WorkerMove plan pool index (.running job (.ask .cancel next)) .silent pool.queue pool.latch
        true (.running job (next ()))
  | wakes {job : Job} {next : Unit → Task Q R (Except Error Unit)}
      (cancelled : pool.cancelled = true) :
      WorkerMove plan pool index (.running job (.ask .untilCancelled next)) .silent pool.queue
        pool.latch pool.cancelled (.running job (next ()))
  | learns {job : Job} {request : Q} {next : R request → Task Q R (Except Error Unit)}
      (reply : R request) :
      WorkerMove plan pool index (.running job (.ask (.effect request) next)) .silent pool.queue
        pool.latch pool.cancelled (.running job (next reply))

/-- One step of a run, without what the surroundings are. -/
inductive Change (plan : Plan Q R) : Pool Q R → Event → Pool Q R → Prop where
  | generator {pool : Pool Q R} {exchange : Generator.Exchange} {stream : Stream}
      (step : pool.stream.turn pool.cancelled = some (exchange, stream)) :
      Change plan pool (.generated exchange) { pool with stream }
  | coordinator {pool : Pool Q R} {event : Event} {channel : Channel} {queue : Option Job}
      {coordinator : Coordinator} (move : CoordinatorMove plan pool event channel queue coordinator) :
      Change plan pool event
        { pool with stream := { pool.stream with channel }, queue, coordinator }
  | worker {pool : Pool Q R} {index : Nat} {worker next : Worker Q R} {event : Event}
      {queue : Option Job} {latch : Latch} {cancelled : Bool}
      (found : pool.workers[index]? = some worker)
      (move : WorkerMove plan pool index worker event queue latch cancelled next) :
      Change plan pool event
        { pool with queue, latch, cancelled, workers := pool.workers.set index next }
  | cancel {pool : Pool Q R} (running : pool.cancelled = false) :
      Change plan pool .silent { pool with cancelled := true }

variable {plan : Plan Q R} {pool next : Pool Q R} {event : Event} {index : Nat}

private theorem change_of_generatorTurn (moved : pool.generatorTurn = .moves event next) :
    Change plan pool event next := by
  unfold generatorTurn at moved
  split at moved
  · next step =>
    cases moved
    exact .generator step
  · cases moved

private theorem change_of_coordinatorTurn (moved : pool.coordinatorTurn plan = .moves event next) :
    Change plan pool event next := by
  unfold coordinatorTurn moveCoordinator moveReceiver at moved
  split at moved
  · next place =>
    split at moved
    · next cancelled =>
      cases moved
      exact .coordinator (.halts place cancelled)
    · next running =>
      have running : pool.cancelled = false := by simpa using running
      split at moved
      · next taken =>
        cases moved
        exact .coordinator (.receives place running taken)
      · next empty =>
        split at moved
        · next ended =>
          cases moved
          exact .coordinator (.exhausts place running empty ended)
        · cases moved
  · next place =>
    cases moved
    exact .coordinator (.crosses place)
  · next place =>
    split at moved
    · next failed =>
      cases moved
      exact .coordinator (.givesUp place failed)
    · next unset =>
      cases moved
      exact .coordinator (.offers place (by simpa using unset))
  · next place =>
    split at moved
    · next cancelled =>
      cases moved
      exact .coordinator (.withdraws place cancelled)
    · next running =>
      split at moved
      · next free =>
        cases moved
        exact .coordinator (.dispatches place (by simpa using running) free)
      · cases moved
  · next place =>
    cases moved
    exact .coordinator (.closes place)
  · next place =>
    split at moved
    · next taken =>
      cases moved
      exact .coordinator (.discards place taken)
    · next empty =>
      split at moved
      · next ended =>
        cases moved
        exact .coordinator (.drains place empty ended)
      · cases moved
  · next place =>
    split at moved
    · next ended =>
      cases moved
      exact .coordinator (.joins place ended)
    · cases moved
  · cases moved

private theorem change_of_takeJob {skipping : Bool}
    (found : pool.workers[index]? = some (.listening skipping))
    (moved : pool.takeJob index skipping = .moves event next) : Change plan pool event next := by
  unfold takeJob at moved
  split at moved
  · next queued =>
    cases skipping with
    | true =>
        cases moved
        exact .worker found (.drops queued)
    | false =>
        cases moved
        exact .worker found (.takes queued)
  · next empty =>
    split at moved
    · next closed =>
      cases moved
      exact .worker found (.ends empty closed)
    · cases moved

private theorem change_of_taskTurn {job : Job} {task : Task Q R (Except Error Unit)}
    (found : pool.workers[index]? = some (.running job task))
    (moved : pool.taskTurn index job task = .moves event next) : Change plan pool event next := by
  unfold taskTurn at moved
  split at moved
  · cases moved
    exact .worker found .succeeds
  · cases moved
    exact .worker found .fails
  · cases moved
    exact .worker found .looks
  · cases moved
    exact .worker found .cancels
  · split at moved
    · next cancelled =>
      cases moved
      exact .worker found (.wakes cancelled)
    · cases moved
  · cases moved

private theorem change_of_workerTurn {worker : Worker Q R}
    (found : pool.workers[index]? = some worker)
    (moved : pool.workerTurn plan index worker = .moves event next) :
    Change plan pool event next := by
  cases worker with
  | idle skipping =>
      simp only [workerTurn] at moved
      split at moved
      · cases moved
      · next free =>
        cases moved
        exact .worker found (.listens (by simpa using free))
  | listening skipping => exact change_of_takeJob found moved
  | holding job =>
      simp only [workerTurn] at moved
      split at moved
      · next cancelled =>
        cases moved
        exact .worker found (.notices cancelled)
      · next running =>
        cases moved
        exact .worker found (.goesOn (by simpa using running))
  | weighing job =>
      simp only [workerTurn] at moved
      split at moved
      · next failed =>
        cases moved
        exact .worker found (.skips failed)
      · next unset =>
        cases moved
        exact .worker found (.starts (by simpa using unset))
  | running job task => exact change_of_taskTurn found moved
  | ended => cases moved

theorem change_of_turn {actor : Actor} (moved : pool.turn plan actor = .moves event next) :
    Change plan pool event next := by
  cases actor with
  | generator => exact change_of_generatorTurn moved
  | coordinator => exact change_of_coordinatorTurn moved
  | worker index =>
      simp only [turn] at moved
      split at moved
      · next found => exact change_of_workerTurn found moved
      · cases moved

private theorem effect_of_taskTurn {job : Job} {task : Task Q R (Except Error Unit)}
    {worker : Nat} {request : Q} {resume : R request → Pool Q R}
    (asks : pool.taskTurn index job task = .asks worker request resume) :
    ∃ replies, worker = index ∧ task = .ask (.effect request) replies ∧
      resume = fun reply => pool.setWorker index (.running job (replies reply)) := by
  unfold taskTurn at asks
  split at asks
  · cases asks
  · cases asks
  · cases asks
  · cases asks
  · split at asks <;> cases asks
  · cases asks
    exact ⟨_, rfl, rfl, rfl⟩

private theorem running_of_workerTurn {held : Worker Q R} {worker : Nat} {request : Q}
    {resume : R request → Pool Q R}
    (asks : pool.workerTurn plan index held = .asks worker request resume) :
    ∃ job replies, worker = index ∧ held = .running job (.ask (.effect request) replies) ∧
      resume = fun reply => pool.setWorker index (.running job (replies reply)) := by
  cases held with
  | running job task =>
      obtain ⟨replies, same, rfl, resumes⟩ := effect_of_taskTurn asks
      exact ⟨job, replies, same, rfl, resumes⟩
  | idle skipping =>
      simp only [workerTurn] at asks
      split at asks <;> cases asks
  | listening skipping =>
      simp only [workerTurn, takeJob] at asks
      repeat' split at asks
      all_goals cases asks
  | holding job =>
      simp only [workerTurn] at asks
      split at asks <;> cases asks
  | weighing job =>
      simp only [workerTurn] at asks
      split at asks <;> cases asks
  | ended => cases asks

/-- Only the operation of a worker asks the surroundings, and it goes on where it was. -/
theorem running_of_asks {actor : Actor} {worker : Nat} {request : Q}
    {resume : R request → Pool Q R} (asks : pool.turn plan actor = .asks worker request resume) :
    ∃ job replies, pool.workers[worker]? = some (.running job (.ask (.effect request) replies)) ∧
      resume = fun reply => pool.setWorker worker (.running job (replies reply)) := by
  cases actor with
  | generator =>
      simp only [turn, generatorTurn] at asks
      split at asks <;> cases asks
  | coordinator =>
      simp only [turn, coordinatorTurn, moveCoordinator, moveReceiver] at asks
      repeat' split at asks
      all_goals cases asks
  | worker index =>
      simp only [turn] at asks
      split at asks
      · next found =>
        obtain ⟨job, replies, rfl, rfl, resumes⟩ := running_of_workerTurn asks
        exact ⟨job, replies, found, resumes⟩
      · cases asks

/-- Every step of a run is one of the cases. -/
theorem change_of_step {S : Type} {answers : (request : Q) → S → R request → S → Prop}
    {state after : S} (step : Step plan answers (pool, state) event (next, after)) :
    Change plan pool event next := by
  cases step with
  | move actor event moved => exact change_of_turn moved
  | effect actor worker request resume reply asks answer =>
      obtain ⟨job, replies, found, rfl⟩ := running_of_asks asks
      exact .worker found (.learns reply)
  | cancel running => exact .cancel running

end TilePyramid.Pool
