import TilePyramid.Program
import TilePyramid.Stream

/-!
# Worker pools

A coordinator takes items from a stream, crosses them with the target maps and hands out the jobs
one by one through a queue that holds a single job. Workers take turns in listening to the queue, and
run the operation on the jobs they take. The first failure is latched; from then on the coordinator
hands out no more jobs and workers discard what they take. Whatever ends the run, the coordinator
stops the stream, takes what it still offers and waits for all workers before it returns.

The tasks are the generator, the coordinator and the workers. `turn` is one step of one of them;
every order of their steps is possible, and so is a cancellation between any two steps.
-/

set_option autoImplicit false

namespace TilePyramid

/-- Why a coordinator stopped handing out jobs. -/
inductive FeedEnd where
  | exhausted
  | failed
  | canceled
deriving DecidableEq

inductive Coordinator where
  /-- It is about to take an item. -/
  | receiving
  /-- It is about to hand out jobs, and looks at the latch before each. -/
  | crossing (pending : List Job)
  /-- It waits for the queue to be free. -/
  | offering (job : Job) (pending : List Job)
  /-- It closes the queue and the stream. -/
  | closing (reason : FeedEnd)
  /-- It takes what the stream still offers. -/
  | draining (reason : FeedEnd)
  /-- It waits for the workers. -/
  | joining (reason : FeedEnd)
  | returned (result : Except Error Unit)

/-- The coordinator may still hand out jobs. -/
def Coordinator.isFeeding : Coordinator → Bool
  | .receiving | .crossing _ | .offering _ _ | .closing _ => true
  | .draining _ | .joining _ | .returned _ => false

variable {Q : Type} {R : Q → Type}

/-- Where a worker is. A skipping worker discards all jobs that it takes. -/
inductive Worker (Q : Type) (R : Q → Type) where
  /-- It wants to listen to the queue. -/
  | idle (skipping : Bool)
  /-- It alone listens to the queue, until it has taken a job. -/
  | listening (skipping : Bool)
  /-- It has a job and is about to see whether the run is cancelled. -/
  | holding (job : Job)
  /-- It has a job and is about to look at the latch. -/
  | weighing (job : Job)
  | running (job : Job) (task : Task Q R (Except Error Unit))
  | ended

def Worker.hasEnded : Worker Q R → Bool
  | .ended => true
  | _ => false

def Worker.isListening : Worker Q R → Bool
  | .listening _ => true
  | _ => false

structure Plan (Q : Type) (R : Q → Type) where
  targets : List String
  operation : Job → Task Q R (Except Error Unit)

structure Pool (Q : Type) (R : Q → Type) where
  stream : Stream
  coordinator : Coordinator := .receiving
  queue : Option Job := none
  latch : Latch := .empty
  workers : List (Worker Q R)
  cancelled : Bool := false

namespace Pool

inductive Event where
  | generated (exchange : Generator.Exchange)
  | received (item : Item)
  | dispatched (job : Job)
  | discarded (item : Item)
  | stopped (reason : FeedEnd)
  | returned (result : Except Error Unit)
  | taken (worker : Nat) (job : Job)
  /-- A skipping worker took a job and discarded it. -/
  | dropped (worker : Nat) (job : Job)
  /-- A worker found the run cancelled and stored that in the latch. -/
  | noticed (worker : Nat) (job : Job)
  | started (worker : Nat) (job : Job)
  /-- A worker discarded the job it had taken, and all further ones. -/
  | skipped (worker : Nat) (job : Job)
  | finished (worker : Nat) (job : Job) (result : Except Error Unit)
  | silent

inductive Actor where
  | generator
  | coordinator
  | worker (index : Nat)
deriving DecidableEq

inductive Turn (Q : Type) (R : Q → Type) where
  /-- The task has ended or waits. -/
  | waits
  | moves (event : Event) (pool : Pool Q R)
  /-- The operation of a worker asks its surroundings, and goes on with the reply. -/
  | asks (worker : Nat) (request : Q) (resume : R request → Pool Q R)

/-- A run at its start, with at least one worker. -/
def start (generator : Generator) (concurrency : Nat) (cancelled : Bool) : Pool Q R where
  stream := { generator }
  workers := List.replicate (max 1 concurrency) (.idle false)
  cancelled := cancelled

/-- The jobs that are handed out can no longer be joined by others. -/
def queueClosed (pool : Pool Q R) : Bool := !pool.coordinator.isFeeding

def hasListener (pool : Pool Q R) : Bool := pool.workers.any Worker.isListening

/-- The result of a run whose tasks have all ended: an error of the stream goes before an error of a
job, and both before a cancellation that only the coordinator met. -/
def result (pool : Pool Q R) (reason : FeedEnd) : Except Error Unit :=
  match pool.stream.channel.latch.held, pool.latch.held, reason with
  | some error, _, _ => .error error
  | none, some error, _ => .error error
  | none, none, .canceled => .error .canceled
  | none, none, _ => .ok ()

def generatorTurn (pool : Pool Q R) : Turn Q R :=
  match pool.stream.turn pool.cancelled with
  | some (exchange, stream) => .moves (.generated exchange) { pool with stream }
  | none => .waits

/-- The pool with the coordinator elsewhere. -/
def moveCoordinator (pool : Pool Q R) (event : Event) (coordinator : Coordinator) : Turn Q R :=
  .moves event { pool with coordinator }

/-- The pool after the coordinator took an item. -/
def moveReceiver (pool : Pool Q R) (event : Event) (channel : Channel)
    (coordinator : Coordinator) : Turn Q R :=
  .moves event { pool with stream := { pool.stream with channel }, coordinator }

/-- A step of the coordinator. A cancellation is seen before an item or a free queue. -/
def coordinatorTurn (plan : Plan Q R) (pool : Pool Q R) : Turn Q R :=
  match pool.coordinator with
  | .receiving =>
      if pool.cancelled then pool.moveCoordinator (.stopped .canceled) (.closing .canceled)
      else
        match pool.stream.channel.take? with
        | some (item, channel) =>
            pool.moveReceiver (.received item) channel (.crossing (item.jobs plan.targets))
        | none =>
            if pool.stream.hasEnded then
              pool.moveCoordinator (.stopped .exhausted) (.closing .exhausted)
            else .waits
  | .crossing [] => pool.moveCoordinator .silent .receiving
  | .crossing (job :: pending) =>
      if pool.latch.isSet then pool.moveCoordinator (.stopped .failed) (.closing .failed)
      else pool.moveCoordinator .silent (.offering job pending)
  | .offering job pending =>
      if pool.cancelled then pool.moveCoordinator (.stopped .canceled) (.closing .canceled)
      else
        match pool.queue with
        | none =>
            .moves (.dispatched job)
              { pool with queue := some job, coordinator := .crossing pending }
        | some _ => .waits
  | .closing reason =>
      let channel :=
        if reason = .exhausted then pool.stream.channel else pool.stream.channel.stop
      pool.moveReceiver .silent channel (.draining reason)
  | .draining reason =>
      match pool.stream.channel.take? with
      | some (item, channel) => pool.moveReceiver (.discarded item) channel (.draining reason)
      | none =>
          if pool.stream.hasEnded then pool.moveCoordinator .silent (.joining reason) else .waits
  | .joining reason =>
      if pool.workers.all Worker.hasEnded then
        pool.moveCoordinator (.returned (pool.result reason)) (.returned (pool.result reason))
      else .waits
  | .returned _ => .waits

def setWorker (pool : Pool Q R) (index : Nat) (worker : Worker Q R) : Pool Q R :=
  { pool with workers := pool.workers.set index worker }

def storeError (pool : Pool Q R) (error : Error) : Pool Q R :=
  { pool with latch := pool.latch.store error }

/-- A step of a worker whose operation has come to a result or asks. -/
def taskTurn (pool : Pool Q R) (index : Nat) (job : Job) :
    Task Q R (Except Error Unit) → Turn Q R
  | .done (.ok ()) => .moves (.finished index job (.ok ())) (pool.setWorker index (.idle false))
  | .done (.error error) =>
      .moves (.finished index job (.error error))
        ((pool.storeError error).setWorker index (.idle true))
  | .ask .isCancelled next =>
      .moves .silent (pool.setWorker index (.running job (next pool.cancelled)))
  | .ask .cancel next =>
      .moves .silent ({ pool with cancelled := true }.setWorker index (.running job (next ())))
  | .ask .untilCancelled next =>
      if pool.cancelled then .moves .silent (pool.setWorker index (.running job (next ())))
      else .waits
  | .ask (.effect request) next =>
      .asks index request fun reply => pool.setWorker index (.running job (next reply))

/-- The listening worker takes the job in the queue, or ends once no more come. -/
def takeJob (pool : Pool Q R) (index : Nat) (skipping : Bool) : Turn Q R :=
  match pool.queue with
  | some job =>
      if skipping then
        .moves (.dropped index job) ({ pool with queue := none }.setWorker index (.idle true))
      else .moves (.taken index job) ({ pool with queue := none }.setWorker index (.holding job))
  | none => if pool.queueClosed then .moves .silent (pool.setWorker index .ended) else .waits

def workerTurn (plan : Plan Q R) (pool : Pool Q R) (index : Nat) : Worker Q R → Turn Q R
  | .idle skipping =>
      if pool.hasListener then .waits
      else .moves .silent (pool.setWorker index (.listening skipping))
  | .listening skipping => pool.takeJob index skipping
  | .holding job =>
      if pool.cancelled then
        .moves (.noticed index job) ((pool.storeError .canceled).setWorker index (.weighing job))
      else .moves .silent (pool.setWorker index (.weighing job))
  | .weighing job =>
      if pool.latch.isSet then .moves (.skipped index job) (pool.setWorker index (.idle true))
      else
        .moves (.started index job) (pool.setWorker index (.running job (plan.operation job)))
  | .running job task => pool.taskTurn index job task
  | .ended => .waits

def turn (plan : Plan Q R) (pool : Pool Q R) : Actor → Turn Q R
  | .generator => pool.generatorTurn
  | .coordinator => pool.coordinatorTurn plan
  | .worker index =>
      match pool.workers[index]? with
      | some worker => pool.workerTurn plan index worker
      | none => .waits

/-- One step of a run in which the surroundings, in state `S`, reply as `answers` says. -/
inductive Step {S : Type} (plan : Plan Q R)
    (answers : (request : Q) → S → R request → S → Prop) :
    Pool Q R × S → Event → Pool Q R × S → Prop where
  | move {pool next : Pool Q R} {state : S} (actor : Actor) (event : Event)
      (turn : pool.turn plan actor = .moves event next) :
      Step plan answers (pool, state) event (next, state)
  | effect {pool : Pool Q R} {state after : S} (actor : Actor) (worker : Nat) (request : Q)
      (resume : R request → Pool Q R) (reply : R request)
      (turn : pool.turn plan actor = .asks worker request resume)
      (answer : answers request state reply after) :
      Step plan answers (pool, state) .silent (resume reply, after)
  | cancel {pool : Pool Q R} {state : S} (running : pool.cancelled = false) :
      Step plan answers (pool, state) .silent ({ pool with cancelled := true }, state)

end Pool

end TilePyramid
