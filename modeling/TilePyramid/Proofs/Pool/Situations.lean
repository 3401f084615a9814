import TilePyramid.Proofs.Pool.Ending

/-!
# Runs together with their surroundings

A step of a task leaves the surroundings as they are, and no operation that waits for a reply goes on
by it; only a reply of the surroundings makes one go on. Main statement: `Runs.induct_within`.
-/

set_option autoImplicit false

namespace TilePyramid

variable {Q : Type} {R : Q → Type}

theorem Program.reply_ne_ask {α : Type} (request : Q) (next : R request → Program Q R α)
    (answer : R request) : next answer ≠ .ask request next := by
  intro same
  have continues := Continues.reply request next answer
  rw [same] at continues
  exact wellFounded_continues.irrefl.irrefl _ continues

/-- The operation of the worker waits for a reply of the surroundings. -/
def Worker.asks : Worker Q R → Bool
  | .running _ (.ask (.effect _) _) => true
  | _ => false

namespace Pool

variable {plan : Plan Q R} {pool next : Pool Q R} {event : Event}

/-- The operation of a worker waits for a reply, and goes on with it as `replies` says. -/
def Awaits (pool : Pool Q R) (index : Nat) (job : Job) (request : Q)
    (replies : R request → Task Q R (Except Error Unit)) : Prop :=
  pool.workers[index]? = some (.running job (.ask (.effect request) replies))

/-- Operations that wait for a reply still do. -/
structure StillAwaits (pool next : Pool Q R) : Prop where
  awaits : ∀ {index job request replies}, pool.Awaits index job request replies →
    next.Awaits index job request replies

theorem StillAwaits.of_set {index : Nat} {worker after : Worker Q R}
    (found : pool.workers[index]? = some worker)
    (quiet : worker.asks = false) (moved : next.workers = pool.workers.set index after) : StillAwaits pool next := by
  refine ⟨fun {other job request replies} awaits => ?_⟩
  have apart : index ≠ other := by
    rintro rfl
    cases Option.some.inj (found.symm.trans awaits)
    cases quiet
  simpa [Awaits, moved, apart] using awaits

theorem StillAwaits.of_turn {actor : Actor} (moved : pool.turn plan actor = .moves event next) :
    StillAwaits pool next := by
  cases actor with
  | generator =>
      simp only [turn, generatorTurn] at moved
      split at moved
      · cases moved
        exact ⟨id⟩
      · cases moved
  | coordinator =>
      simp only [turn, coordinatorTurn, moveCoordinator, moveReceiver] at moved
      repeat' split at moved
      all_goals cases moved
      all_goals exact ⟨id⟩
  | worker index =>
      simp only [turn] at moved
      split at moved
      · next worker found =>
        cases worker with
        | running job task =>
            cases task with
            | done result =>
                cases result with
                | ok done => cases moved; exact .of_set found rfl rfl
                | error error => cases moved; exact .of_set found rfl rfl
            | ask request replies =>
                cases request with
                | effect request => cases moved
                | isCancelled => cases moved; exact .of_set found rfl rfl
                | cancel => cases moved; exact .of_set found rfl rfl
                | untilCancelled =>
                    simp only [workerTurn, taskTurn] at moved
                    split at moved
                    · cases moved
                      exact .of_set found rfl rfl
                    · cases moved
        | _ =>
            simp only [workerTurn, takeJob] at moved
            repeat' split at moved
            all_goals cases moved
            all_goals exact .of_set found rfl rfl
      · cases moved

/-- A worker whose operation waits for a reply does not learn one by a step that leaves it waiting. -/
theorem StillAwaits.absurd_learns {index : Nat} {job : Job} {request : Q} {reply : R request}
    {replies : R request → Task Q R (Except Error Unit)} {motive : Prop}
    (still : StillAwaits pool next) (awaits : pool.Awaits index job request replies)
    (learned : next.workers = pool.workers.set index (.running job (replies reply))) : motive := by
  have kept := still.awaits awaits
  have inside := (List.getElem?_eq_some_iff.mp awaits).1
  simp only [Awaits, learned, List.getElem?_set_self inside, Option.some.injEq,
    Worker.running.injEq, true_and] at kept
  exact absurd kept (Program.reply_ne_ask (R := Task.Reply R) (.effect request) replies reply)

/-- What holds at first and is kept by every step holds at the end, as a fact about the history, the
pool and the surroundings. -/
theorem Runs.induct_within {S : Type} {answers : (request : Q) → S → R request → S → Prop}
    {first last : Pool Q R × S} {moments : List (Moment Q R)}
    (holds : List (Moment Q R) → Pool Q R → S → Prop)
    (run : Runs plan answers first moments last) (initially : holds [] first.1 first.2)
    (moved : ∀ {moments pool state event next}, Runs plan answers first moments (pool, state) →
      Change plan pool event next → StillAwaits pool next → holds moments pool state →
      holds (moments ++ [⟨pool, event⟩]) next state)
    (learned : ∀ {moments pool state after index job request replies} (reply : R request),
      Runs plan answers first moments (pool, state) → pool.Awaits index job request replies →
      answers request state reply after → holds moments pool state →
      holds (moments ++ [⟨pool, .silent⟩]) (pool.setWorker index (.running job (replies reply)))
        after) :
    holds moments last.1 last.2 := by
  induction run with
  | still => exact initially
  | step earlier step ih =>
      cases step with
      | move actor event turns =>
          exact moved earlier (change_of_turn turns) (.of_turn turns) ih
      | effect actor worker request resume reply asks answer =>
          obtain ⟨job, replies, awaits, rfl⟩ := running_of_asks asks
          exact learned reply earlier awaits answer ih
      | cancel running => exact moved earlier (.cancel running) ⟨id⟩ ih

end Pool

end TilePyramid
