/-!
# Programs that ask their surroundings

A program is a result, or a request together with the programs that go on from each reply. Nothing
is performed while a program is built, so what performs the requests decides their order against
those of other programs, and a program can be larger than could ever be listed.

A task is a program that is run as part of a run: besides what it asks of its surroundings, it can
ask about the token of the run, cancel it, or wait until it is cancelled.

Main statements: programs form a monad, and no program can be continued forever.
-/

set_option autoImplicit false

namespace TilePyramid

/-- A program with requests `Q`, replies `R` and results `α`. -/
inductive Program (Q : Type) (R : Q → Type) (α : Type) : Type where
  | done (result : α)
  | ask (request : Q) (next : R request → Program Q R α)

namespace Program

variable {Q : Type} {R : Q → Type} {α β γ : Type}

/-- The program that goes on with the result of another. -/
def bind : Program Q R α → (α → Program Q R β) → Program Q R β
  | .done result, next => next result
  | .ask request replies, next => .ask request fun reply => (replies reply).bind next

instance : Monad (Program Q R) where
  pure := .done
  bind := .bind

/-- Tells which requests take time: while one of them is performed, other programs go on. -/
class Lasting (Q : Type) where
  lasts : Q → Bool

/-- Performs a program: `answer` replies to each request. -/
def run {m : Type → Type} [Monad m] (answer : (request : Q) → m (R request)) :
    Program Q R α → m α
  | .done result => pure result
  | .ask request next => do (next (← answer request)).run answer

@[simp] theorem pure_eq_done (result : α) : (pure result : Program Q R α) = .done result := rfl

@[simp] theorem bind_eq (program : Program Q R α) (next : α → Program Q R β) :
    (program >>= next) = program.bind next := rfl

@[simp] theorem done_bind (result : α) (next : α → Program Q R β) :
    (Program.done result : Program Q R α).bind next = next result := rfl

@[simp] theorem ask_bind (request : Q) (replies : R request → Program Q R α)
    (next : α → Program Q R β) :
    (Program.ask request replies).bind next =
      .ask request fun reply => (replies reply).bind next := rfl

@[simp] theorem bind_done (program : Program Q R α) : program.bind .done = program := by
  induction program with
  | done result => rfl
  | ask request replies ih => simp [ih]

theorem bind_assoc (program : Program Q R α) (first : α → Program Q R β)
    (second : β → Program Q R γ) :
    (program.bind first).bind second = program.bind fun result => (first result).bind second := by
  induction program with
  | done result => rfl
  | ask request replies ih => simp [ih]

instance : LawfulMonad (Program Q R) :=
  LawfulMonad.mk' _ bind_done (fun _ _ => rfl) bind_assoc

/-- One program goes on from a reply to the request of another. -/
inductive Continues : Program Q R α → Program Q R α → Prop where
  | reply (request : Q) (next : R request → Program Q R α) (answer : R request) :
      Continues (next answer) (.ask request next)

/-- No program can be continued forever. -/
theorem wellFounded_continues : WellFounded (@Continues Q R α) := by
  refine ⟨fun program => ?_⟩
  induction program with
  | done result => exact ⟨_, fun _ continues => by cases continues⟩
  | ask request next ih => exact ⟨_, fun _ continues => by cases continues; exact ih _⟩

instance : WellFoundedRelation (Program Q R α) := ⟨Continues, wellFounded_continues⟩

end Program

/-! ## Tasks -/

namespace Task

inductive Request (Q : Type) where
  | isCancelled
  | cancel
  | untilCancelled
  | effect (request : Q)

@[reducible] def Reply {Q : Type} (R : Q → Type) : Request Q → Type
  | .isCancelled => Bool
  | .cancel => Unit
  | .untilCancelled => Unit
  | .effect request => R request

end Task

/-- A program that is run as part of a run. -/
abbrev Task (Q : Type) (R : Q → Type) (α : Type) := Program (Task.Request Q) (Task.Reply R) α

namespace Task

variable {Q : Type} {R : Q → Type} {α : Type}

def isCancelled : Task Q R Bool := .ask .isCancelled .done

def cancel : Task Q R Unit := .ask .cancel .done

def untilCancelled : Task Q R Unit := .ask .untilCancelled .done

def perform (request : Q) : Task Q R (R request) := .ask (.effect request) .done

/-- A program that does not ask about the run, as a task. -/
def ofProgram : Program Q R α → Task Q R α
  | .done result => .done result
  | .ask request next => .ask (.effect request) fun reply => ofProgram (next reply)

/-- Runs a single task, given whether the run is cancelled, and tells whether it is at the end.
A task that waits for a cancellation has no result. -/
def run {m : Type → Type} [Monad m] (answer : (request : Q) → m (R request)) (cancelled : Bool) :
    Task Q R α → m (Option α × Bool)
  | .done result => pure (some result, cancelled)
  | .ask .isCancelled next => run answer cancelled (next cancelled)
  | .ask .cancel next => run answer true (next ())
  | .ask .untilCancelled next =>
      if cancelled then run answer cancelled (next ()) else pure (none, cancelled)
  | .ask (.effect request) next => do
      let reply ← answer request
      run answer cancelled (next reply)

end Task

end TilePyramid
