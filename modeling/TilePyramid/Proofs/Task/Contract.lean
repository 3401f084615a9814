import TilePyramid.Program

/-!
# Tasks that keep a contract

Tasks that share their surroundings may change them between any two steps of each other. A contract
says which changes are allowed; a task that keeps it makes no other ones, and its result is as
promised if the other tasks make no other ones either. Main statement: `Keeps.bind`.
-/

set_option autoImplicit false

namespace TilePyramid

/-- How surroundings reply, and which changes of them are allowed. -/
structure Contract (Q : Type) (R : Q → Type) (S : Type) where
  answers : (request : Q) → S → R request → S → Prop
  allows : S → S → Prop
  refl : ∀ state, allows state state
  trans : ∀ {first second third}, allows first second → allows second third → allows first third

namespace Task

variable {Q : Type} {R : Q → Type} {S α β : Type}

/-- From a state of the surroundings, a task changes them only as allowed, and its result meets a
promise then and ever after, whatever allowed changes others make meanwhile. -/
inductive Keeps (contract : Contract Q R S) (promise : α → S → Prop) : Task Q R α → S → Prop where
  | done {result : α} {state : S}
      (kept : ∀ {later}, contract.allows state later → promise result later) :
      Keeps contract promise (.done result) state
  | isCancelled {next : Bool → Task Q R α} {state : S}
      (goesOn : ∀ cancelled, Keeps contract promise (next cancelled) state) :
      Keeps contract promise (.ask .isCancelled next) state
  | cancel {next : Unit → Task Q R α} {state : S}
      (goesOn : Keeps contract promise (next ()) state) :
      Keeps contract promise (.ask .cancel next) state
  | untilCancelled {next : Unit → Task Q R α} {state : S}
      (goesOn : Keeps contract promise (next ()) state) :
      Keeps contract promise (.ask .untilCancelled next) state
  | effect {request : Q} {next : R request → Task Q R α} {state : S}
      (allowed : ∀ {before reply after}, contract.allows state before →
        contract.answers request before reply after → contract.allows before after)
      (goesOn : ∀ {before reply after}, contract.allows state before →
        contract.answers request before reply after → Keeps contract promise (next reply) after) :
      Keeps contract promise (.ask (.effect request) next) state

namespace Keeps

variable {contract : Contract Q R S} {promise : α → S → Prop} {task : Task Q R α} {state after : S}

/-- A task still keeps its contract after others have made an allowed change. -/
theorem later (keeps : Keeps contract promise task state) (change : contract.allows state after) :
    Keeps contract promise task after := by
  induction keeps with
  | done kept => exact .done fun further => kept (contract.trans change further)
  | isCancelled _ ih => exact .isCancelled fun cancelled => ih cancelled change
  | cancel _ ih => exact .cancel (ih change)
  | untilCancelled _ ih => exact .untilCancelled (ih change)
  | effect allowed goesOn =>
      exact .effect (fun further => allowed (contract.trans change further))
        fun further => goesOn (contract.trans change further)

theorem weaken {further : α → S → Prop} (keeps : Keeps contract promise task state)
    (weaker : ∀ {result later}, promise result later → further result later) :
    Keeps contract further task state := by
  induction keeps with
  | done kept => exact .done fun change => weaker (kept change)
  | isCancelled _ ih => exact .isCancelled ih
  | cancel _ ih => exact .cancel ih
  | untilCancelled _ ih => exact .untilCancelled ih
  | effect allowed _ ih => exact .effect allowed ih

/-- A task that goes on with the result of another keeps the contract if each of them does. -/
theorem bind {intermediate : α → S → Prop} {promise : β → S → Prop} {next : α → Task Q R β}
    (part : Keeps contract intermediate task state)
    (rest : ∀ {result later}, contract.allows state later → intermediate result later →
      Keeps contract promise (next result) later) :
    Keeps contract promise (Program.bind task next) state := by
  induction part with
  | @done result state kept =>
      have unchanged := contract.refl state
      exact rest unchanged (kept unchanged)
  | isCancelled _ ih => exact .isCancelled fun cancelled => ih cancelled rest
  | cancel _ ih => exact .cancel (ih rest)
  | untilCancelled _ ih => exact .untilCancelled (ih rest)
  | effect allowed _ ih =>
      refine .effect allowed fun change answer => ih change answer fun further => ?_
      exact rest (contract.trans change (contract.trans (allowed change answer) further))

/-- A single request keeps the contract if all its replies do. -/
theorem perform {request : Q} {promise : R request → S → Prop}
    (allowed : ∀ {before reply after}, contract.allows state before →
      contract.answers request before reply after → contract.allows before after)
    (kept : ∀ {before reply after later}, contract.allows state before →
      contract.answers request before reply after → contract.allows after later →
      promise reply later) :
    Keeps contract promise (Task.perform request) state :=
  .effect allowed fun change answer => .done fun further => kept change answer further

/-- A task may do something else before it goes on. -/
theorem doIf {condition : Prop} [Decidable condition] {part : Task Q R Unit} {rest : Unit → Task Q R α}
    (other : Keeps contract (fun _ _ => True) part state)
    (goesOn : ∀ {later}, contract.allows state later → Keeps contract promise (rest ()) later) :
    Keeps contract promise (if condition then Program.bind part rest else rest ()) state := by
  by_cases holds : condition
  · rw [if_pos holds]
    exact other.bind fun change _ => goesOn change
  · rw [if_neg holds]
    exact goesOn (contract.refl state)

end Keeps

end Task

end TilePyramid
