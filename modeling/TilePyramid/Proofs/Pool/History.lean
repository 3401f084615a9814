import Mathlib.Data.List.Perm.Subperm
import TilePyramid.Proofs.Pool.Moves
import TilePyramid.Proofs.Stream.Moves

/-!
# Histories of runs

A history lists the steps of a run in their order, each with the pool just before it. What a run has
done is read off its history, and is tied to the state of the pool by two principles: an invariant
that every step keeps holds of all reachable pools, and what a place has gained is what it has lost
and what it still holds.
-/

set_option autoImplicit false

namespace TilePyramid.Pool

variable {Q : Type} {R : Q → Type}

/-- A step in a history, with the pool that it was made from. -/
structure Moment (Q : Type) (R : Q → Type) where
  pool : Pool Q R
  event : Event

/-- The runs from a situation, in surroundings that reply as `answers` says. -/
inductive Runs {S : Type} (plan : Plan Q R) (answers : (request : Q) → S → R request → S → Prop)
    (first : Pool Q R × S) : List (Moment Q R) → Pool Q R × S → Prop where
  | still : Runs plan answers first [] first
  | step {moments : List (Moment Q R)} {pool : Pool Q R} {state : S} {event : Event}
      {next : Pool Q R × S} (run : Runs plan answers first moments (pool, state))
      (step : Step plan answers (pool, state) event next) :
      Runs plan answers first (moments ++ [⟨pool, event⟩]) next

/-- What the events of a history contribute, in their order. -/
def tally {α : Type} (read : Event → List α) (moments : List (Moment Q R)) : List α :=
  moments.flatMap fun moment => read moment.event

section Tally

variable {α β : Type} (read : Event → List α)

@[simp] theorem tally_nil : tally read ([] : List (Moment Q R)) = [] := rfl

@[simp] theorem tally_append (earlier later : List (Moment Q R)) :
    tally read (earlier ++ later) = tally read earlier ++ tally read later :=
  List.flatMap_append

@[simp] theorem tally_singleton (moment : Moment Q R) :
    tally read [moment] = read moment.event := by
  simp [tally]

theorem mem_tally {moments : List (Moment Q R)} {value : α} :
    value ∈ tally read moments ↔ ∃ moment ∈ moments, value ∈ read moment.event :=
  List.mem_flatMap

theorem tally_sublist {read more : Event → List α}
    (each : ∀ event, (read event).Sublist (more event)) (moments : List (Moment Q R)) :
    (tally read moments).Sublist (tally more moments) := by
  induction moments with
  | nil => exact .slnil
  | cons moment rest ih => exact (each moment.event).append ih

theorem filterMap_tally (keep : α → Option β) (moments : List (Moment Q R)) :
    (tally read moments).filterMap keep =
      tally (fun event => (read event).filterMap keep) moments := by
  simp [tally, List.filterMap_flatMap]

end Tally

namespace Event

def sentItems : Event → List Item
  | .generated exchange => exchange.sent?.toList
  | _ => []

/-- The errors that the generator latched by itself. -/
def failures : Event → List Error
  | .generated exchange => exchange.failure?.toList
  | _ => []

def receivedItems : Event → List Item
  | .received item => [item]
  | _ => []

def discardedItems : Event → List Item
  | .discarded item => [item]
  | _ => []

def dispatchedJobs : Event → List Job
  | .dispatched job => [job]
  | _ => []

def stops : Event → List FeedEnd
  | .stopped reason => [reason]
  | _ => []

def takes : Event → List (Nat × Job)
  | .taken worker job | .dropped worker job => [(worker, job)]
  | _ => []

def starts : Event → List (Nat × Job)
  | .started worker job => [(worker, job)]
  | _ => []

/-- The jobs that workers took and left unrun. -/
def leaves : Event → List (Nat × Job)
  | .skipped worker job | .dropped worker job => [(worker, job)]
  | _ => []

def decisions (event : Event) : List (Nat × Job) := event.starts ++ event.leaves

def finishes : Event → List (Nat × Job)
  | .finished worker job _ => [(worker, job)]
  | _ => []

def successes : Event → List (Nat × Job)
  | .finished worker job (.ok ()) => [(worker, job)]
  | _ => []

def jobErrors : Event → List Error
  | .finished _ _ (.error error) => [error]
  | _ => []

/-- The errors that workers stored in the latch, or would have stored in an empty one. -/
def stored : Event → List Error
  | .finished _ _ (.error error) => [error]
  | .noticed _ _ => [.canceled]
  | _ => []

end Event

def ofWorker {α : Type} (worker : Nat) (entries : List (Nat × α)) : List α :=
  entries.filterMap fun entry => if entry.1 = worker then some entry.2 else none

@[simp] theorem ofWorker_nil {α : Type} (worker : Nat) : ofWorker worker ([] : List (Nat × α)) = [] :=
  rfl

@[simp] theorem ofWorker_append {α : Type} (worker : Nat) (left right : List (Nat × α)) :
    ofWorker worker (left ++ right) = ofWorker worker left ++ ofWorker worker right :=
  List.filterMap_append

@[simp] theorem ofWorker_singleton {α : Type} (worker index : Nat) (value : α) :
    ofWorker worker [(index, value)] = if index = worker then [value] else [] := by
  by_cases same : index = worker <;> simp [ofWorker, same]

theorem count_ofWorker {α : Type} [DecidableEq α] (worker : Nat) (value : α)
    (entries : List (Nat × α)) :
    (ofWorker worker entries).count value = entries.count (worker, value) := by
  induction entries with
  | nil => rfl
  | cons entry rest ih =>
      obtain ⟨index, other⟩ := entry
      by_cases mine : index = worker
      · by_cases same : other = value <;> simp [ofWorker, mine, same, ← ih]
      · simp [ofWorker, mine, ← ih]

/-- Lists in which every worker has the same are the same up to order. -/
theorem perm_of_ofWorker {α : Type} [DecidableEq α] {left right : List (Nat × α)}
    (same : ∀ worker, ofWorker worker left = ofWorker worker right) : left.Perm right := by
  rw [List.perm_iff_count]
  rintro ⟨worker, value⟩
  rw [← count_ofWorker, ← count_ofWorker, same worker]

theorem subperm_of_ofWorker {α : Type} [DecidableEq α] {left right : List (Nat × α)}
    (inside : ∀ worker, (ofWorker worker left).Sublist (ofWorker worker right)) :
    left.Subperm right := by
  rw [List.subperm_ext_iff]
  rintro ⟨worker, value⟩ _
  rw [← count_ofWorker, ← count_ofWorker]
  exact (inside worker).count_le value

section Runs

variable {S : Type} {plan : Plan Q R} {answers : (request : Q) → S → R request → S → Prop}
  {first last : Pool Q R × S} {moments : List (Moment Q R)}

namespace Runs

/-- What holds at first and is kept by every step holds at the end, as a fact about the history and
the pool. A step may use what is known of the run before it. -/
theorem induct_along (holds : List (Moment Q R) → Pool Q R → Prop)
    (run : Runs plan answers first moments last) (initially : holds [] first.1)
    (kept : ∀ {moments pool state event next}, Runs plan answers first moments (pool, state) →
      Change plan pool event next → holds moments pool → holds (moments ++ [⟨pool, event⟩]) next) :
    holds moments last.1 := by
  induction run with
  | still => exact initially
  | @step moments pool state event next earlier step ih =>
      obtain ⟨next, after⟩ := next
      exact kept earlier (change_of_step step) ih

theorem induct (holds : List (Moment Q R) → Pool Q R → Prop)
    (run : Runs plan answers first moments last) (initially : holds [] first.1)
    (kept : ∀ {moments pool event next}, Change plan pool event next → holds moments pool →
      holds (moments ++ [⟨pool, event⟩]) next) : holds moments last.1 :=
  run.induct_along holds initially fun _ => kept

theorem invariant (holds : Pool Q R → Prop) (run : Runs plan answers first moments last)
    (initially : holds first.1)
    (kept : ∀ {pool event next}, Change plan pool event next → holds pool → holds next) :
    holds last.1 :=
  run.induct (fun _ pool => holds pool) initially kept

/-- What a place held at first and has gained is what it has lost and still holds, in this order. -/
theorem conserved {α : Type} (held : Pool Q R → List α) (gains losses : Event → List α)
    (run : Runs plan answers first moments last)
    (each : ∀ {pool event next}, Change plan pool event next →
      held pool ++ gains event = losses event ++ held next) :
    held first.1 ++ tally gains moments = tally losses moments ++ held last.1 := by
  refine run.induct (fun moments pool =>
    held first.1 ++ tally gains moments = tally losses moments ++ held pool) (by simp) ?_
  intro moments pool event next change balanced
  calc held first.1 ++ tally gains (moments ++ [⟨pool, event⟩])
      = (held first.1 ++ tally gains moments) ++ gains event := by simp
    _ = tally losses moments ++ (held pool ++ gains event) := by rw [balanced, List.append_assoc]
    _ = tally losses (moments ++ [⟨pool, event⟩]) ++ held next := by rw [each change]; simp

theorem cons {pool : Pool Q R} {state : S} {event : Event} {next : Pool Q R × S}
    (step : Step plan answers (pool, state) event next)
    (run : Runs plan answers next moments last) :
    Runs plan answers (pool, state) (⟨pool, event⟩ :: moments) last := by
  induction run with
  | still => exact .step .still step
  | step earlier later ih => exact .step ih later

/-- The run up to a moment of its history, and the step made then. -/
theorem before {earlier later : List (Moment Q R)} {moment : Moment Q R}
    (run : Runs plan answers first (earlier ++ moment :: later) last) :
    ∃ state next, Runs plan answers first earlier (moment.pool, state) ∧
      Step plan answers (moment.pool, state) moment.event next := by
  generalize whole : earlier ++ moment :: later = moments at run
  -- Histories grow at their end: the moment is the last one or lies in the run before.
  induction run generalizing later with
  | still => simp at whole
  | @step moments pool state event next run step ih =>
      rcases List.eq_nil_or_concat later with rfl | ⟨others, final, rfl⟩
      · obtain ⟨rfl, same⟩ := List.append_inj' whole rfl
        cases same
        exact ⟨state, next, run, step⟩
      · rw [List.concat_eq_append, ← List.cons_append, ← List.append_assoc] at whole
        exact ih (List.append_inj' whole rfl).1

/-- A run is the run of the first part of its history, followed by that of the rest. -/
theorem split {earlier later : List (Moment Q R)}
    (run : Runs plan answers first (earlier ++ later) last) :
    ∃ between, Runs plan answers first earlier between ∧ Runs plan answers between later last := by
  generalize whole : earlier ++ later = moments at run
  induction run generalizing later with
  | still =>
      obtain ⟨rfl, rfl⟩ := List.append_eq_nil_iff.mp whole
      exact ⟨first, .still, .still⟩
  | @step moments pool state event next run step ih =>
      rcases List.eq_nil_or_concat later with rfl | ⟨others, final, rfl⟩
      · rw [List.append_nil] at whole
        subst whole
        exact ⟨next, .step run step, .still⟩
      · rw [List.concat_eq_append, ← List.append_assoc] at whole
        obtain ⟨same, made⟩ := List.append_inj' whole rfl
        cases made
        obtain ⟨between, former, latter⟩ := ih same
        rw [List.concat_eq_append]
        exact ⟨between, former, .step latter step⟩

/-- The first step of a history is made where the run starts. -/
theorem head_eq {moment : Moment Q R} {later : List (Moment Q R)}
    (run : Runs plan answers first (moment :: later) last) :
    moment.pool = first.1 ∧ ∃ next, Step plan answers first moment.event next ∧
      Runs plan answers next later last := by
  have whole : Runs plan answers first ([moment] ++ later) last := run
  obtain ⟨next, single, rest⟩ := whole.split
  rw [← List.nil_append [moment]] at single
  generalize same : [] ++ [moment] = moments at single
  cases single with
  | still => cases same
  | @step others pool state event _ earlier step =>
      obtain ⟨rfl, made⟩ := List.append_inj' same rfl
      cases made
      generalize none : [] = before at earlier
      cases earlier with
      | still => exact ⟨rfl, next, step, rest⟩
      | step run other => simp at none

/-- What an invariant says of a moment in a history. -/
theorem at_moment (holds : Pool Q R → Prop) (run : Runs plan answers first moments last)
    (initially : holds first.1)
    (kept : ∀ {pool event next}, Change plan pool event next → holds pool → holds next)
    {moment : Moment Q R} (member : moment ∈ moments) :
    holds moment.pool ∧ ∃ next, Change plan moment.pool moment.event next := by
  obtain ⟨earlier, later, rfl⟩ := List.append_of_mem member
  obtain ⟨state, ⟨next, after⟩, reached, step⟩ := run.before
  exact ⟨reached.invariant holds initially kept, next, change_of_step step⟩

/-- What every step keeps still holds at the end, once it held at a moment. -/
theorem persists (holds : Pool Q R → Prop) (run : Runs plan answers first moments last)
    (kept : ∀ {pool event next}, Change plan pool event next → holds pool → holds next)
    {moment : Moment Q R} (member : moment ∈ moments) (held : holds moment.pool) :
    holds last.1 := by
  refine run.induct (fun moments pool => ∀ moment ∈ moments, holds moment.pool → holds pool)
    (by simp) ?_ moment member held
  intro moments pool event next change earlier moment member held
  rcases List.mem_append.mp member with before | latest
  · exact kept change (earlier moment before held)
  · rw [List.mem_singleton.mp latest] at held
    exact kept change held

end Runs

end Runs

end TilePyramid.Pool
