import TilePyramid.Error

/-!
# Cancellations among the causes of an error

The chain of a report names its contexts, its error and the causes of that error. A report is asked
link by link whether it tells of a cancellation, but a cause is held by the error before it and is
not asked. So a cancellation is recognised within any contexts, and not as the cause of another
error.
Main statement: `cancellation_is_recognised_iff_bare`.
-/

set_option autoImplicit false

namespace TilePyramid

namespace Error

/-- The error told as the failure of work on tiles, each around the one before. -/
def wrapped (error : Error) (layers : List (Activity × Tile)) : Error :=
  layers.foldl (fun cause layer => .tileFailed layer.1 layer.2 cause) error

/-- The error that all others were told for. -/
def root : Error → Error
  | .tileFailed _ _ cause => cause.root
  | error => error

variable {error : Error} {layers : List (Activity × Tile)}

theorem root_wrapped : (error.wrapped layers).root = error.root := by
  induction layers generalizing error with
  | nil => rfl
  | cons layer layers ih => exact ih

theorem wrapped_eq_canceled_iff :
    error.wrapped layers = .canceled ↔ layers = [] ∧ error = .canceled := by
  induction layers generalizing error with
  | nil => simp [wrapped]
  | cons layer layers ih =>
      have inner := @ih (.tileFailed layer.1 layer.2 error)
      simpa [wrapped] using inner

/-- A cancellation has no cause, so it can only be the last one. -/
theorem canceled_mem_causes_iff : .canceled ∈ error :: error.causes ↔ error.root = .canceled := by
  induction error with
  | tileFailed activity tile cause ih =>
      rw [List.mem_cons, causes, root]
      exact ⟨fun member => ih.mp (member.resolve_left nofun), fun last => .inr (ih.mpr last)⟩
  | _ => simp [causes, root]

end Error

namespace Report

/-- A link of the chain of a report. -/
inductive Link where
  | context (text : String)
  | message (text : String)
  | bare (cause : Error)
  | held (cause : Error)
deriving DecidableEq

namespace Link

def text : Link → String
  | .context text => text
  | .message text => text
  | .bare cause => cause.message
  | .held cause => cause.message

def error? : Link → Option Error
  | .context _ => none
  | .message _ => none
  | .bare cause => some cause
  | .held cause => some cause

/-- What a link answers when it is asked for a cancellation: a cause is not seen as an error. -/
def isCanceled : Link → Bool
  | .bare cause => cause.isCanceled
  | .context _ | .message _ | .held _ => false

end Link

def links : Report → List Link
  | .error cause => .bare cause :: cause.causes.map .held
  | .message text => [.message text]
  | .within context inner => .context context :: inner.links

/-- The errors of the chain, whatever they answer. -/
def errors (report : Report) : List Error := report.links.filterMap Link.error?

theorem chain_eq_map_text (report : Report) : report.chain = report.links.map Link.text := by
  induction report with
  | error cause =>
      have texts : cause.causes.map Error.message = (cause.causes.map Link.held).map Link.text := by
        rw [List.map_map]
        rfl
      rw [chain, links, List.map_cons, texts]
      rfl
  | message text => rfl
  | within context inner ih => rw [chain, links, List.map_cons, ih]; rfl

theorem isCanceled_eq_any (report : Report) :
    report.isCanceled = report.links.any Link.isCanceled := by
  induction report with
  | error cause =>
      have unseen : (cause.causes.map Link.held).any Link.isCanceled = false := by
        simp [Link.isCanceled]
      rw [links, List.any_cons, unseen, Bool.or_false]
      rfl
  | message text => rfl
  | within context inner ih => rw [isCanceled, links, List.any_cons, ih]; rfl

theorem errors_error (cause : Error) : (Report.error cause).errors = cause :: cause.causes := by
  have shown : (cause.causes.map Link.held).filterMap Link.error? = cause.causes := by
    rw [List.filterMap_map]
    exact List.filterMap_some
  exact congrArg (cause :: ·) shown

@[simp] theorem errors_withinAll (report : Report) (contexts : List String) :
    (report.withinAll contexts).errors = report.errors := by
  induction contexts generalizing report with
  | nil => rfl
  | cons context contexts ih => exact ih (.within context report)

/-- Neither tiles nor contexts around an error take a cancellation out of the chain of its report.
The report is recognised as a cancellation exactly if it is one within contexts alone, and this
agrees with its chain unless a cancellation is among the causes. -/
theorem cancellation_is_recognised_iff_bare (error : Error) (layers : List (Activity × Tile))
    (contexts : List String) :
    let report := (Report.error (error.wrapped layers)).withinAll contexts
    report.chain = report.links.map Link.text ∧
    report.isCanceled = report.links.any Link.isCanceled ∧
    (.canceled ∈ report.errors ↔ error.root = .canceled) ∧
    (report.isCanceled = true ↔ layers = [] ∧ error = .canceled) ∧
    ((report.isCanceled = true ↔ .canceled ∈ report.errors) ↔
      .canceled ∉ (error.wrapped layers).causes) := by
  intro report
  have carried : report.errors = error.wrapped layers :: (error.wrapped layers).causes := by
    rw [errors_withinAll, errors_error]
  have recognised : report.isCanceled = true ↔ error.wrapped layers = .canceled := by
    rw [isCanceled_withinAll]
    exact Error.isCanceled_iff
  refine ⟨chain_eq_map_text report, isCanceled_eq_any report, ?_, ?_, ?_⟩
  · rw [carried, Error.canceled_mem_causes_iff, Error.root_wrapped]
  · exact recognised.trans Error.wrapped_eq_canceled_iff
  · rw [recognised, carried, List.mem_cons]
    constructor
    · intro agrees member
      have bare : error.wrapped layers = .canceled := agrees.mpr (.inr member)
      rw [bare] at member
      cases member
    · intro absent
      exact ⟨fun bare => .inl bare.symm, fun member => (member.resolve_right absent).symm⟩

/-- Work on a tile that was cancelled, told with a context: the chain ends with the cancellation. -/
theorem cancellation_of_tile_is_not_recognised :
    let report := (Report.error (.tileFailed .seed ⟨3, 1, 2⟩ .canceled)).withinAll ["fetching tile"]
    ¬ (report.isCanceled = true ↔ .canceled ∈ report.errors) := by
  intro report agrees
  exact absurd (agrees.mpr (by decide)) (by decide)

end Report

end TilePyramid
