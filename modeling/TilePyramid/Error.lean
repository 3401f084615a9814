import TilePyramid.Tile

/-!
# Errors, latches and reports

Every failure that a run can report, the latch that keeps the first of them, and what collaborators
tell of a failure.
-/

set_option autoImplicit false

/-!
## Errors of a run

Every failure that a run can report. An error is a value: it can be kept and handed out to several
readers.
-/

namespace TilePyramid

inductive Activity where
  | seed
  | purge
deriving DecidableEq

def Activity.text : Activity → String
  | .seed => "seed"
  | .purge => "purge"

def Activity.progressive : Activity → String
  | .seed => "seeding"
  | .purge => "purging"

/-- Why a run fails. -/
inductive Error where
  | invalidBounds (detail : String)
  | invalidZoomRange (low high : Nat)
  | invalidTileName (detail : String)
  | invalidNameFormat (detail : String)
  | badListLine (line : Nat) (reason : String)
  | unknownMap (name : String)
  | noMaps
  | missingCache
  | cacheFailure (detail : String)
  | renderFailure (detail : String)
  | tileFailed (activity : Activity) (tile : Tile) (cause : Error)
  | canceled
deriving DecidableEq

namespace Error

def message : Error → String
  | .invalidBounds detail => s!"invalid bounds ({detail})"
  | .invalidZoomRange low high =>
      s!"invalid zoom range ({low}..={high}): " ++
        s!"min must not exceed max and max must not exceed {maxZoom}"
  | .invalidTileName detail => s!"invalid tile name ({detail})"
  | .invalidNameFormat detail => s!"invalid tile name format ({detail})"
  | .badListLine line reason => s!"failed to parse tile list line [{line}]: {reason}"
  | .unknownMap name => s!"map ({name}) not found"
  | .noMaps => "expected at least one map to be defined, check your config"
  | .missingCache => "no cache backend is configured"
  | .cacheFailure detail => s!"cache failure: {detail}"
  | .renderFailure detail => s!"render failure: {detail}"
  | .tileFailed activity tile cause =>
      s!"error {activity.progressive} tile ({tile.text}): {cause.message}"
  | .canceled => "operation canceled"

/-- The errors that led to an error, the nearest first. -/
def causes : Error → List Error
  | .tileFailed _ _ cause => cause :: cause.causes
  | _ => []

/-- The error reports a cancellation and nothing else. -/
def isCanceled : Error → Bool
  | .canceled => true
  | _ => false

@[simp] theorem isCanceled_iff {error : Error} : error.isCanceled = true ↔ error = .canceled := by
  cases error <;> simp [isCanceled]

end Error

/-!
## Latches

A latch keeps the first error stored into it; later ones are ignored.
-/

/-- The first error of those stored, if any. -/
structure Latch where
  held : Option Error := none
deriving DecidableEq

namespace Latch

def empty : Latch := {}

def isSet (latch : Latch) : Bool := latch.held.isSome

/-- Stores an error unless one is held. -/
def store (latch : Latch) (error : Error) : Latch :=
  match latch.held with
  | some _ => latch
  | none => ⟨some error⟩

/-- An error that is held stays. -/
theorem store_of_isSet {latch : Latch} (set : latch.isSet = true) (error : Error) :
    latch.store error = latch := by
  obtain ⟨held⟩ := latch
  cases held with
  | none => simp [isSet] at set
  | some _ => rfl

theorem held_store (latch : Latch) (error : Error) :
    (latch.store error).held = latch.held.or (some error) := by
  obtain ⟨held⟩ := latch
  cases held <;> rfl

/-- What a latch holds after an error was stored was held before or is that error. -/
theorem held_or_eq_of_store {latch : Latch} {stored error : Error}
    (held : (latch.store stored).held = some error) : latch.held = some error ∨ error = stored := by
  obtain ⟨_ | old⟩ := latch
  · exact .inr (Option.some.inj held).symm
  · exact .inl held

@[simp] theorem isSet_store (latch : Latch) (error : Error) : (latch.store error).isSet = true := by
  obtain ⟨held⟩ := latch
  cases held <;> rfl

end Latch

/-!
## Reports

A report is what a collaborator tells of a failure: an error of the run or a message, within any
number of contexts that say what was attempted.
-/

/-- A failure within its contexts. -/
inductive Report where
  | error (cause : Error)
  | message (text : String)
  | within (context : String) (inner : Report)
deriving DecidableEq

namespace Report

/-- A report within contexts, the innermost first. -/
def withinAll (report : Report) (contexts : List String) : Report :=
  contexts.foldl (fun inner context => .within context inner) report

/-- The texts of a report, from the outermost context to the first cause. -/
def chain : Report → List String
  | .error cause => cause.message :: cause.causes.map Error.message
  | .message text => [text]
  | .within context inner => context :: inner.chain

def text (report : Report) : String := String.intercalate ": " report.chain

/-- The failure that the contexts are about is a cancellation. An error about a tile stays an error
about the tile, whatever its cause. -/
def isCanceled : Report → Bool
  | .error cause => cause.isCanceled
  | .message _ => false
  | .within _ inner => inner.isCanceled

@[simp] theorem isCanceled_withinAll (report : Report) (contexts : List String) :
    (report.withinAll contexts).isCanceled = report.isCanceled := by
  induction contexts generalizing report with
  | nil => rfl
  | cons context contexts ih => exact ih (.within context report)

end Report

end TilePyramid
