import Mathlib.Data.List.Forall2
import Mathlib.Data.Prod.Lex
import TilePyramid.Command
import TilePyramid.Proofs.Text.Grammar

/-!
# Bounds given as text

A text gives bounds exactly if it has four fields that write numbers, and the four numbers compare
within the limits of their sides, so that infinities and what is no number are refused. Otherwise
the first of its faults is told: a field that writes no number, then the number of fields, then the
longitudes, then the latitudes.
Main statements: `check_cases`, `reading_cases` and `bounds_are_read_by_their_grammar`.
-/

set_option autoImplicit false

namespace TilePyramid

/-! ## Comparisons -/

open Float.Model in
private theorem unpacked_isFinite_of_between {low value high : UnpackedFloat}
    (lowFinite : low.isFinite = true) (highFinite : high.isFinite = true)
    (above : low.le value = true) (below : value.le high = true) : value.isFinite = true := by
  cases value with
  | finite | zero => rfl
  | notANumber => cases low <;> cases above
  | infinity sign =>
      cases sign with
      | positive => cases high <;> first | cases below | cases highFinite
      | negative => cases low <;> first | cases above | cases lowFinite

/-- What compares as between two finite numbers is a finite number. -/
theorem isFinite_of_between {low value high : Float} (lowFinite : low.isFinite = true)
    (highFinite : high.isFinite = true) (above : low ≤ value) (below : value ≤ high) :
    value.isFinite = true :=
  unpacked_isFinite_of_between lowFinite highFinite (of_decide_eq_true above)
    (of_decide_eq_true below)

namespace Bounds

/-! ## The grammar -/

inductive Side where
  | west
  | east
  | south
  | north
deriving DecidableEq

namespace Side

/-- The place of a side among the fields. -/
def index : Side → Nat
  | .west => 0
  | .south => 1
  | .east => 2
  | .north => 3

/-- The order in which the sides are checked. -/
def rank : Side → Nat
  | .west => 0
  | .east => 1
  | .south => 2
  | .north => 3

def limit : Side → Float
  | .west | .east => 180.0
  | .south | .north => 90.0

def fault : Side → Float → Fault
  | .west | .east => .longitude
  | .south | .north => .latitude

end Side

def on (bounds : Bounds) : Side → Float
  | .west => bounds.west
  | .east => bounds.east
  | .south => bounds.south
  | .north => bounds.north

/-- The field is a number with at most blanks around it. -/
def Writes (field : List Char) (value : Float) : Prop :=
  ∃ core, Text.Trimmed field core ∧ Decimal.read? core = some value

def Within (limit value : Float) : Prop := -limit ≤ value ∧ value ≤ limit

/-- The text has four fields, and the one of the side writes the value. -/
def Gives (text : List Char) (side : Side) (value : Float) : Prop :=
  ∃ fields field, Text.Divided ',' text fields ∧ fields.length = 4 ∧
    fields[side.index]? = some field ∧ Writes field value

structure IsTextOf (text : List Char) (bounds : Bounds) : Prop where
  given : ∀ side, Gives text side (bounds.on side)
  within : ∀ side : Side, Within side.limit (bounds.on side)

-- Faults are ordered by their place and not by what they tell: a west and an east out of range are
-- both told as a longitude.
/-- What of a text may be at fault. -/
inductive Place where
  | field (index : Nat)
  | count
  | side (which : Side)

/-- Of two faults, the one at the place of lower rank is told: the fields from the left, then their
number, then the sides in their order. -/
def Place.rank : Place → Nat ×ₗ Nat
  | .field index => toLex (0, index)
  | .count => toLex (1, 0)
  | .side which => toLex (2, which.rank)

/-- What is wrong with a text at a place, without regard to the other places. -/
inductive FaultAt (text : List Char) : Place → Fault → Prop where
  | notANumber {fields : List (List Char)} {index : Nat} {field core : List Char}
      (divided : Text.Divided ',' text fields) (place : fields[index]? = some field)
      (trimmed : Text.Trimmed field core) (unread : Decimal.read? core = none) :
      FaultAt text (.field index) (.notANumber core)
  | fieldCount {fields : List (List Char)} (divided : Text.Divided ',' text fields)
      (count : fields.length ≠ 4) : FaultAt text .count (.fieldCount fields.length)
  | outOfRange {side : Side} {value : Float} (given : Gives text side value)
      (beyond : ¬ Within side.limit value) : FaultAt text (.side side) (side.fault value)

/-- The text has this fault, and none at a place that is told before it. -/
def IsFirstFault (text : List Char) (fault : Fault) : Prop :=
  ∃ place, FaultAt text place fault ∧
    ∀ other later, FaultAt text other later → place.rank ≤ other.rank

variable {text field : List Char} {fields : List (List Char)} {bounds : Bounds} {side : Side}
  {place : Place} {fault : Fault} {value : Float}

/-! ## At most one reading -/

theorem writes_iff : Writes field value ↔ Decimal.read? (Text.trim field) = some value := by
  constructor
  · intro writes
    obtain ⟨core, trimmed, read⟩ := writes
    rw [Text.trim_eq_iff.mpr trimmed, read]
  · intro read
    exact ⟨Text.trim field, Text.trimmed_trim field, read⟩

theorem not_writes_of_unread {core : List Char} (trimmed : Text.Trimmed field core)
    (unread : Decimal.read? core = none) : ¬ Writes field value := by
  intro writes
  obtain ⟨other, again, read⟩ := writes
  obtain rfl := trimmed.unique again
  cases unread.symm.trans read

theorem Writes.unique {other : Float} (one : Writes field value) (same : Writes field other) :
    value = other :=
  Option.some.inj ((writes_iff.mp one).symm.trans (writes_iff.mp same))

theorem Gives.unique {other : Float} (one : Gives text side value) (same : Gives text side other) :
    value = other := by
  obtain ⟨fields, field, divided, -, place, writes⟩ := one
  obtain ⟨_, _, again, -, alike, writesOther⟩ := same
  obtain rfl := divided.unique again
  obtain rfl : field = _ := Option.some.inj (place.symm.trans alike)
  exact writes.unique writesOther

theorem eq_of_on {other : Bounds} (same : ∀ side, bounds.on side = other.on side) :
    bounds = other := by
  obtain ⟨west, south, east, north⟩ := bounds
  obtain ⟨_, _, _, _⟩ := other
  cases same .west
  cases same .south
  cases same .east
  cases same .north
  rfl

theorem IsTextOf.unique {other : Bounds} (one : IsTextOf text bounds)
    (same : IsTextOf text other) : bounds = other :=
  eq_of_on fun side => (one.given side).unique (same.given side)

theorem Side.exists_index (index : Nat) (inside : index < 4) :
    ∃ side : Side, side.index = index := by
  match index, inside with
  | 0, _ => exact ⟨.west, rfl⟩
  | 1, _ => exact ⟨.south, rfl⟩
  | 2, _ => exact ⟨.east, rfl⟩
  | 3, _ => exact ⟨.north, rfl⟩

/-- A text of bounds has no fault. -/
theorem IsTextOf.faultless (textOf : IsTextOf text bounds) : ¬ FaultAt text place fault := by
  intro found
  cases found with
  | @notANumber fields index field core divided place trimmed unread =>
      obtain ⟨others, _, again, four, -⟩ := textOf.given .west
      obtain rfl := divided.unique again
      obtain ⟨inside, -⟩ := List.getElem?_eq_some_iff.mp place
      obtain ⟨side, rfl⟩ := Side.exists_index index (four ▸ inside)
      obtain ⟨_, _, alike, -, same, writes⟩ := textOf.given side
      obtain rfl := divided.unique alike
      obtain rfl : field = _ := Option.some.inj (place.symm.trans same)
      exact not_writes_of_unread trimmed unread writes
  | fieldCount divided count =>
      obtain ⟨_, _, again, four, -⟩ := textOf.given .west
      obtain rfl := divided.unique again
      exact count four
  | @outOfRange side value given beyond =>
      obtain rfl := given.unique (textOf.given side)
      exact beyond (textOf.within side)

theorem FaultAt.unique {other : Fault} (one : FaultAt text place fault)
    (same : FaultAt text place other) : fault = other := by
  cases one with
  | notANumber divided place trimmed unread =>
      cases same with
      | notANumber again alike trimmedAgain =>
          obtain rfl := divided.unique again
          obtain rfl := Option.some.inj (place.symm.trans alike)
          rw [trimmed.unique trimmedAgain]
  | fieldCount divided count =>
      cases same with
      | fieldCount again => rw [divided.unique again]
  | outOfRange given beyond =>
      cases same with
      | outOfRange again => rw [given.unique again]

theorem Side.rank_injective {first second : Side} (same : first.rank = second.rank) :
    first = second := by
  cases first <;> cases second <;> first | rfl | cases same

theorem Place.rank_injective {first second : Place} (same : first.rank = second.rank) :
    first = second := by
  have parts := Prod.ext_iff.mp (toLex.injective same)
  cases first with
  | field index =>
      cases second with
      | field => exact congrArg Place.field parts.2
      | count | side => cases parts.1
  | count =>
      cases second with
      | count => rfl
      | field | side => cases parts.1
  | side which =>
      cases second with
      | side => exact congrArg Place.side (Side.rank_injective parts.2)
      | field | count => cases parts.1

theorem IsFirstFault.unique {other : Fault} (one : IsFirstFault text fault)
    (same : IsFirstFault text other) : fault = other := by
  obtain ⟨place, found, first⟩ := one
  obtain ⟨again, foundOther, firstOther⟩ := same
  obtain rfl : place = again :=
    Place.rank_injective (le_antisymm (first _ _ foundOther) (firstOther _ _ found))
  exact found.unique foundOther

/-! ## Reading in the order of the faults -/

theorem isWithin_iff {limit : Float} : isWithin limit value = true ↔ Within limit value := by
  simp [isWithin, Within]

def checkSide (bounds : Bounds) (side : Side) : Except Fault Unit :=
  if isWithin side.limit (bounds.on side) then .ok () else .error (side.fault (bounds.on side))

theorem check_eq_forM (bounds : Bounds) :
    bounds.check = (do
      forM [Side.west, .east, .south, .north] bounds.checkSide
      return bounds) := by
  simp only [check, checkLongitude, checkLatitude, List.forM_cons, List.forM_nil, checkSide,
    Side.limit, Side.fault, on, bind_assoc, pure_bind]
  rfl

theorem checkSide_eq_ok (within : Within side.limit (bounds.on side)) :
    bounds.checkSide side = .ok () := if_pos (isWithin_iff.mpr within)

theorem checkSide_eq_error (beyond : ¬ Within side.limit (bounds.on side)) :
    bounds.checkSide side = .error (side.fault (bounds.on side)) :=
  if_neg (mt isWithin_iff.mp beyond)

-- By induction on the order: the head has the lowest rank, so that a head out of range is the first
-- whatever the rest holds, and a fault of the rest is the first once the head has passed.
/-- Of sides in their order, the first that is out of range is told. -/
theorem checkSides_cases (bounds : Bounds) {sides : List Side}
    (ordered : sides.Pairwise fun earlier later => earlier.rank ≤ later.rank) :
    (forM sides bounds.checkSide = .ok () ∧ ∀ side ∈ sides, Within side.limit (bounds.on side)) ∨
    ∃ side, forM sides bounds.checkSide = .error (side.fault (bounds.on side)) ∧
      ¬ Within side.limit (bounds.on side) ∧
      ∀ other ∈ sides, ¬ Within other.limit (bounds.on other) → side.rank ≤ other.rank := by
  induction ordered with
  | nil => exact .inl ⟨rfl, nofun⟩
  | @cons side sides first _ ih =>
      rw [List.forM_cons]
      by_cases within : Within side.limit (bounds.on side)
      · rw [checkSide_eq_ok within]
        obtain ⟨passed, all⟩ | ⟨found, failed, beyond, least⟩ := ih
        · exact .inl ⟨passed, List.forall_mem_cons.mpr ⟨within, all⟩⟩
        · refine .inr ⟨found, failed, beyond, List.forall_mem_cons.mpr ⟨?_, least⟩⟩
          exact fun outside => absurd within outside
      · rw [checkSide_eq_error within]
        refine .inr ⟨side, rfl, within, List.forall_mem_cons.mpr ⟨fun _ => Nat.le_refl _, ?_⟩⟩
        exact fun other later _ => first other later

theorem Side.mem_all (side : Side) : side ∈ [Side.west, .east, .south, .north] := by
  cases side <;> decide

theorem check_cases (bounds : Bounds) :
    (bounds.check = .ok bounds ∧ ∀ side : Side, Within side.limit (bounds.on side)) ∨
    ∃ side : Side, bounds.check = .error (side.fault (bounds.on side)) ∧
      ¬ Within side.limit (bounds.on side) ∧
      ∀ other : Side, ¬ Within other.limit (bounds.on other) → side.rank ≤ other.rank := by
  have ordered : [Side.west, .east, .south, .north].Pairwise
      fun earlier later => earlier.rank ≤ later.rank := by decide
  rw [check_eq_forM]
  obtain ⟨passed, all⟩ | ⟨side, failed, beyond, least⟩ := bounds.checkSides_cases ordered
  · rw [passed]
    exact .inl ⟨rfl, fun side => all side side.mem_all⟩
  · rw [failed]
    exact .inr ⟨side, rfl, beyond, fun other => least other other.mem_all⟩

theorem readField_eq_ok (writes : Decimal.read? (Text.trim field) = some value) :
    readField field = .ok value := by
  rw [readField, writes]

theorem readField_eq_error (unread : Decimal.read? (Text.trim field) = none) :
    readField field = .error (.notANumber (Text.trim field)) := by
  rw [readField, unread]

/-- The fields are read from the left up to the first that writes no number. -/
theorem numbers_cases (fields : List (List Char)) :
    (∃ numbers, fields.mapM readField = .ok numbers ∧ List.Forall₂ Writes fields numbers) ∨
    ∃ (index : Nat) (field : List Char),
      fields[index]? = some field ∧ Decimal.read? (Text.trim field) = none ∧
      fields.mapM readField = .error (.notANumber (Text.trim field)) ∧
      ∀ earlier < index, ∀ other, fields[earlier]? = some other → ∃ value, Writes other value := by
  induction fields with
  | nil => exact .inl ⟨[], rfl, .nil⟩
  | cons field fields ih =>
      rw [List.mapM_cons]
      cases read : Decimal.read? (Text.trim field) with
      | none =>
          rw [readField_eq_error read]
          refine .inr ⟨0, field, rfl, read, rfl, fun earlier before => ?_⟩
          exact absurd before (Nat.not_lt_zero earlier)
      | some value =>
          rw [readField_eq_ok read]
          obtain ⟨numbers, all, written⟩ | ⟨index, found, place, unread, failed, first⟩ := ih
          · rw [all]
            exact .inl ⟨value :: numbers, rfl, .cons (writes_iff.mpr read) written⟩
          · rw [failed]
            refine .inr ⟨index + 1, found, place, unread, rfl, fun earlier before other here => ?_⟩
            cases earlier with
            | zero => exact ⟨value, Option.some.inj here ▸ writes_iff.mpr read⟩
            | succ earlier => exact first earlier (Nat.lt_of_succ_lt_succ before) other here

theorem ofNumbers_of_count {numbers : List Float} (count : numbers.length ≠ 4) :
    ofNumbers numbers = .error (.fieldCount numbers.length) := by
  unfold ofNumbers
  split
  · exact absurd rfl count
  · rfl

theorem gives_of_written (divided : Text.Divided ',' text fields)
    (written : List.Forall₂ Writes fields [bounds.west, bounds.south, bounds.east, bounds.north])
    (side : Side) : Gives text side (bounds.on side) := by
  obtain ⟨four, each⟩ := List.forall₂_iff_get.mp written
  have inside : side.index < 4 := by cases side <;> decide
  refine ⟨fields, _, divided, four, List.getElem?_eq_getElem (four ▸ inside), ?_⟩
  have writes := each side.index (four ▸ inside) inside
  cases side <;> exact writes

/-- A field that writes no number is told before all but the fields to its left. -/
theorem isFirstFault_of_unread {index : Nat} (divided : Text.Divided ',' text fields)
    (place : fields[index]? = some field) (unread : Decimal.read? (Text.trim field) = none)
    (first : ∀ earlier < index, ∀ other, fields[earlier]? = some other →
      ∃ value, Writes other value) :
    IsFirstFault text (.notANumber (Text.trim field)) := by
  refine ⟨.field index, .notANumber divided place (Text.trimmed_trim field) unread, ?_⟩
  intro other later found
  apply Prod.Lex.toLex_le_toLex.mpr
  cases found with
  | @notANumber _ otherIndex _ _ again here trimmed unreadOther =>
      refine .inr ⟨rfl, Nat.le_of_not_lt fun before => ?_⟩
      obtain rfl := divided.unique again
      obtain ⟨value, writes⟩ := first otherIndex before _ here
      exact not_writes_of_unread trimmed unreadOther writes
  | fieldCount => exact .inl Nat.zero_lt_one
  | outOfRange => exact .inl Nat.zero_lt_two

/-- Where all fields write numbers, none of them is at fault. -/
theorem not_faultAt_field {numbers : List Float} {index : Nat}
    (divided : Text.Divided ',' text fields) (written : List.Forall₂ Writes fields numbers) :
    ¬ FaultAt text (.field index) fault := by
  intro found
  cases found with
  | notANumber again place trimmed unread =>
      obtain rfl := divided.unique again
      obtain ⟨inside, rfl⟩ := List.getElem?_eq_some_iff.mp place
      obtain ⟨same, each⟩ := List.forall₂_iff_get.mp written
      exact not_writes_of_unread trimmed unread (each index inside (same ▸ inside))

theorem isFirstFault_of_count {numbers : List Float} (divided : Text.Divided ',' text fields)
    (written : List.Forall₂ Writes fields numbers) (count : numbers.length ≠ 4) :
    IsFirstFault text (.fieldCount numbers.length) := by
  rw [← written.length_eq] at count ⊢
  refine ⟨.count, .fieldCount divided count, ?_⟩
  intro other later found
  apply Prod.Lex.toLex_le_toLex.mpr
  cases found with
  | notANumber again place trimmed unread =>
      have atField := FaultAt.notANumber again place trimmed unread
      exact absurd atField (not_faultAt_field divided written)
  | fieldCount => exact .inr ⟨rfl, Nat.le_refl _⟩
  | outOfRange => exact .inl Nat.one_lt_two

theorem isFirstFault_of_side (divided : Text.Divided ',' text fields)
    (written : List.Forall₂ Writes fields [bounds.west, bounds.south, bounds.east, bounds.north])
    (beyond : ¬ Within side.limit (bounds.on side))
    (least : ∀ other : Side, ¬ Within other.limit (bounds.on other) → side.rank ≤ other.rank) :
    IsFirstFault text (side.fault (bounds.on side)) := by
  have given := gives_of_written divided written
  refine ⟨.side side, .outOfRange (given side) beyond, ?_⟩
  intro other later found
  apply Prod.Lex.toLex_le_toLex.mpr
  cases found with
  | notANumber again place trimmed unread =>
      have atField := FaultAt.notANumber again place trimmed unread
      exact absurd atField (not_faultAt_field divided written)
  | fieldCount again wrong =>
      obtain rfl := divided.unique again
      exact absurd written.length_eq wrong
  | @outOfRange other value alike outside =>
      obtain rfl := alike.unique (given other)
      exact .inr ⟨rfl, least other outside⟩

/-- A text is read as bounds that it gives, or its first fault is told. -/
theorem reading_cases (text : List Char) :
    (∃ bounds, read text = .ok bounds ∧ IsTextOf text bounds) ∨
    ∃ fault, read text = .error fault ∧ IsFirstFault text fault := by
  have divided : Text.Divided ',' text (Text.fields ',' text) := Text.fields_eq_iff.mp rfl
  obtain ⟨numbers, all, written⟩ | ⟨index, field, place, unread, failed, first⟩ :=
    numbers_cases (Text.fields ',' text)
  · have result : read text = ofNumbers numbers := by
      rw [read, all]
      rfl
    by_cases four : numbers.length = 4
    · match numbers, four with
      | [west, south, east, north], _ =>
          obtain ⟨accepted, within⟩ | ⟨side, refused, beyond, least⟩ :=
            check_cases ⟨west, south, east, north⟩
          · have given := @gives_of_written _ _ ⟨west, south, east, north⟩ divided written
            exact .inl ⟨_, result.trans accepted, given, within⟩
          · exact .inr ⟨_, result.trans refused, isFirstFault_of_side divided written beyond least⟩
    · exact .inr ⟨_, result.trans (ofNumbers_of_count four),
        isFirstFault_of_count divided written four⟩
  · refine .inr ⟨_, ?_, isFirstFault_of_unread divided place unread first⟩
    rw [read, failed]
    rfl

theorem read_eq_ok_iff : read text = .ok bounds ↔ IsTextOf text bounds := by
  constructor
  · intro accepted
    obtain ⟨found, result, textOf⟩ | ⟨fault, result, -⟩ := reading_cases text
    · obtain rfl : found = bounds := Except.ok.inj (result.symm.trans accepted)
      exact textOf
    · cases result.symm.trans accepted
  · intro textOf
    obtain ⟨found, result, again⟩ | ⟨fault, -, place, found, -⟩ := reading_cases text
    · rw [result, again.unique textOf]
    · exact absurd found textOf.faultless

theorem read_eq_error_iff : read text = .error fault ↔ IsFirstFault text fault := by
  constructor
  · intro refused
    obtain ⟨found, result, -⟩ | ⟨told, result, first⟩ := reading_cases text
    · cases result.symm.trans refused
    · obtain rfl : told = fault := Except.error.inj (result.symm.trans refused)
      exact first
  · intro first
    obtain ⟨found, -, textOf⟩ | ⟨told, result, again⟩ := reading_cases text
    · obtain ⟨place, faulty, -⟩ := first
      exact absurd faulty textOf.faultless
    · rw [result, again.unique first]

theorem Side.isFinite_limit (side : Side) :
    (-side.limit).isFinite = true ∧ side.limit.isFinite = true := by
  cases side <;> decide +kernel

theorem IsTextOf.isFinite (textOf : IsTextOf text bounds) (side : Side) :
    (bounds.on side).isFinite = true := by
  obtain ⟨above, below⟩ := textOf.within side
  exact isFinite_of_between side.isFinite_limit.1 side.isFinite_limit.2 above below

end Bounds

/-- A text is accepted with the bounds that it gives, and they are finite numbers; any other text is
refused with the first of its faults. -/
theorem Input.bounds_are_read_by_their_grammar (text : String) :
    (∀ bounds, Input.bounds text = .ok bounds ↔ Bounds.IsTextOf text.toList bounds) ∧
    (∀ error, Input.bounds text = .error error ↔
      ∃ fault : Bounds.Fault, Bounds.IsFirstFault text.toList fault ∧
        error = .invalidBounds fault.message) ∧
    ∀ bounds, Input.bounds text = .ok bounds → ∀ side, (bounds.on side).isFinite = true := by
  have accepts (bounds : Bounds) :
      Input.bounds text = .ok bounds ↔ Bounds.IsTextOf text.toList bounds := by
    rw [← Bounds.read_eq_ok_iff, Input.bounds]
    cases Bounds.read text.toList <;> simp [Except.mapError]
  refine ⟨accepts, ?_, ?_⟩
  · intro error
    simp only [← Bounds.read_eq_error_iff, Input.bounds]
    cases Bounds.read text.toList <;> simp [Except.mapError, eq_comm]
  · intro bounds accepted side
    exact ((accepts bounds).mp accepted).isFinite side

/-- A region whose east comes before its west is accepted. Of a text with three fields, two of which
are at fault, the field that is no number is told. -/
theorem Input.reversed_bounds_are_read_and_faulty_refused :
    Input.bounds " 10.5, 50 ,-3,40" = .ok ⟨10.5, 50.0, -3.0, 40.0⟩ ∧
    (-3.0 : Float).isFinite = true ∧
    Input.bounds "200, x ,0" = .error (.invalidBounds "(x) is not a number") := by
  have divided : Text.Divided ',' " 10.5, 50 ,-3,40".toList
      [" 10.5".toList, " 50 ".toList, "-3".toList, "40".toList] :=
    Text.fields_eq_iff.mp (by decide)
  have written : List.Forall₂ Bounds.Writes
      [" 10.5".toList, " 50 ".toList, "-3".toList, "40".toList] [10.5, 50.0, -3.0, 40.0] := by
    refine .cons ?_ (.cons ?_ (.cons ?_ (.cons ?_ .nil))) <;>
      exact Bounds.writes_iff.mpr (by decide +kernel)
  have within (side : Bounds.Side) :
      Bounds.Within side.limit ((⟨10.5, 50.0, -3.0, 40.0⟩ : Bounds).on side) := by
    cases side <;> exact Bounds.isWithin_iff.mp (by decide +kernel)
  obtain ⟨accepts, -, finite⟩ := bounds_are_read_by_their_grammar " 10.5, 50 ,-3,40"
  obtain ⟨-, refuses, -⟩ := bounds_are_read_by_their_grammar "200, x ,0"
  have accepted := (accepts ⟨10.5, 50.0, -3.0, 40.0⟩).mpr
    ⟨Bounds.gives_of_written divided written, within⟩
  refine ⟨accepted, finite _ accepted .east, (refuses _).mpr ⟨.notANumber ['x'], ?_, rfl⟩⟩
  have faulty : Text.Divided ',' "200, x ,0".toList ["200".toList, " x ".toList, "0".toList] :=
    Text.fields_eq_iff.mp (by decide)
  have place : ["200".toList, " x ".toList, "0".toList][1]? = some " x ".toList := rfl
  apply Bounds.isFirstFault_of_unread faulty place (by decide +kernel)
  intro earlier before other here
  obtain rfl : earlier = 0 := Nat.lt_one_iff.mp before
  cases here
  exact ⟨200.0, Bounds.writes_iff.mpr (by decide +kernel)⟩

end TilePyramid
