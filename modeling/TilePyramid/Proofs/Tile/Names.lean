import TilePyramid.Command
import TilePyramid.Proofs.Text.Grammar
import TilePyramid.Proofs.Tile.Words

/-!
# Names of tiles

A text names a tile exactly if, without the blanks around it, it is three numerals in the order of
the format, of a level that names may ask for and of indices on its grid. Otherwise the first of its
faults is told, in a fixed order. Main statements: `reading_cases`, `name_is_read_by_its_grammar`
and `formats_and_names_read_back`.
-/

set_option autoImplicit false

namespace TilePyramid

/-- The number of a tile on an axis. -/
def Tile.number (tile : Tile) : Axis → Nat
  | .z => tile.level
  | .x => tile.x
  | .y => tile.y

def Axes.get {α : Type} (values : Axes α) : Axis → α
  | .z => values.z
  | .x => values.x
  | .y => values.y

/-- The place of an axis among the letters of a layout. -/
def Layout.position (layout : Layout) (axis : Axis) : Nat := layout.letters.idxOf axis.letter

theorem Layout.getElem?_position {α : Type} (layout : Layout) (first second third : α)
    (axis : Axis) : [first, second, third][layout.position axis]? =
      some ((layout.assign first second third).get axis) := by
  cases layout <;> cases axis <;> rfl

theorem Layout.getElem?_write {α : Type} (layout : Layout) (values : Axes α) (axis : Axis) :
    (layout.write values)[layout.position axis]? = some (values.get axis) := by
  cases layout <;> cases axis <;> rfl

theorem Layout.length_write {α : Type} (layout : Layout) (values : Axes α) :
    (layout.write values).length = 3 := by
  cases layout <;> rfl

theorem Layout.mem_write_iff {α : Type} {layout : Layout} {values : Axes α} {value : α} :
    value ∈ layout.write values ↔ ∃ axis, value = values.get axis := by
  constructor
  · intro member
    cases layout <;> simp only [write, List.mem_cons, List.not_mem_nil, or_false] at member <;>
      rcases member with rfl | rfl | rfl <;>
      first | exact ⟨.z, rfl⟩ | exact ⟨.x, rfl⟩ | exact ⟨.y, rfl⟩
  · rintro ⟨axis, rfl⟩
    exact List.mem_of_getElem? (layout.getElem?_write values axis)

namespace NameFormat

variable {format : NameFormat} {core : List Char} {tile : Tile} {axis : Axis} {reason : NameReason}

/-! ## The grammar -/

/-- The text has three fields, and this is the one of the axis. -/
def IsField (format : NameFormat) (core : List Char) (axis : Axis) (field : List Char) : Prop :=
  ∃ fields, Text.Divided format.separator core fields ∧ fields.length = 3 ∧
    fields[format.layout.position axis]? = some field

/-- The field of the axis writes the number. -/
def IsNumber (format : NameFormat) (core : List Char) (axis : Axis) (number : Nat) : Prop :=
  ∃ field, format.IsField core axis field ∧ Text.IsNumeral Text.wordLimit field number

/-- The text is a name of the tile. -/
structure IsNameOf (format : NameFormat) (core : List Char) (tile : Tile) : Prop where
  numbers : ∀ axis, format.IsNumber core axis (tile.number axis)
  shallow : tile.level ≤ maxZoom
  column : tile.x ≤ 2 ^ tile.level - 1
  row : tile.y ≤ 2 ^ tile.level - 1

/-- What is wrong with a text as a name, each fault without regard to the others. -/
inductive HasFault (format : NameFormat) (core : List Char) : NameReason → Prop where
  | fieldCount {fields : List (List Char)} (divided : Text.Divided format.separator core fields)
      (count : fields.length ≠ 3) :
      HasFault format core (.fieldCount format.separator fields.length)
  | notANumber {axis : Axis} {field : List Char} (place : format.IsField core axis field)
      (unread : ∀ number, ¬ Text.IsNumeral Text.wordLimit field number) :
      HasFault format core (.notANumber axis field)
  | tooDeep {level : Nat} (written : format.IsNumber core .z level) (deep : maxZoom < level) :
      HasFault format core (.tooDeep level)
  | offGrid {axis : Axis} {index level : Nat} (horizontal : axis ≠ .z)
      (leveled : format.IsNumber core .z level) (written : format.IsNumber core axis index)
      (beyond : 2 ^ level - 1 < index) :
      HasFault format core (.offGrid axis index (2 ^ level - 1) level)

/-- The order in which the numbers of a name are looked at. -/
def axisRank : Axis → Nat
  | .z => 0
  | .x => 1
  | .y => 2

/-- Of two faults, the one of lower rank is told: the number of fields, then a number that cannot be
read, then a level that is too deep, then an index off the grid. -/
def NameReason.rank : NameReason → Nat
  | .fieldCount .. => 0
  | .notANumber axis _ => 1 + axisRank axis
  | .tooDeep _ => 4
  | .offGrid axis .. => 4 + axisRank axis

/-- The text has this fault, and no fault that is told before it. -/
structure IsFirstFault (format : NameFormat) (core : List Char) (reason : NameReason) : Prop where
  found : format.HasFault core reason
  first : ∀ other, format.HasFault core other → reason.rank ≤ other.rank

/-! ## At most one reading -/

theorem IsField.unique {first second : List Char} (one : format.IsField core axis first)
    (other : format.IsField core axis second) : first = second := by
  obtain ⟨fields, divided, -, place⟩ := one
  obtain ⟨others, again, -, same⟩ := other
  obtain rfl : fields = others := divided.unique again
  exact Option.some.inj (place.symm.trans same)

theorem IsNumber.unique {first second : Nat} (one : format.IsNumber core axis first)
    (other : format.IsNumber core axis second) : first = second := by
  obtain ⟨field, place, writes⟩ := one
  obtain ⟨_, again, same⟩ := other
  obtain rfl := place.unique again
  exact writes.unique same

theorem IsNameOf.unique {first second : Tile} (one : format.IsNameOf core first)
    (other : format.IsNameOf core second) : first = second := by
  have same (axis : Axis) : first.number axis = second.number axis :=
    (one.numbers axis).unique (other.numbers axis)
  obtain ⟨level, x, y⟩ := first
  obtain ⟨_, _, _⟩ := second
  cases same .z
  cases same .x
  cases same .y
  rfl

/-- A name has no fault. -/
theorem IsNameOf.faultless (name : format.IsNameOf core tile) : ¬ format.HasFault core reason := by
  intro fault
  cases fault with
  | fieldCount divided count =>
      obtain ⟨_, ⟨fields, again, three, -⟩, -⟩ := name.numbers .z
      obtain rfl := divided.unique again
      exact count three
  | @notANumber axis field place unread =>
      obtain ⟨_, again, writes⟩ := name.numbers axis
      obtain rfl := place.unique again
      exact unread _ writes
  | tooDeep written deep =>
      obtain rfl := written.unique (name.numbers .z)
      exact absurd name.shallow (Nat.not_le.mpr deep)
  | @offGrid axis index level horizontal leveled written beyond =>
      obtain rfl := leveled.unique (name.numbers .z)
      obtain rfl := written.unique (name.numbers axis)
      cases axis with
      | z => exact horizontal rfl
      | x => exact absurd name.column (Nat.not_le.mpr beyond)
      | y => exact absurd name.row (Nat.not_le.mpr beyond)

/-! ## Reading in the order of the faults -/

theorem axisRank_lt (axis : Axis) : axisRank axis < 3 := by
  cases axis <;> decide

theorem axisRank_injective {left right : Axis} (same : axisRank left = axisRank right) :
    left = right := by
  cases left <;> cases right <;> first | rfl | cases same

theorem eq_fieldCount_of_rank (same : reason.rank = 0) :
    ∃ separator count, reason = .fieldCount separator count := by
  cases reason with
  | fieldCount => exact ⟨_, _, rfl⟩
  | notANumber | tooDeep | offGrid => simp only [NameReason.rank] at same; omega

theorem eq_notANumber_of_rank (same : reason.rank = 1 + axisRank axis) :
    ∃ field, reason = .notANumber axis field := by
  have bound := axisRank_lt axis
  cases reason with
  | notANumber other field =>
      obtain rfl : other = axis := axisRank_injective (Nat.add_left_cancel same)
      exact ⟨_, rfl⟩
  | fieldCount | tooDeep | offGrid => simp only [NameReason.rank] at same; omega

theorem eq_offGrid_of_rank (horizontal : axis ≠ .z) (same : reason.rank = 4 + axisRank axis) :
    ∃ index last level, reason = .offGrid axis index last level := by
  have different : axisRank axis ≠ axisRank .z := mt axisRank_injective horizontal
  cases reason with
  | offGrid other index last level =>
      obtain rfl : other = axis := axisRank_injective (Nat.add_left_cancel same)
      exact ⟨_, _, _, rfl⟩
  | notANumber other =>
      have bound := axisRank_lt other
      simp only [NameReason.rank] at same
      omega
  | fieldCount | tooDeep => simp only [NameReason.rank, axisRank] at same different; omega

/-- The level itself is not looked up on its grid. -/
theorem HasFault.eq_tooDeep_of_rank (fault : format.HasFault core reason)
    (same : reason.rank = 4) : ∃ level, reason = .tooDeep level := by
  cases fault with
  | tooDeep => exact ⟨_, rfl⟩
  | @offGrid other _ _ horizontal =>
      have different : axisRank other ≠ axisRank .z := mt axisRank_injective horizontal
      simp only [NameReason.rank, axisRank] at same different
      omega
  | @notANumber other =>
      have bound := axisRank_lt other
      simp only [NameReason.rank] at same
      omega
  | fieldCount => cases same

/-- Two faults of a text of one rank are the same. -/
theorem HasFault.eq_of_rank {other : NameReason} (fault : format.HasFault core reason)
    (found : format.HasFault core other) (same : reason.rank = other.rank) : reason = other := by
  cases fault with
  | fieldCount divided count =>
      obtain ⟨_, _, rfl⟩ := eq_fieldCount_of_rank same.symm
      cases found with
      | fieldCount again => rw [divided.unique again]
  | notANumber place unread =>
      obtain ⟨_, rfl⟩ := eq_notANumber_of_rank same.symm
      cases found with
      | notANumber again => rw [place.unique again]
  | tooDeep written deep =>
      obtain ⟨_, rfl⟩ := found.eq_tooDeep_of_rank same.symm
      cases found with
      | tooDeep again => rw [written.unique again]
  | offGrid horizontal leveled written beyond =>
      obtain ⟨_, _, _, rfl⟩ := eq_offGrid_of_rank horizontal same.symm
      cases found with
      | offGrid _ again alike => rw [leveled.unique again, written.unique alike]

/-- No fault of the text is told before those of the rank. -/
def ClearUpTo (format : NameFormat) (core : List Char) (rank : Nat) : Prop :=
  ∀ reason, format.HasFault core reason → rank ≤ reason.rank

namespace ClearUpTo

theorem next {rank : Nat} (clear : format.ClearUpTo core rank)
    (none : ∀ reason, format.HasFault core reason → reason.rank ≠ rank) :
    format.ClearUpTo core (rank + 1) := fun reason fault =>
  Nat.lt_of_le_of_ne (clear reason fault) (none reason fault).symm

theorem ofFields {fields : List (List Char)} (divided : Text.Divided format.separator core fields)
    (three : fields.length = 3) : format.ClearUpTo core 1 := by
  have start : format.ClearUpTo core 0 := fun _ _ => Nat.zero_le _
  refine start.next fun reason fault same => ?_
  obtain ⟨_, _, rfl⟩ := eq_fieldCount_of_rank same
  cases fault with
  | fieldCount again count =>
      obtain rfl := divided.unique again
      exact count three

theorem ofNumber {number : Nat} (written : format.IsNumber core axis number)
    (clear : format.ClearUpTo core (1 + axisRank axis)) :
    format.ClearUpTo core (1 + axisRank axis + 1) := by
  refine clear.next fun reason fault same => ?_
  obtain ⟨_, rfl⟩ := eq_notANumber_of_rank same
  cases fault with
  | notANumber place unread =>
      obtain ⟨_, again, writes⟩ := written
      obtain rfl := place.unique again
      exact unread _ writes

theorem ofLevel {level : Nat} (clear : format.ClearUpTo core 4)
    (written : format.IsNumber core .z level) (shallow : level ≤ maxZoom) :
    format.ClearUpTo core 5 := by
  refine clear.next fun reason fault same => ?_
  obtain ⟨_, rfl⟩ := fault.eq_tooDeep_of_rank same
  cases fault with
  | tooDeep again deep =>
      obtain rfl := written.unique again
      exact absurd shallow (Nat.not_le.mpr deep)

theorem ofColumn {column level : Nat} (clear : format.ClearUpTo core 5)
    (leveled : format.IsNumber core .z level) (written : format.IsNumber core .x column)
    (within : column ≤ 2 ^ level - 1) : format.ClearUpTo core 6 := by
  refine clear.next fun reason fault same => ?_
  obtain ⟨_, _, _, rfl⟩ := @eq_offGrid_of_rank .x _ nofun same
  cases fault with
  | offGrid _ again alike beyond =>
      obtain rfl := leveled.unique again
      obtain rfl := written.unique alike
      exact absurd within (Nat.not_le.mpr beyond)

end ClearUpTo

theorem IsField.ofAssigned {first second third : List Char}
    (divided : Text.Divided format.separator core [first, second, third]) (axis : Axis) :
    format.IsField core axis ((format.layout.assign first second third).get axis) :=
  ⟨_, divided, rfl, format.layout.getElem?_position first second third axis⟩

theorem readFields_of_count {fields : List (List Char)} (count : fields.length ≠ 3) :
    format.readFields fields = .error (.fieldCount format.separator fields.length) := by
  unfold readFields
  split
  · exact absurd rfl count
  · rfl

theorem readFields_three (first second third : List Char) :
    format.readFields [first, second, third] = (do
      let z ← readAxis .z (format.layout.assign first second third).z
      let x ← readAxis .x (format.layout.assign first second third).x
      let y ← readAxis .y (format.layout.assign first second third).y
      tileOf ⟨z, x, y⟩) := rfl

theorem readAxis_eq_ok {field : List Char} {number : Nat}
    (writes : Text.readNatural Text.wordLimit field = some number) :
    readAxis axis field = .ok number := by
  rw [readAxis, writes]

theorem readAxis_eq_error {field : List Char}
    (writes : Text.readNatural Text.wordLimit field = none) :
    readAxis axis field = .error (.notANumber axis field) := by
  rw [readAxis, writes]

/-- The numbers of three fields are read, or the first that is none is told. -/
theorem numbers_cases {first second third : List Char}
    (divided : Text.Divided format.separator core [first, second, third]) :
    (∃ numbers : Axes Nat, (∀ axis, format.IsNumber core axis (numbers.get axis)) ∧
      format.ClearUpTo core 4 ∧ format.readFields [first, second, third] = tileOf numbers) ∨
    ∃ reason, format.readFields [first, second, third] = .error reason ∧
      format.IsFirstFault core reason := by
  have place := IsField.ofAssigned divided
  have clear := ClearUpTo.ofFields divided rfl
  rw [readFields_three]
  cases readZ : Text.readNatural Text.wordLimit (format.layout.assign first second third).z with
  | none =>
      rw [readAxis_eq_error readZ]
      exact .inr ⟨_, rfl, .notANumber (place .z) (Text.readNatural_eq_none_iff.mp readZ), clear⟩
  | some z =>
  have isZ : format.IsNumber core .z z := ⟨_, place .z, Text.readNatural_eq_some_iff.mp readZ⟩
  replace clear := clear.ofNumber isZ
  cases readX : Text.readNatural Text.wordLimit (format.layout.assign first second third).x with
  | none =>
      rw [readAxis_eq_ok readZ, readAxis_eq_error readX]
      exact .inr ⟨_, rfl, .notANumber (place .x) (Text.readNatural_eq_none_iff.mp readX), clear⟩
  | some x =>
  have isX : format.IsNumber core .x x := ⟨_, place .x, Text.readNatural_eq_some_iff.mp readX⟩
  replace clear := clear.ofNumber isX
  cases readY : Text.readNatural Text.wordLimit (format.layout.assign first second third).y with
  | none =>
      rw [readAxis_eq_ok readZ, readAxis_eq_ok readX, readAxis_eq_error readY]
      exact .inr ⟨_, rfl, .notANumber (place .y) (Text.readNatural_eq_none_iff.mp readY), clear⟩
  | some y =>
  have isY : format.IsNumber core .y y := ⟨_, place .y, Text.readNatural_eq_some_iff.mp readY⟩
  replace clear := clear.ofNumber isY
  rw [readAxis_eq_ok readZ, readAxis_eq_ok readX, readAxis_eq_ok readY]
  refine .inl ⟨⟨z, x, y⟩, fun axis => ?_, clear, rfl⟩
  cases axis with
  | z => exact isZ
  | x => exact isX
  | y => exact isY

/-- The numbers of a name are those of a tile, or what is wrong with them is told. -/
theorem tileOf_cases {numbers : Axes Nat}
    (written : ∀ axis, format.IsNumber core axis (numbers.get axis))
    (clear : format.ClearUpTo core 4) :
    (∃ tile, tileOf numbers = .ok tile ∧ format.IsNameOf core tile) ∨
    ∃ reason, tileOf numbers = .error reason ∧ format.IsFirstFault core reason := by
  have last : lastIndex numbers.z = 2 ^ numbers.z - 1 := rfl
  simp only [tileOf, last]
  by_cases deep : maxZoom < numbers.z
  · rw [if_pos deep]
    exact .inr ⟨_, rfl, .tooDeep (written .z) deep, clear⟩
  have shallow : numbers.z ≤ maxZoom := Nat.not_lt.mp deep
  replace clear := clear.ofLevel (written .z) shallow
  by_cases beyondX : 2 ^ numbers.z - 1 < numbers.x
  · rw [if_neg deep, if_pos beyondX]
    exact .inr ⟨_, rfl, .offGrid nofun (written .z) (written .x) beyondX, clear⟩
  have column : numbers.x ≤ 2 ^ numbers.z - 1 := Nat.not_lt.mp beyondX
  replace clear := clear.ofColumn (written .z) (written .x) column
  by_cases beyondY : 2 ^ numbers.z - 1 < numbers.y
  · rw [if_neg deep, if_neg beyondX, if_pos beyondY]
    exact .inr ⟨_, rfl, .offGrid nofun (written .z) (written .y) beyondY, clear⟩
  have row : numbers.y ≤ 2 ^ numbers.z - 1 := Nat.not_lt.mp beyondY
  rw [if_neg deep, if_neg beyondX, if_neg beyondY]
  refine .inl ⟨_, rfl, fun axis => ?_, shallow, column, row⟩
  cases axis with
  | z => exact written .z
  | x => exact written .x
  | y => exact written .y

/-- A text is read as a name of a tile, or fails with its first fault. -/
theorem reading_cases (format : NameFormat) (core : List Char) :
    (∃ tile, format.readFields (Text.fields format.separator core) = .ok tile ∧
      format.IsNameOf core tile) ∨
    ∃ reason, format.readFields (Text.fields format.separator core) = .error reason ∧
      format.IsFirstFault core reason := by
  have divided : Text.Divided format.separator core (Text.fields format.separator core) :=
    Text.fields_eq_iff.mp rfl
  by_cases three : (Text.fields format.separator core).length = 3
  · obtain ⟨first, second, third, split⟩ := List.length_eq_three.mp three
    rw [split] at divided ⊢
    obtain ⟨numbers, written, clear, read⟩ | failed := numbers_cases divided
    · rw [read]
      exact tileOf_cases written clear
    · exact .inr failed
  · have first : format.IsFirstFault core _ :=
      ⟨.fieldCount divided three, fun _ _ => Nat.zero_le _⟩
    exact .inr ⟨_, readFields_of_count three, first⟩

theorem readFields_eq_ok_iff : format.readFields (Text.fields format.separator core) = .ok tile ↔
    format.IsNameOf core tile := by
  obtain ⟨named, read, name⟩ | ⟨reason, failed, first⟩ := format.reading_cases core
  · rw [read, Except.ok.injEq]
    exact ⟨fun same => same ▸ name, name.unique⟩
  · rw [failed]
    exact ⟨nofun, fun name => absurd first.found name.faultless⟩

theorem readFields_eq_error_iff :
    format.readFields (Text.fields format.separator core) = .error reason ↔
      format.IsFirstFault core reason := by
  obtain ⟨named, read, name⟩ | ⟨told, failed, first⟩ := format.reading_cases core
  · rw [read]
    exact ⟨nofun, fun fault => absurd fault.found name.faultless⟩
  · rw [failed, Except.error.injEq]
    constructor
    · rintro rfl
      exact first
    · intro other
      refine first.found.eq_of_rank other.found ?_
      exact Nat.le_antisymm (first.first _ other.found) (other.first _ first.found)

theorem tileName_eq (format : NameFormat) (name : String) :
    Input.tileName format name =
      (format.readFields (Text.fields format.separator (Text.trim name.toList))).mapError
        fun reason => .invalidTileName (NameFault.message ⟨Text.trim name.toList, reason⟩) := by
  unfold Input.tileName readTile
  dsimp only
  cases format.readFields (Text.fields format.separator (Text.trim name.toList)) <;> rfl

/-- A name is on the grid of its level. -/
theorem IsNameOf.check_eq (name : format.IsNameOf core tile) : tile.check = .ok tile := by
  have deepest : maxZoom ≤ maxLevel := by decide
  exact Tile.check_eq_ok_iff.mpr ⟨rfl, name.shallow.trans deepest, name.column, name.row⟩

/-- The tile that numbers make in machine words: the level is cut to eight bits, the last index of a
level of the pyramid is computed in 64 bits, and what is made is checked once more. -/
def tileOfWords? (numbers : Axes Nat) : Option (Except (NameReason ⊕ Tile.Fault) Tile) :=
  if maxZoom < numbers.z then some (.error (.inl (.tooDeep numbers.z)))
  else do
    let level := numbers.z % 2 ^ 8
    let last ← if level ≤ maxLevel then lastIndexWord? level else none
    if last < numbers.x then return .error (.inl (.offGrid .x numbers.x last numbers.z))
    else if last < numbers.y then return .error (.inl (.offGrid .y numbers.y last numbers.z))
    else return (Tile.check ⟨level, numbers.x, numbers.y⟩).mapError .inr

/-- The level fits into eight bits where it is cut, and the check that follows passes. -/
theorem tileOfWords?_eq (numbers : Axes Nat) :
    tileOfWords? numbers = some ((tileOf numbers).mapError .inl) := by
  have deepest : maxZoom ≤ maxLevel := by decide
  by_cases deep : maxZoom < numbers.z
  · simp only [tileOfWords?, tileOf, if_pos deep]
    rfl
  have shallow : numbers.z ≤ maxLevel := (Nat.not_lt.mp deep).trans deepest
  have kept : numbers.z % 2 ^ 8 = numbers.z :=
    Nat.mod_eq_of_lt (Nat.lt_of_le_of_lt shallow (by decide))
  simp only [tileOfWords?, tileOf, if_neg deep, kept, if_pos shallow, lastIndexWord?_eq shallow,
    Option.bind_eq_bind, Option.bind_some]
  by_cases beyondX : lastIndex numbers.z < numbers.x
  · simp only [if_pos beyondX]
    rfl
  by_cases beyondY : lastIndex numbers.z < numbers.y
  · simp only [if_neg beyondX, if_pos beyondY]
    rfl
  have accepted : Tile.check ⟨numbers.z, numbers.x, numbers.y⟩ = .ok ⟨_, _, _⟩ :=
    Tile.check_eq_ok_iff.mpr ⟨rfl, shallow, Nat.not_lt.mp beyondX, Nat.not_lt.mp beyondY⟩
  simp only [if_neg beyondX, if_neg beyondY, accepted]
  rfl

/-! ## Writing -/

theorem read_eq_ok_iff {written : String} : read written = .ok format ↔ written = format.text := by
  constructor
  · intro accepted
    have letters : ofChars written.toList = .ok format := by
      unfold read at accepted
      cases found : ofChars written.toList with
      | error reason => rw [found] at accepted; cases accepted
      | ok named => rw [found] at accepted; cases accepted; rfl
    rw [text, ← eq_chars_of_ofChars letters, String.ofList_toList]
  · rintro rfl
    rw [read, text, String.toList_ofList, ofChars_chars]
    rfl

/-- The digits of the numbers of a tile. -/
def digitsOf (tile : Tile) : Axes (List Char) :=
  ⟨Nat.toDigits 10 tile.level, Nat.toDigits 10 tile.x, Nat.toDigits 10 tile.y⟩

theorem get_digitsOf (tile : Tile) (axis : Axis) :
    (digitsOf tile).get axis = Nat.toDigits 10 (tile.number axis) := by
  cases axis <;> rfl

theorem digits_of_mem_write {field : List Char}
    (member : field ∈ format.layout.write (digitsOf tile)) :
    field ≠ [] ∧ ∀ c ∈ field, c.isDigit = true := by
  obtain ⟨axis, rfl⟩ := Layout.mem_write_iff.mp member
  rw [get_digitsOf]
  exact ⟨Nat.toDigits_ne_nil, fun _ => Text.isDigit_of_mem_toDigits⟩

theorem isDigit_separator (format : NameFormat) : format.separator.isDigit = false := by
  have separates := format.separates
  simp only [isReserved, Bool.or_eq_false_iff] at separates
  exact separates.1.1.1

theorem isNumeral_toDigits {limit number : Nat} (below : number < limit) :
    Text.IsNumeral limit (Nat.toDigits 10 number) number :=
  Text.readNatural_eq_some_iff.mp (Text.readNatural_toDigits below)

theorem divided_nameOf (format : NameFormat) (tile : Tile) :
    Text.Divided format.separator (format.nameOf tile) (format.layout.write (digitsOf tile)) where
  some := List.ne_nil_of_length_eq_add_one (format.layout.length_write _)
  whole := rfl
  free field member inside := by
    have digit : format.separator.isDigit = true := (digits_of_mem_write member).2 _ inside
    exact Bool.noConfusion (digit.symm.trans format.isDigit_separator)

theorem mem_nameOf {c : Char} (member : c ∈ format.nameOf tile) :
    c = format.separator ∨ c.isDigit = true :=
  (Text.mem_joined member).imp_right fun ⟨_, listed, inside⟩ =>
    (digits_of_mem_write listed).2 c inside

/-- What is written for a tile is a name of it. -/
theorem isNameOf_nameOf (format : NameFormat) (onGrid : tile.OnGrid)
    (shallow : tile.level ≤ maxZoom) : format.IsNameOf (format.nameOf tile) tile := by
  obtain ⟨deepest, column, row⟩ := onGrid
  have small : lastIndex tile.level < 2 ^ 31 := lastIndex_lt deepest
  have limit : Text.wordLimit = 2 ^ 32 := rfl
  have level : maxLevel = 31 := rfl
  refine ⟨fun axis => ?_, shallow, column, row⟩
  have below : tile.number axis < Text.wordLimit := by
    cases axis <;> simp only [Tile.number] <;> omega
  refine ⟨_, ⟨_, format.divided_nameOf tile, format.layout.length_write _,
    format.layout.getElem?_write _ axis⟩, ?_⟩
  rw [get_digitsOf]
  exact isNumeral_toDigits below

/-- What is written for a tile begins and ends with a digit. -/
theorem exists_digits_nameOf (format : NameFormat) (tile : Tile) :
    ∃ first middle last, format.nameOf tile = first ++ middle ++ last ∧
      (first ≠ [] ∧ ∀ c ∈ first, c.isDigit = true) ∧
      (last ≠ [] ∧ ∀ c ∈ last, c.isDigit = true) := by
  have digits := @digits_of_mem_write format tile
  have whole := (format.divided_nameOf tile).whole
  obtain ⟨first, second, third, split⟩ :=
    List.length_eq_three.mp (format.layout.length_write (digitsOf tile))
  rw [split] at digits whole
  refine ⟨first, format.separator :: second ++ [format.separator], third, ?_, digits (by simp),
    digits (by simp)⟩
  simp [← whole, Text.joined]

/-- Trimming leaves what is written for a tile as it is. -/
theorem trimmed_nameOf (format : NameFormat) (tile : Tile) {before after : List Char}
    (blankBefore : ∀ c ∈ before, Text.isBlank c = true)
    (blankAfter : ∀ c ∈ after, Text.isBlank c = true) :
    Text.Trimmed (before ++ format.nameOf tile ++ after) (format.nameOf tile) := by
  obtain ⟨first, middle, last, whole, ⟨someFirst, digitsFirst⟩, someLast, digitsLast⟩ :=
    format.exists_digits_nameOf tile
  refine ⟨⟨before, after, rfl, blankBefore, blankAfter⟩, fun c begins => ?_, fun c ends => ?_⟩
  · rw [whole, List.append_assoc, List.head?_append_of_ne_nil _ someFirst] at begins
    exact Text.isBlank_of_isDigit (digitsFirst c (List.mem_of_mem_head? begins))
  · rw [whole, List.getLast?_append_of_ne_nil _ someLast] at ends
    exact Text.isBlank_of_isDigit (digitsLast c (List.mem_of_getLast? ends))

theorem exists_solid_nameOf (format : NameFormat) (tile : Tile) :
    ∃ c ∈ format.nameOf tile, Text.isBlank c = false := by
  obtain ⟨first, middle, last, whole, ⟨someFirst, digits⟩, -⟩ := format.exists_digits_nameOf tile
  obtain ⟨c, inside⟩ := List.exists_mem_of_ne_nil first someFirst
  exact ⟨c, by simp [whole, inside], Text.isBlank_of_isDigit (digits c inside)⟩

/-- A tile is read from what is written for it, whatever blanks there are around. -/
theorem readTile_nameOf (format : NameFormat) (onGrid : tile.OnGrid)
    (shallow : tile.level ≤ maxZoom) {before after : List Char}
    (blankBefore : ∀ c ∈ before, Text.isBlank c = true)
    (blankAfter : ∀ c ∈ after, Text.isBlank c = true) :
    format.readTile (before ++ format.nameOf tile ++ after) = .ok tile := by
  have core := Text.trim_eq_iff.mpr (format.trimmed_nameOf tile blankBefore blankAfter)
  have read := readFields_eq_ok_iff.mpr (format.isNameOf_nameOf onGrid shallow)
  simp only [readTile, core, read]
  rfl

end NameFormat

namespace Input

open NameFormat

/-- A text is read as a tile name exactly if its core is one by the grammar of names, and the tile is
on the grid. Otherwise it is an invalid name, told with the first fault of the core. -/
theorem name_is_read_by_its_grammar (format : NameFormat) (name : String) :
    NameFormat.read format.text = .ok format ∧
    ∃ core, Text.Trimmed name.toList core ∧
      (∀ tile, tileName format name = .ok tile ↔ format.IsNameOf core tile) ∧
      (∀ tile, format.IsNameOf core tile → tile.check = .ok tile) ∧
      (∀ error, tileName format name = .error error ↔
        ∃ reason, format.IsFirstFault core reason ∧
          error = .invalidTileName (NameFault.message ⟨core, reason⟩)) ∧
      ∀ numbers, tileOfWords? numbers = some ((tileOf numbers).mapError .inl) := by
  refine ⟨read_eq_ok_iff.mpr rfl, Text.trim name.toList, Text.trimmed_trim name.toList,
    fun tile => ?_, fun tile => IsNameOf.check_eq, fun error => ?_, tileOfWords?_eq⟩
  · rw [← readFields_eq_ok_iff, tileName_eq]
    cases format.readFields (Text.fields format.separator (Text.trim name.toList)) <;>
      simp [Except.mapError]
  · simp only [← readFields_eq_error_iff, tileName_eq]
    cases format.readFields (Text.fields format.separator (Text.trim name.toList)) <;>
      simp [Except.mapError, eq_comm]

example : tileName .slashes " 3/+7/07\r" = .ok ⟨3, 7, 7⟩ := by decide

/-- The text of a format that was read is the one it was read from, and reads as the format again. A
tile of a level that names may ask for is read from what is written for it, whatever blanks there
are around. -/
theorem formats_and_names_read_back {written : String} {format : NameFormat}
    (accepted : NameFormat.read written = .ok format) :
    format.text = written ∧ NameFormat.read format.text = .ok format ∧
    ∀ {given tile : Tile}, given.check = .ok tile → tile.level ≤ maxZoom →
      ∀ {before after : List Char}, (∀ c ∈ before, Text.isBlank c = true) →
        (∀ c ∈ after, Text.isBlank c = true) →
        tileName format (String.ofList (before ++ format.nameOf tile ++ after)) = .ok tile := by
  refine ⟨(read_eq_ok_iff.mp accepted).symm, read_eq_ok_iff.mpr rfl, ?_⟩
  intro given tile checked shallow before after blankBefore blankAfter
  obtain ⟨rfl, onGrid⟩ := Tile.check_eq_ok_iff.mp checked
  simp only [tileName, String.toList_ofList,
    format.readTile_nameOf onGrid shallow blankBefore blankAfter]
  rfl

/-- The separator may be a blank, as those around the name are. -/
theorem last_column_is_read_between_blanks :
    NameFormat.text ⟨' ', .xzy, rfl⟩ = " xzy" ∧
      tileName ⟨' ', .xzy, rfl⟩ " 4194303 22 0 \r" = .ok ⟨22, 4194303, 0⟩ := by
  have written : String.ofList ([' '] ++ NameFormat.nameOf ⟨' ', .xzy, rfl⟩ ⟨22, 4194303, 0⟩ ++
      [' ', '\r']) = " 4194303 22 0 \r" := by decide
  have checked : Tile.check ⟨22, 4194303, 0⟩ = .ok ⟨22, 4194303, 0⟩ := by decide
  obtain ⟨same, -, readsBack⟩ := formats_and_names_read_back (read_eq_ok_iff.mpr
    (show " xzy" = NameFormat.text ⟨' ', .xzy, rfl⟩ from rfl))
  have blankBefore : ∀ c ∈ [' '], Text.isBlank c = true := by simp [Text.isBlank]
  have blankAfter : ∀ c ∈ [' ', '\r'], Text.isBlank c = true := by simp [Text.isBlank]
  refine ⟨same, ?_⟩
  rw [← written]
  exact readsBack checked (by decide) blankBefore blankAfter

end Input

end TilePyramid
