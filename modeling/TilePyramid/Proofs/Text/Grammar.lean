import Mathlib.Data.List.TakeWhile
import TilePyramid.Text

/-!
# Blanks, fields and numerals

What trimming, dividing and reading a numeral come to, told without the functions that do it: a core
that no blank begins or ends, pieces that hold no separator and make up the text, and digits after at
most one plus sign. Main statements: `trim_eq_iff`, `fields_eq_iff` and `readNatural_eq_some_iff`.
-/

set_option autoImplicit false

namespace TilePyramid.Text

/-! ## Blanks -/

/-- The core of a text has only blanks around it, and neither begins nor ends with one. -/
structure Trimmed (text core : List Char) : Prop where
  around : ∃ before after, text = before ++ core ++ after ∧ (∀ c ∈ before, isBlank c = true) ∧
    ∀ c ∈ after, isBlank c = true
  first : ∀ c, core.head? = some c → isBlank c = false
  last : ∀ c, core.getLast? = some c → isBlank c = false

theorem isBlank_of_isDigit {c : Char} (digit : c.isDigit = true) : isBlank c = false := by
  have range : 48 ≤ c.toNat ∧ c.toNat ≤ 57 := by
    simpa [Char.isDigit, UInt32.le_iff_toNat_le] using digit
  simp only [isBlank, Bool.or_eq_false_iff, Bool.and_eq_false_iff, decide_eq_false_iff_not,
    beq_eq_false_iff_ne]
  omega

theorem trimStart_of_solid {text : List Char}
    (solid : ∀ c, text.head? = some c → isBlank c = false) : trimStart text = text := by
  cases text with
  | nil => rfl
  | cons c rest => exact trimStart_cons_of_not_blank (solid c rfl)

theorem trimStart_append {before : List Char} (blank : ∀ c ∈ before, isBlank c = true)
    (rest : List Char) : trimStart (before ++ rest) = trimStart rest := by
  induction before with
  | nil => rfl
  | cons c before ih =>
      rw [List.forall_mem_cons] at blank
      rw [List.cons_append, trimStart_cons_blank blank.1, ih blank.2]

theorem exists_append_trimStart (text : List Char) :
    ∃ before, before ++ trimStart text = text ∧ ∀ c ∈ before, isBlank c = true :=
  ⟨text.takeWhile isBlank, List.takeWhile_append_dropWhile, fun _ => List.mem_takeWhile_imp⟩

theorem isBlank_of_head?_trimStart {text : List Char} {c : Char}
    (first : (trimStart text).head? = some c) : isBlank c = false := by
  have solid := List.head?_dropWhile_not isBlank text
  rw [show (text.dropWhile isBlank).head? = some c from first] at solid
  simpa using solid

theorem trimmed_trim (text : List Char) : Trimmed text (trim text) := by
  obtain ⟨before, start, blankBefore⟩ := exists_append_trimStart text
  obtain ⟨after, ending, blankAfter⟩ := exists_append_trimStart (trimStart text).reverse
  have rest : trim text ++ after.reverse = trimStart text := by
    rw [trim, trimEnd, ← List.reverse_append, ending, List.reverse_reverse]
  refine ⟨⟨before, after.reverse, ?_, blankBefore, fun c member => ?_⟩, fun c first => ?_,
    fun c last => ?_⟩
  · rw [List.append_assoc, rest, start]
  · exact blankAfter c (List.mem_reverse.mp member)
  · have begins : (trimStart text).head? = some c := by
      rw [← rest, List.head?_append, first, Option.some_or]
    exact isBlank_of_head?_trimStart begins
  · rw [trim, trimEnd, List.getLast?_reverse] at last
    exact isBlank_of_head?_trimStart last

/-- A text has one core, and trimming gives it. -/
theorem trim_eq_iff {text core : List Char} : trim text = core ↔ Trimmed text core := by
  constructor
  · rintro rfl
    exact trimmed_trim text
  · rintro ⟨⟨before, after, rfl, blankBefore, blankAfter⟩, first, last⟩
    have ending : trimEnd (core ++ after) = core := by
      have solid : trimStart core.reverse = core.reverse :=
        trimStart_of_solid fun c found => last c (List.head?_reverse ▸ found)
      have blank : ∀ c ∈ after.reverse, isBlank c = true :=
        fun c member => blankAfter c (List.mem_reverse.mp member)
      rw [trimEnd, List.reverse_append, trimStart_append blank, solid, List.reverse_reverse]
    rw [trim, List.append_assoc, trimStart_append blankBefore]
    cases core with
    | nil =>
        have nothing : trimStart after = [] := trimStart_eq_nil_iff.mpr blankAfter
        rw [List.nil_append, nothing]
        rfl
    | cons c rest =>
        have solid : trimStart (c :: rest ++ after) = c :: rest ++ after :=
          trimStart_cons_of_not_blank (first c rfl)
        rw [solid, ending]

theorem Trimmed.unique {text first second : List Char} (one : Trimmed text first)
    (other : Trimmed text second) : first = second :=
  (trim_eq_iff.mpr one).symm.trans (trim_eq_iff.mpr other)

/-! ## Fields -/

/-- The fields make up the text with separators between them, and hold none. -/
structure Divided (separator : Char) (text : List Char) (fields : List (List Char)) : Prop where
  some : fields ≠ []
  whole : joined separator fields = text
  free : ∀ field ∈ fields, separator ∉ field

theorem separator_notMem_of_mem_fields {separator : Char} {text field : List Char}
    (member : field ∈ fields separator text) : separator ∉ field := by
  induction text generalizing field with
  | nil =>
      rw [fields_nil, List.mem_singleton] at member
      exact member ▸ List.not_mem_nil
  | cons c rest ih =>
      simp only [fields, List.mem_cons] at ih
      by_cases same : c = separator
      · simp only [fields, cut, if_pos same, List.mem_cons] at member
        obtain rfl | later := member
        · exact List.not_mem_nil
        · exact ih later
      · simp only [fields, cut, if_neg same, List.mem_cons] at member
        obtain rfl | later := member
        · exact List.not_mem_cons_of_ne_of_not_mem (Ne.symm same) (ih (.inl rfl))
        · exact ih (.inr later)

/-- A text is divided in one way, by cutting it. -/
theorem fields_eq_iff {separator : Char} {text : List Char} {parts : List (List Char)} :
    fields separator text = parts ↔ Divided separator text parts := by
  constructor
  · rintro rfl
    exact ⟨fields_ne_nil separator text, joined_fields separator text,
      fun _ => separator_notMem_of_mem_fields⟩
  · rintro ⟨some, rfl, free⟩
    obtain ⟨first, others, rfl⟩ := List.exists_cons_of_ne_nil some
    exact fields_joined free

theorem Divided.unique {separator : Char} {text : List Char} {first second : List (List Char)}
    (one : Divided separator text first) (other : Divided separator text second) :
    first = second :=
  (fields_eq_iff.mpr one).symm.trans (fields_eq_iff.mpr other)

theorem mem_joined {separator c : Char} {fields : List (List Char)}
    (member : c ∈ joined separator fields) : c = separator ∨ ∃ field ∈ fields, c ∈ field := by
  induction fields with
  | nil => exact absurd member List.not_mem_nil
  | cons field others ih =>
      cases others with
      | nil => exact .inr ⟨field, List.mem_singleton_self _, member⟩
      | cons next more =>
          rw [joined, List.mem_append, List.mem_cons] at member
          obtain here | rfl | later := member
          · exact .inr ⟨field, List.mem_cons_self, here⟩
          · exact .inl rfl
          · refine (ih later).imp_right ?_
            rintro ⟨found, listed, inside⟩
            exact ⟨found, List.mem_cons_of_mem _ listed, inside⟩

/-! ## Numerals -/

/-- The field writes the value in decimal digits, after at most one plus sign, below the limit. -/
structure IsNumeral (limit : Nat) (field : List Char) (value : Nat) : Prop where
  written : ∃ digits, digits ≠ [] ∧ (∀ c ∈ digits, c.isDigit = true) ∧
    (field = digits ∨ field = '+' :: digits) ∧ Nat.ofDigitChars 10 digits 0 = value
  below : value < limit

theorem withoutPlus_cases (field : List Char) :
    withoutPlus field = field ∨ field = '+' :: withoutPlus field := by
  unfold withoutPlus
  split
  · exact .inr rfl
  · exact .inl rfl

theorem readNatural_eq_some_iff {limit value : Nat} {field : List Char} :
    readNatural limit field = some value ↔ IsNumeral limit field value := by
  constructor
  · intro read
    have below : value < limit := lt_of_readNatural read
    simp only [readNatural] at read
    split at read
    · next numeral =>
      rw [List.all_eq_true] at numeral
      split at read
      · cases read
        refine ⟨⟨withoutPlus field, numeral.1, numeral.2, ?_, rfl⟩, below⟩
        exact (withoutPlus_cases field).imp_left Eq.symm
      · cases read
    · cases read
  · rintro ⟨⟨digits, some, numeral, shape, rfl⟩, below⟩
    have rest : withoutPlus field = digits := by
      obtain rfl | rfl := shape
      · exact withoutPlus_of_isDigit numeral
      · rfl
    have valid : digits ≠ [] ∧ digits.all Char.isDigit = true :=
      ⟨some, List.all_eq_true.mpr numeral⟩
    simp only [readNatural, rest, if_pos valid, if_pos below]

theorem readNatural_eq_none_iff {limit : Nat} {field : List Char} :
    readNatural limit field = none ↔ ∀ value, ¬ IsNumeral limit field value := by
  simp only [Option.eq_none_iff_forall_ne_some, ne_eq, readNatural_eq_some_iff]

/-- A field writes at most one value. -/
theorem IsNumeral.unique {limit first second : Nat} {field : List Char}
    (one : IsNumeral limit field first) (other : IsNumeral limit field second) : first = second :=
  Option.some.inj
    ((readNatural_eq_some_iff.mpr one).symm.trans (readNatural_eq_some_iff.mpr other))

theorem isDigit_of_mem_toDigits {value : Nat} {c : Char} (member : c ∈ Nat.toDigits 10 value) :
    c.isDigit = true :=
  Nat.isDigit_of_mem_toDigits (by decide) (by decide) member

end TilePyramid.Text
