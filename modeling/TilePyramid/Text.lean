/-!
# Readings of texts

How texts are trimmed, cut at separators, read as numerals, and how parts of them are replaced. Main
statements: `joined_fields`, `fields_joined` and `readNatural_toDigits`.
-/

set_option autoImplicit false

/-!
## Blank characters

Trimming ignores exactly the characters of the Unicode property White_Space.
-/

namespace TilePyramid.Text

/-- The characters of the Unicode property White_Space. -/
def isBlank (c : Char) : Bool :=
  let point := c.toNat
  (0x09 ≤ point && point ≤ 0x0D) || point == 0x20 || point == 0x85 || point == 0xA0 ||
    point == 0x1680 || (0x2000 ≤ point && point ≤ 0x200A) || point == 0x2028 ||
    point == 0x2029 || point == 0x202F || point == 0x205F || point == 0x3000

def trimStart (text : List Char) : List Char := text.dropWhile isBlank

def trimEnd (text : List Char) : List Char := (trimStart text.reverse).reverse

/-- A text without the blanks around it. -/
def trim (text : List Char) : List Char := trimEnd (trimStart text)

@[simp] theorem trimStart_nil : trimStart [] = [] := rfl

theorem trimStart_cons_blank {c : Char} {rest : List Char} (blank : isBlank c = true) :
    trimStart (c :: rest) = trimStart rest := by
  simp [trimStart, blank]

theorem trimStart_cons_of_not_blank {c : Char} {rest : List Char} (solid : isBlank c = false) :
    trimStart (c :: rest) = c :: rest := by
  simp [trimStart, solid]

/-- Trimming leaves the empty text exactly of texts that hold blanks only. -/
theorem trimStart_eq_nil_iff {text : List Char} :
    trimStart text = [] ↔ ∀ c ∈ text, isBlank c = true := by
  induction text with
  | nil => simp
  | cons c rest ih =>
      cases blank : isBlank c with
      | true => simp [trimStart_cons_blank blank, ih, blank]
      | false => simp [trimStart_cons_of_not_blank blank, blank]

/-!
## Fields of a text

`fields` cuts a text at every occurrence of a separator and `joined` puts it together again.
The main statements: joining what was cut gives the text back, and cutting what was joined gives
the fields back if none of them holds the separator.
-/

/-- The text up to the first separator, and the fields after it. -/
def cut (separator : Char) : List Char → List Char × List (List Char)
  | [] => ([], [])
  | c :: rest =>
      let (first, others) := cut separator rest
      if c = separator then ([], first :: others) else (c :: first, others)

/-- The pieces between the separators of a text; a text without a separator is one field. -/
def fields (separator : Char) (text : List Char) : List (List Char) :=
  let (first, others) := cut separator text
  first :: others

/-- The fields with one separator between neighbours. -/
def joined (separator : Char) : List (List Char) → List Char
  | [] => []
  | [field] => field
  | field :: next :: others => field ++ separator :: joined separator (next :: others)

theorem fields_ne_nil (separator : Char) (text : List Char) : fields separator text ≠ [] := by
  simp [fields]

@[simp] theorem fields_nil (separator : Char) : fields separator [] = [[]] := rfl

theorem fields_cons_separator (separator : Char) (rest : List Char) :
    fields separator (separator :: rest) = [] :: fields separator rest := by
  simp [fields, cut]

theorem joined_cons_cons (separator c : Char) (first : List Char) (others : List (List Char)) :
    joined separator ((c :: first) :: others) = c :: joined separator (first :: others) := by
  cases others <;> simp [joined]

/-- Joining the fields of a text gives the text back. -/
theorem joined_fields (separator : Char) (text : List Char) :
    joined separator (fields separator text) = text := by
  induction text with
  | nil => rfl
  | cons c rest ih =>
      by_cases same : c = separator
      · subst same
        simp only [fields, cut, ↓reduceIte] at ih ⊢
        simp [joined, ih]
      · simp only [fields, cut, same, ↓reduceIte] at ih ⊢
        rw [joined_cons_cons, ih]

/-- A text without the separator is one field. -/
theorem fields_of_not_mem {separator : Char} {text : List Char} (free : separator ∉ text) :
    fields separator text = [text] := by
  induction text with
  | nil => rfl
  | cons c rest ih =>
      have restFree : separator ∉ rest := fun h => free (List.mem_cons_of_mem _ h)
      have different : c ≠ separator := fun h => free (h ▸ List.mem_cons_self)
      have cutRest := ih restFree
      simp only [fields, List.cons.injEq] at cutRest
      simp [fields, cut, different, cutRest]

/-- A separator ends one field and begins the next. -/
theorem fields_append (separator : Char) (text rest : List Char) :
    fields separator (text ++ separator :: rest) = fields separator text ++ fields separator rest := by
  induction text with
  | nil => exact fields_cons_separator separator rest
  | cons c tail ih =>
      simp only [fields, List.cons_append, List.cons.injEq] at ih
      by_cases same : c = separator
      · simp [fields, cut, same, ih]
      · simp [fields, cut, same, ih]

/-- Cutting after the first separator takes one field off. -/
theorem fields_append_separator {separator : Char} {field : List Char} (rest : List Char)
    (free : separator ∉ field) :
    fields separator (field ++ separator :: rest) = field :: fields separator rest := by
  rw [fields_append, fields_of_not_mem free, List.singleton_append]

/-- Cutting what was joined gives the fields back if none of them holds the separator. -/
theorem fields_joined {separator : Char} {first : List Char} {others : List (List Char)}
    (free : ∀ field ∈ first :: others, separator ∉ field) :
    fields separator (joined separator (first :: others)) = first :: others := by
  induction others generalizing first with
  | nil => exact fields_of_not_mem (free first List.mem_cons_self)
  | cons next others ih =>
      rw [joined, fields_append_separator _ (free first List.mem_cons_self),
        ih fun field member => free field (List.mem_cons_of_mem _ member)]

/-!
## Decimal numerals

The numerals of tile names and options: an optional plus sign and at least one ASCII digit, below
a limit. Main statement: the decimal text of a number below the limit reads as that number.
-/

def withoutPlus : List Char → List Char
  | '+' :: rest => rest
  | text => text

/-- The number that a numeral below `limit` writes. -/
def readNatural (limit : Nat) (text : List Char) : Option Nat :=
  let digits := withoutPlus text
  if digits ≠ [] ∧ digits.all Char.isDigit then
    let value := Nat.ofDigitChars 10 digits 0
    if value < limit then some value else none
  else none

/-- Numbers of tile names have 32 bits. -/
def wordLimit : Nat := Nat.pow 2 32

theorem withoutPlus_of_isDigit {text : List Char} (digits : ∀ c ∈ text, c.isDigit = true) :
    withoutPlus text = text := by
  unfold withoutPlus
  split
  · have := digits '+' List.mem_cons_self
    simp at this
  · rfl

theorem lt_of_readNatural {limit value : Nat} {text : List Char}
    (read : readNatural limit text = some value) : value < limit := by
  simp only [readNatural] at read
  split at read
  · split at read
    · next small =>
        cases read
        exact small
    · cases read
  · cases read

theorem readNatural_toDigits {limit value : Nat} (small : value < limit) :
    readNatural limit (Nat.toDigits 10 value) = some value := by
  have digits : ∀ c ∈ Nat.toDigits 10 value, c.isDigit = true := fun _ member =>
    Nat.isDigit_of_mem_toDigits (by decide) (by decide) member
  simp [readNatural, withoutPlus_of_isDigit digits, Nat.toDigits_ne_nil, List.all_eq_true,
    Nat.ofDigitChars_toDigits, small]
  exact digits

/-!
## Replacing parts of a text

Occurrences of a mark are taken from left to right and do not overlap; what replaces them is not
searched again.
-/

/-- Replaces the marks of a text whose first `skip` characters belong to a mark already replaced. -/
def replaceFrom (mark value : List Char) : Nat → List Char → List Char
  | _, [] => []
  | skip + 1, _ :: text => replaceFrom mark value skip text
  | 0, c :: text =>
      if mark.isPrefixOf (c :: text) then value ++ replaceFrom mark value (mark.length - 1) text
      else c :: replaceFrom mark value 0 text

/-- The text with every occurrence of `mark` replaced by `value`; a mark is not empty. -/
def replaceAll (mark value text : List Char) : List Char := replaceFrom mark value 0 text

theorem replaceFrom_append {mark value skipped rest : List Char} :
    replaceFrom mark value skipped.length (skipped ++ rest) = replaceFrom mark value 0 rest := by
  induction skipped with
  | nil => rfl
  | cons c skipped ih => simpa [replaceFrom] using ih

/-- A mark at the start of a text is replaced as a whole. -/
theorem replaceAll_mark_append {c : Char} {others value rest : List Char} :
    replaceAll (c :: others) value (c :: others ++ rest) =
      value ++ replaceAll (c :: others) value rest := by
  simp only [replaceAll, List.cons_append, replaceFrom]
  have starts : (c :: others).isPrefixOf (c :: (others ++ rest)) = true := by simp
  rw [if_pos starts]
  simp [replaceFrom_append]

end TilePyramid.Text
