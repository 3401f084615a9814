import TilePyramid.Files

/-!
# Names in paths

An ordinary name leads one step down. Decimal numerals are ordinary names, and a path that ends
with an ordinary name after a slash has that name as its last. Joining a relative path puts its names
after those of the other path.
-/

set_option autoImplicit false

namespace TilePyramid.Files.Path

/-- The name leads one step down wherever it stands. -/
structure Ordinary (name : String) : Prop where
  undivided : '/' ∉ name.toList
  whole : '\x00' ∉ name.toList
  busy : isIdle name = false
  down : name ≠ ".."

theorem Ordinary.nonempty {name : String} (ordinary : Ordinary name) : name.toList ≠ [] := by
  intro empty
  have busy := ordinary.busy
  rw [String.toList_eq_nil_iff] at empty
  simp [empty, isIdle] at busy

theorem Ordinary.append {name ending : String} (ordinary : Ordinary name)
    (undivided : '/' ∉ ending.toList) (whole : '\x00' ∉ ending.toList)
    (long : 2 ≤ ending.toList.length) : Ordinary (name ++ ending) := by
  have length : 3 ≤ (name ++ ending).toList.length := by
    have some := List.length_pos_iff.mpr ordinary.nonempty
    simp only [String.toList_append, List.length_append]
    omega
  constructor
  · simpa using ⟨ordinary.undivided, undivided⟩
  · simpa using ⟨ordinary.whole, whole⟩
  · simp only [isIdle, Bool.or_eq_false_iff, beq_eq_false_iff_ne]
    constructor <;> intro same <;> simp [same] at length
  · intro same
    simp [same] at length

theorem names_ne_nil (path : Path) : names path ≠ [] := by
  simp [names, Text.fields_ne_nil]

theorem Ordinary.names {name : String} (ordinary : Ordinary name) : names name = [name] := by
  simp [Path.names, Text.fields_of_not_mem ordinary.undivided]

theorem Ordinary.relative {name : String} (ordinary : Ordinary name) : isAbsolute name = false := by
  cases chars : name.toList with
  | nil => simp [isAbsolute, chars]
  | cons c rest =>
      have other : c ≠ '/' := by
        rintro rfl
        exact ordinary.undivided (by simp [chars])
      simp [isAbsolute, chars, other]

/-- The names that lead somewhere else. -/
def busy (names : List String) : List String := names.filter fun name => !isIdle name

/-- The names of a path that lead somewhere else. -/
def steps (path : Path) : List String := busy (names path)

/-- The path leads down from where it starts, or stays there. -/
structure Descends (path : Path) : Prop where
  relative : isAbsolute path = false
  whole : '\x00' ∉ path.toList
  down : ".." ∉ names path

theorem Ordinary.descends {name : String} (ordinary : Ordinary name) : Descends name where
  relative := ordinary.relative
  whole := ordinary.whole
  down := by simpa [ordinary.names] using ordinary.down.symm

theorem Ordinary.steps {name : String} (ordinary : Ordinary name) : steps name = [name] := by
  simp [Path.steps, Path.busy, ordinary.names, ordinary.busy]

theorem toList_toString (number : Nat) : (toString number).toList = Nat.toDigits 10 number :=
  Nat.toList_repr

theorem toString_injective {number other : Nat} (same : toString number = toString other) :
    number = other := by
  have digits := congrArg String.toList same
  rw [toList_toString, toList_toString] at digits
  simpa using congrArg (Nat.ofDigitChars 10 · 0) digits

theorem isDigit_of_mem_toString {number : Nat} {c : Char}
    (member : c ∈ (toString number).toList) : c.isDigit = true := by
  rw [toList_toString] at member
  exact Nat.isDigit_of_mem_toDigits (by decide) (by decide) member

theorem ordinary_toString (number : Nat) : Ordinary (toString number) := by
  have digits : ∀ c ∈ (toString number).toList, c.isDigit = true :=
    fun _ => isDigit_of_mem_toString
  refine ⟨fun slash => ?_, fun nul => ?_, ?_, fun up => ?_⟩
  · exact absurd (digits _ slash) (by decide)
  · exact absurd (digits _ nul) (by decide)
  · have some : (toString number).toList ≠ [] := by
      rw [toList_toString]
      exact Nat.toDigits_ne_nil
    simp only [isIdle, Bool.or_eq_false_iff, beq_eq_false_iff_ne]
    refine ⟨fun empty => ?_, fun dot => ?_⟩
    · exact some (by rw [empty]; rfl)
    · rw [dot] at digits
      exact absurd (digits '.' (by decide)) (by decide)
  · rw [up] at digits
    exact absurd (digits '.' (by decide)) (by decide)

theorem names_append {base name : String} (undivided : '/' ∉ name.toList) :
    names (base ++ "/" ++ name) = names base ++ [name] := by
  have cut := Text.fields_append '/' base.toList name.toList
  rw [Text.fields_of_not_mem undivided] at cut
  simp [names, cut]

theorem exists_join_eq (base part : Path) : ∃ front, join base part = front ++ part := by
  unfold join
  split
  · exact ⟨"", by simp⟩
  · split
    · exact ⟨base, rfl⟩
    · exact ⟨base ++ "/", rfl⟩

/-- Where a path ends with a name, a further one is joined to it by a slash. -/
theorem join_of_ordinary {base name part : Path} {front : String} (ends : base = front ++ name)
    (last : Ordinary name) (further : Ordinary part) : join base part = base ++ "/" ++ part := by
  have some : base.toList ≠ [] := by simp [ends, last.nonempty]
  have closed : base.toList.getLast? ≠ .some '/' := by
    rw [ends, String.toList_append, List.getLast?_append,
      List.getLast?_eq_some_getLast last.nonempty, Option.some_or]
    intro slash
    exact last.undivided (Option.some.inj slash ▸ List.getLast_mem last.nonempty)
  rw [join, if_neg (by simp [further.relative]), if_neg (by simp [some, closed])]

section Join

variable {base part : Path}

theorem isAbsolute_join (relative : isAbsolute part = false) :
    isAbsolute (join base part) = isAbsolute base := by
  cases chars : base.toList with
  | nil =>
      obtain rfl : base = "" := String.toList_eq_nil_iff.mp chars
      rw [join_empty_left, relative]
      rfl
  | cons c rest =>
      rw [join, if_neg (by simp [relative])]
      split <;> simp [isAbsolute, chars]

theorem not_mem_join {c : Char} (separated : c ≠ '/') (base_free : c ∉ base.toList)
    (part_free : c ∉ part.toList) : c ∉ (join base part).toList := by
  unfold join
  split
  · exact part_free
  · split <;> simp [separated, base_free, part_free]

/-- A joined path has the names of its parts one after the other, without an empty name between. -/
theorem names_join (base : Path) (relative : isAbsolute part = false) :
    ∃ front, (names base = front ∨ names base = front ++ [""]) ∧
      names (join base part) = front ++ names part := by
  unfold join
  rw [if_neg (by simp [relative])]
  by_cases empty : base.toList = []
  · obtain rfl : base = "" := String.toList_eq_nil_iff.mp empty
    exact ⟨[], .inr rfl, by simp⟩
  by_cases closed : base.toList.getLast? = some '/'
  · rw [if_pos (.inr closed)]
    obtain ⟨front, ends⟩ := List.getLast?_eq_some_iff.mp closed
    refine ⟨names (String.ofList front), .inr ?_, ?_⟩
    · simp [names, ends, Text.fields_append]
    · simp [names, ends, Text.fields_append]
  · rw [if_neg (by simp [empty, closed])]
    exact ⟨names base, .inl rfl, by simp [names, Text.fields_append]⟩

end Join

section Parent

theorem intercalate_map_ofList (fields : List (List Char)) :
    String.intercalate "/" (fields.map String.ofList) = String.ofList (Text.joined '/' fields) := by
  induction fields with
  | nil => rfl
  | cons field others ih =>
      cases others with
      | nil => simp [Text.joined]
      | cons next others =>
          rw [List.map_cons] at ih
          simp only [List.map_cons, String.intercalate_cons_cons, ih, Text.joined]
          rw [← String.toList_inj]
          simp

theorem intercalate_names (path : Path) : String.intercalate "/" (names path) = path := by
  rw [names, intercalate_map_ofList, Text.joined_fields, String.ofList_toList]

/-- Names without a slash are cut out of the text that they were joined to. -/
theorem names_intercalate {first : String} {others : List String}
    (undivided : ∀ name ∈ first :: others, '/' ∉ name.toList) :
    names (String.intercalate "/" (first :: others)) = first :: others := by
  have listed : ((first :: others).map String.toList).map String.ofList = first :: others := by simp
  have free : ∀ field ∈ first.toList :: others.map String.toList, '/' ∉ field := by
    intro field member
    obtain ⟨name, isName, rfl⟩ := List.mem_map.mp (show field ∈ (first :: others).map String.toList from member)
    exact undivided name isName
  rw [← listed, intercalate_map_ofList, names, String.toList_ofList]
  exact congrArg (List.map String.ofList) (Text.fields_joined free)

theorem parent?_of_split {path front name last : Path} {start : String} {before : List String}
    (split : splitStart path = (start, names front ++ [last])) (ends : names front = before ++ [name])
    (ordinary : Ordinary name) (further : Ordinary last) : parent? path = some (start ++ front) := by
  have kept {names : List String} {name : String} (busy : isIdle name = false) :
      dropIdleEnd (names ++ [name]) = names ++ [name] := by
    simp [dropIdleEnd, busy]
  have most : (names front ++ [last]).dropLast = before ++ [name] := by simp [ends]
  unfold parent?
  rw [split]
  simp only [kept further.busy]
  cases all : names front ++ [last] with
  | nil => simp at all
  | cons first others =>
      simp only [← all, most, kept ordinary.busy]
      rw [← ends, intercalate_names]

/-- What is split off at the start of a path is one character at most. -/
theorem exists_splitStart {path : Path} (other : path ≠ ".") :
    ∃ start rest, path = start ++ rest ∧ start.toList.length ≤ 1 ∧
      splitStart path = (start, names rest) := by
  unfold splitStart
  split
  · next rest chars =>
    exact ⟨"/", String.ofList rest, String.toList_inj.mp (by simp [chars]), by simp, rfl⟩
  · next rest chars =>
    refine ⟨".", String.ofList ('/' :: rest), String.toList_inj.mp (by simp [chars]), by simp, ?_⟩
    simp [names, Text.fields_cons_separator]
  · next chars => exact absurd (String.toList_inj.mp (chars.trans rfl)) other
  · exact ⟨"", path, by simp, by simp, rfl⟩

/-- The path before an ordinary name is the path without it, if it ends with such a name itself. -/
theorem parent?_of_ordinary {base name last : String} (ordinary : Ordinary name)
    (further : Ordinary last) :
    parent? (base ++ "/" ++ name ++ "/" ++ last) = some (base ++ "/" ++ name) := by
  have other : base ++ "/" ++ name ++ "/" ++ last ≠ "." := by
    intro same
    have length := congrArg (·.toList.length) same
    simp at length
    omega
  obtain ⟨start, rest, same, short, split⟩ := exists_splitStart other
  obtain ⟨front, begins, rfl⟩ :
      ∃ front, base ++ "/" = start ++ front ∧ rest = front ++ name ++ "/" ++ last := by
    have chars := congrArg String.toList same
    simp only [String.toList_append] at chars
    have long : start.toList.length ≤ (base.toList ++ "/".toList).length := by simp; omega
    have whole : start.toList <+: base.toList ++ "/".toList ++ (name ++ "/" ++ last).toList :=
      ⟨rest.toList, by rw [← chars]; simp⟩
    obtain ⟨front, begins⟩ := List.prefix_of_prefix_length_le whole (List.prefix_append _ _) long
    refine ⟨String.ofList front, String.toList_inj.mp (by simpa using begins.symm),
      String.toList_inj.mp ?_⟩
    rw [← begins] at chars
    simpa using chars.symm
  obtain ⟨before, ends⟩ : ∃ before, names (front ++ name) = before ++ [name] := by
    have chars := congrArg String.toList begins
    simp only [String.toList_append] at chars
    rcases List.eq_nil_or_concat front.toList with empty | ⟨others, closing, same⟩
    · obtain rfl : front = "" := String.toList_eq_nil_iff.mp empty
      exact ⟨[], by simp [ordinary.names]⟩
    · obtain rfl : front = String.ofList others ++ "/" := by
        rw [same, List.concat_eq_append, ← List.append_assoc] at chars
        obtain ⟨-, slash⟩ := List.append_inj' chars rfl
        exact String.toList_inj.mp (by simp [same, ← slash])
      exact ⟨_, names_append ordinary.undivided⟩
  have whole : base ++ "/" ++ name = start ++ (front ++ name) := by
    rw [begins, String.append_assoc]
  rw [parent?_of_split (split.trans (by rw [names_append further.undivided])) ends ordinary further,
    whole]

end Parent

end TilePyramid.Files.Path
