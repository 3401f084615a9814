import Mathlib.Data.List.Infix
import Mathlib.Data.List.Nodup
import TilePyramid.Text

/-!
# Filling in marks

A mark is a word in braces. Marks can be filled in together, in one pass over a text that copies
everything else, or one kind after the other. The later passes then also read what the earlier ones
have put in. Main statements: `Filled.unique`, `filled_foldl` and `Filled.ofReplaced_iff`.
-/

set_option autoImplicit false

namespace TilePyramid.Text

/-- A mark is a word in braces that holds no brace. -/
def IsMark (mark : List Char) : Prop :=
  ∃ word, mark = '\x7b' :: (word ++ ['\x7d']) ∧ '\x7b' ∉ word ∧ '\x7d' ∉ word

/-- The text is gone through once, from its start. Where a mark stands its value is put, and every
other character is copied. -/
inductive Filled (values : List (List Char × List Char)) : (text filled : List Char) → Prop where
  | nothing : Filled values [] []
  | mark {mark value text filled : List Char} (known : (mark, value) ∈ values)
      (others : Filled values text filled) : Filled values (mark ++ text) (value ++ filled)
  | copied {c : Char} {text filled : List Char}
      (unmarked : ∀ entry ∈ values, ¬ entry.1 <+: c :: text) (others : Filled values text filled) :
      Filled values (c :: text) (c :: filled)

/-- How often one of the marks stands in a text. -/
def occurrences (marks : List (List Char)) : List Char → Nat
  | [] => 0
  | c :: text => (if ∃ mark ∈ marks, mark <+: c :: text then 1 else 0) + occurrences marks text

/-- The marks are told apart, so that each has one value. -/
structure AreMarks (values : List (List Char × List Char)) : Prop where
  marked : ∀ entry ∈ values, IsMark entry.1
  distinct : (values.map Prod.fst).Nodup

variable {values : List (List Char × List Char)} {marks : List (List Char)}
  {mark other value text rest filled : List Char}

/-! ## Marks do not overlap -/

/-- A word is known from what stands before its end. -/
theorem eq_of_begins_ended {c : Char} {word longer : List Char} (free : c ∉ word)
    (longerFree : c ∉ longer) (begins : word ++ [c] <+: longer ++ c :: rest) : word = longer := by
  induction word generalizing longer with
  | nil =>
      cases longer with
      | nil => rfl
      | cons d longer =>
          have same : c = d := (List.cons_prefix_cons.mp begins).1
          exact absurd (same ▸ List.mem_cons_self) longerFree
  | cons d word ih =>
      rw [List.mem_cons, not_or] at free
      cases longer with
      | nil => exact absurd (List.cons_prefix_cons.mp begins).1.symm free.1
      | cons e longer =>
          rw [List.mem_cons, not_or] at longerFree
          obtain ⟨rfl, later⟩ := List.cons_prefix_cons.mp begins
          rw [ih free.2 longerFree.2 later]

namespace IsMark

/-- A mark begins with its only opening brace. -/
theorem exists_tail (isMark : IsMark mark) : ∃ tail, mark = '\x7b' :: tail ∧ '\x7b' ∉ tail := by
  obtain ⟨word, rfl, unopened, -⟩ := isMark
  exact ⟨_, rfl, by simp [unopened]⟩

theorem not_prefix_cons (isMark : IsMark mark) {c : Char} (different : c ≠ '\x7b') :
    ¬ mark <+: c :: text := by
  obtain ⟨tail, rfl, -⟩ := isMark.exists_tail
  exact fun begins => different (List.cons_prefix_cons.mp begins).1.symm

/-- Where a mark stands, no other begins. -/
theorem eq_of_begins (isMark : IsMark mark) (isOther : IsMark other)
    (begins : mark <+: other ++ rest) : mark = other := by
  obtain ⟨word, rfl, -, unclosed⟩ := isMark
  obtain ⟨otherWord, rfl, -, otherUnclosed⟩ := isOther
  simp only [List.cons_append, List.cons_prefix_cons, true_and, List.append_assoc,
    List.nil_append] at begins
  rw [eq_of_begins_ended unclosed otherUnclosed begins]

end IsMark

/-! ## One value for each mark -/

theorem AreMarks.tail {entry : List Char × List Char} (marks : AreMarks (entry :: values)) :
    AreMarks values :=
  ⟨(List.forall_mem_cons.mp marks.marked).2, (List.nodup_cons.mp marks.distinct).2⟩

theorem AreMarks.isMark_of_mem (marks : AreMarks values) :
    ∀ mark ∈ values.map Prod.fst, IsMark mark :=
  List.forall_mem_map.mpr marks.marked

theorem AreMarks.value_unique {first second : List Char} (marks : AreMarks values)
    (one : (mark, first) ∈ values) (two : (mark, second) ∈ values) : first = second :=
  congrArg Prod.snd (List.inj_on_of_nodup_map marks.distinct one two rfl)

/-- Every text can be filled in. -/
theorem exists_filled (marks : AreMarks values) (text : List Char) :
    ∃ filled, Filled values text filled := by
  induction size : text.length using Nat.strongRecOn generalizing text with
  | ind size ih =>
      subst size
      cases text with
      | nil => exact ⟨[], .nothing⟩
      | cons c rest =>
          by_cases marked : ∃ entry ∈ values, entry.1 <+: c :: rest
          · obtain ⟨⟨mark, value⟩, known, text, split⟩ := marked
            obtain ⟨tail, isMark, -⟩ := (marks.marked _ known).exists_tail
            have shorter : text.length < (c :: rest).length := by
              rw [← split, isMark, List.length_append, List.length_cons]
              omega
            obtain ⟨filled, others⟩ := ih text.length shorter text rfl
            rw [← split]
            exact ⟨_, .mark known others⟩
          · obtain ⟨filled, others⟩ := ih rest.length (Nat.lt_succ_self _) rest rfl
            exact ⟨_, .copied (fun entry known begins => marked ⟨entry, known, begins⟩) others⟩

/-- A text is filled in in one way. -/
theorem Filled.unique {first second : List Char} (marks : AreMarks values)
    (one : Filled values text first) (two : Filled values text second) : first = second := by
  induction one generalizing second with
  | nothing =>
      generalize same : [] = text at two
      cases two with
      | nothing => rfl
      | mark known others =>
          obtain ⟨tail, rfl, -⟩ := (marks.marked _ known).exists_tail
          cases same
      | copied => cases same
  | @mark mark value text filled known others ih =>
      generalize same : mark ++ text = whole at two
      cases two with
      | nothing =>
          obtain ⟨tail, rfl, -⟩ := (marks.marked _ known).exists_tail
          cases same
      | @mark otherMark otherValue rest _ again later =>
          have begins : mark <+: otherMark ++ rest := same ▸ List.prefix_append mark text
          obtain rfl := (marks.marked _ known).eq_of_begins (marks.marked _ again) begins
          obtain rfl := List.append_cancel_left same
          rw [marks.value_unique known again, ih later]
      | copied unmarked => exact absurd (same ▸ List.prefix_append mark text) (unmarked _ known)
  | @copied c text filled unmarked others ih =>
      generalize same : c :: text = whole at two
      cases two with
      | nothing => cases same
      | mark known => exact absurd (same ▸ List.prefix_append _ _) (unmarked _ known)
      | copied _ later =>
          cases same
          rw [ih later]

/-! ## Replacing one kind of mark -/

@[simp] theorem replaceAll_nil : replaceAll mark value [] = [] := rfl

theorem replaceAll_cons {c : Char} (unmarked : ¬ mark <+: c :: text) :
    replaceAll mark value (c :: text) = c :: replaceAll mark value text := by
  have differs : mark.isPrefixOf (c :: text) ≠ true := mt List.isPrefixOf_iff_prefix.mp unmarked
  rw [replaceAll, replaceFrom, if_neg differs]
  rfl

theorem IsMark.replaceAll_append (isMark : IsMark mark) :
    replaceAll mark value (mark ++ text) = value ++ replaceAll mark value text := by
  obtain ⟨tail, rfl, -⟩ := isMark.exists_tail
  exact replaceAll_mark_append

/-- Where no mark begins everything stays. -/
theorem IsMark.replaceAll_append_of_notMem (isMark : IsMark mark) (unopened : '\x7b' ∉ other) :
    replaceAll mark value (other ++ text) = other ++ replaceAll mark value text := by
  induction other with
  | nil => rfl
  | cons c other ih =>
      rw [List.mem_cons, not_or] at unopened
      rw [List.cons_append, replaceAll_cons (isMark.not_prefix_cons (Ne.symm unopened.1)),
        ih unopened.2, List.cons_append]

/-- Other marks stay. -/
theorem IsMark.replaceAll_append_of_ne (isMark : IsMark mark) (isOther : IsMark other)
    (different : mark ≠ other) :
    replaceAll mark value (other ++ text) = other ++ replaceAll mark value text := by
  have unmarked : ¬ mark <+: other ++ text := mt (isMark.eq_of_begins isOther) different
  obtain ⟨tail, rfl, unopened⟩ := isOther.exists_tail
  rw [List.cons_append] at unmarked ⊢
  rw [replaceAll_cons unmarked, isMark.replaceAll_append_of_notMem unopened, List.cons_append]

/-- Replacing a kind of mark and filling in all together go through a text in the same steps. -/
theorem Filled.replaceAll_induction {motive : (text replaced filled : List Char) → Prop}
    (marks : AreMarks ((mark, value) :: values)) (nothing : motive [] [] [])
    (replaced : ∀ {text filled}, Filled ((mark, value) :: values) text filled →
      motive text (replaceAll mark value text) filled →
        motive (mark ++ text) (value ++ replaceAll mark value text) (value ++ filled))
    (kept : ∀ {found put text filled}, (found, put) ∈ values →
      Filled ((mark, value) :: values) text filled →
        motive text (replaceAll mark value text) filled →
          motive (found ++ text) (found ++ replaceAll mark value text) (put ++ filled))
    (copied : ∀ {c text filled}, ¬ mark <+: c :: text →
      (∀ entry ∈ values, ¬ entry.1 <+: c :: text) → Filled ((mark, value) :: values) text filled →
        motive text (replaceAll mark value text) filled →
          motive (c :: text) (c :: replaceAll mark value text) (c :: filled))
    (together : Filled ((mark, value) :: values) text filled) :
    motive text (replaceAll mark value text) filled := by
  obtain ⟨isMark, marked⟩ := List.forall_mem_cons.mp marks.marked
  have distinct : mark ∉ values.map Prod.fst := (List.nodup_cons.mp marks.distinct).1
  induction together with
  | nothing => exact nothing
  | @mark found put text filled known others ih =>
      obtain same | known := List.mem_cons.mp known
      · cases same
        rw [isMark.replaceAll_append]
        exact replaced others ih
      · have listed : found ∈ values.map Prod.fst := List.mem_map_of_mem known
        have different : found ≠ mark := ne_of_mem_of_not_mem listed distinct
        rw [isMark.replaceAll_append_of_ne (marked _ known) different.symm]
        exact kept known others ih
  | @copied c text filled unmarked others ih =>
      obtain ⟨here, elsewhere⟩ := List.forall_mem_cons.mp unmarked
      rw [replaceAll_cons here]
      exact copied here elsewhere others ih

/-! ## Counting marks -/

theorem occurrences_le_append (marks : List (List Char)) (value text : List Char) :
    occurrences marks text ≤ occurrences marks (value ++ text) := by
  induction value with
  | nil => exact le_rfl
  | cons c value ih => exact ih.trans (Nat.le_add_left _ _)

theorem occurrences_cons_of_unmarked {c : Char} (unmarked : ∀ mark ∈ marks, ¬ mark <+: c :: text) :
    occurrences marks (c :: text) = occurrences marks text := by
  have nowhere : ¬ ∃ mark ∈ marks, mark <+: c :: text := by simpa using unmarked
  rw [occurrences, if_neg nowhere, Nat.zero_add]

theorem occurrences_append_of_notMem (marked : ∀ mark ∈ marks, IsMark mark)
    (unopened : ∀ mark ∈ marks, '\x7b' ∉ value) :
    occurrences marks (value ++ text) = occurrences marks text := by
  induction value with
  | nil => rfl
  | cons c value ih =>
      simp only [List.mem_cons, not_or] at unopened
      rw [List.cons_append, occurrences_cons_of_unmarked,
        ih fun mark known => (unopened mark known).2]
      exact fun mark known => (marked mark known).not_prefix_cons (Ne.symm (unopened mark known).1)

/-- A mark counts once. -/
theorem occurrences_mark_append (marked : ∀ mark ∈ marks, IsMark mark) (known : mark ∈ marks) :
    occurrences marks (mark ++ text) = 1 + occurrences marks text := by
  have here : ∃ found ∈ marks, found <+: mark ++ text := ⟨mark, known, List.prefix_append _ _⟩
  obtain ⟨tail, rfl, unopened⟩ := (marked mark known).exists_tail
  rw [List.cons_append] at here ⊢
  rw [occurrences, if_pos here, occurrences_append_of_notMem marked fun _ _ => unopened]

/-- A mark of another kind does not count. -/
theorem occurrences_append_of_other (marked : ∀ mark ∈ marks, IsMark mark) (isOther : IsMark other)
    (unknown : other ∉ marks) : occurrences marks (other ++ text) = occurrences marks text := by
  have unmarked : ∀ mark ∈ marks, ¬ mark <+: other ++ text := fun mark known begins =>
    unknown ((marked mark known).eq_of_begins isOther begins ▸ known)
  obtain ⟨tail, rfl, unopened⟩ := isOther.exists_tail
  rw [List.cons_append] at unmarked ⊢
  rw [occurrences_cons_of_unmarked unmarked,
    occurrences_append_of_notMem marked fun _ _ => unopened]

theorem occurrences_cons_of_copied {c : Char}
    (unmarked : ∀ entry ∈ values, ¬ entry.1 <+: c :: text) :
    occurrences (values.map Prod.fst) (c :: text) = occurrences (values.map Prod.fst) text :=
  occurrences_cons_of_unmarked (List.forall_mem_map.mpr unmarked)

theorem AreMarks.occurrences_append (marks : AreMarks values) (known : (mark, value) ∈ values) :
    occurrences (values.map Prod.fst) (mark ++ text) =
      1 + occurrences (values.map Prod.fst) text :=
  occurrences_mark_append marks.isMark_of_mem (List.mem_map_of_mem known)

theorem AreMarks.occurrences_head_append (marks : AreMarks ((mark, value) :: values)) :
    occurrences (values.map Prod.fst) (mark ++ text) = occurrences (values.map Prod.fst) text :=
  occurrences_append_of_other marks.tail.isMark_of_mem (marks.marked _ List.mem_cons_self)
    (List.nodup_cons.mp marks.distinct).1

/-! ## Filling in after a replacement -/

/-- Replacing a kind of mark leaves the others, and can make further ones. -/
theorem Filled.occurrences_le (marks : AreMarks ((mark, value) :: values))
    (together : Filled ((mark, value) :: values) text filled) :
    occurrences (values.map Prod.fst) text ≤
      occurrences (values.map Prod.fst) (replaceAll mark value text) := by
  refine Filled.replaceAll_induction (motive := fun text replaced _ =>
      occurrences (values.map Prod.fst) text ≤ occurrences (values.map Prod.fst) replaced)
    marks le_rfl ?replaced ?kept ?copied together
  case replaced =>
    intro text _ _ ih
    rw [marks.occurrences_head_append]
    exact ih.trans (occurrences_le_append _ value _)
  case kept =>
    intro found put text _ known _ ih
    rw [marks.tail.occurrences_append known, marks.tail.occurrences_append known]
    exact Nat.add_le_add_left ih 1
  case copied =>
    intro c text _ _ elsewhere _ ih
    rw [occurrences_cons_of_copied elsewhere]
    exact ih.trans (Nat.le_add_left _ _)

/-- Text in which no mark begins is copied. -/
theorem Filled.append_of_occurrences_eq (value : List Char) (others : Filled values text filled)
    (same : occurrences (values.map Prod.fst) (value ++ text) =
      occurrences (values.map Prod.fst) text) :
    Filled values (value ++ text) (value ++ filled) := by
  induction value with
  | nil => exact others
  | cons c value ih =>
      rw [List.cons_append, occurrences] at same
      have later := occurrences_le_append (values.map Prod.fst) value text
      split at same
      · omega
      · rename_i unmarked
        refine .copied (fun entry known begins => unmarked ?_) (ih (by omega))
        exact ⟨entry.1, List.mem_map_of_mem known, begins⟩

/-- Marks can be filled in together after those of one kind have been replaced, if that made no
further marks. -/
theorem Filled.ofReplaced (marks : AreMarks ((mark, value) :: values))
    (together : Filled ((mark, value) :: values) text filled)
    (none : occurrences (values.map Prod.fst) (replaceAll mark value text) =
      occurrences (values.map Prod.fst) text) :
    Filled values (replaceAll mark value text) filled := by
  revert none
  refine Filled.replaceAll_induction (motive := fun text replaced filled =>
      occurrences (values.map Prod.fst) replaced = occurrences (values.map Prod.fst) text →
        Filled values replaced filled)
    marks (fun _ => .nothing) ?replaced ?kept ?copied together
  case replaced =>
    intro text _ others ih none
    rw [marks.occurrences_head_append] at none
    have kept := others.occurrences_le marks
    have more := occurrences_le_append (values.map Prod.fst) value (replaceAll mark value text)
    exact (ih (by omega)).append_of_occurrences_eq value (by omega)
  case kept =>
    intro found put text _ known _ ih none
    rw [marks.tail.occurrences_append known, marks.tail.occurrences_append known] at none
    exact .mark known (ih (Nat.add_left_cancel none))
  case copied =>
    intro c text _ _ elsewhere others ih none
    rw [occurrences_cons_of_copied elsewhere] at none
    have kept := others.occurrences_le marks
    have more := occurrences_le_append (values.map Prod.fst) [c] (replaceAll mark value text)
    rw [List.singleton_append] at more
    exact (ih (by omega)).append_of_occurrences_eq [c] (by rw [List.singleton_append]; omega)

/-! ## Values that make no marks -/

/-- The value cannot become a part of the mark: it holds no brace, and a character that the mark has
not. -/
structure IsInert (value mark : List Char) : Prop where
  unopened : '\x7b' ∉ value
  unclosed : '\x7d' ∉ value
  foreign : ∃ c ∈ value, c ∉ mark

/-- The end of a mark has its closing brace. -/
theorem IsMark.closing_mem (isMark : IsMark mark) {ending : List Char} (part : ending <:+ mark)
    (some : ending ≠ []) : '\x7d' ∈ ending := by
  obtain ⟨word, rfl, -⟩ := isMark
  obtain ⟨before, whole⟩ := part
  have last := congrArg List.getLast? whole
  rw [List.getLast?_append_of_ne_nil _ some, ← List.cons_append, List.getLast?_concat] at last
  exact List.mem_of_getLast? last

/-- A mark that stands after a replacement stood there before, if what was put in is inert. -/
theorem prefix_of_prefix_replaceAll (isMark : IsMark mark) (isOther : IsMark other)
    (inert : IsInert value other) {ending : List Char} (part : ending <:+ other)
    (begins : ending <+: replaceAll mark value text) : ending <+: text := by
  induction ending generalizing text with
  | nil => exact List.nil_prefix
  | cons d ending ih =>
      cases text with
      | nil => exact absurd begins (by simp)
      | cons e text =>
          by_cases here : mark <+: e :: text
          · obtain ⟨rest, split⟩ := here
            rw [← split, isMark.replaceAll_append] at begins
            obtain within | beyond :=
              List.prefix_or_prefix_of_prefix begins (List.prefix_append value _)
            · have closed := isOther.closing_mem part (List.cons_ne_nil _ _)
              exact absurd (within.subset closed) inert.unclosed
            · obtain ⟨c, inside, foreign⟩ := inert.foreign
              exact absurd (part.subset (beyond.subset inside)) foreign
          · rw [replaceAll_cons here] at begins
            obtain ⟨rfl, later⟩ := List.cons_prefix_cons.mp begins
            have rest : ending <:+ other := (List.suffix_cons d ending).trans part
            exact List.cons_prefix_cons.mpr ⟨rfl, ih rest later⟩

/-- An inert value makes no marks. -/
theorem Filled.occurrences_of_inert (marks : AreMarks ((mark, value) :: values))
    (inert : ∀ entry ∈ values, IsInert value entry.1)
    (together : Filled ((mark, value) :: values) text filled) :
    occurrences (values.map Prod.fst) (replaceAll mark value text) =
      occurrences (values.map Prod.fst) text := by
  have isMark := marks.marked _ List.mem_cons_self
  refine Filled.replaceAll_induction (motive := fun text replaced _ =>
      occurrences (values.map Prod.fst) replaced = occurrences (values.map Prod.fst) text)
    marks rfl ?replaced ?kept ?copied together
  case replaced =>
    intro text _ _ ih
    have unopened : ∀ other ∈ values.map Prod.fst, '\x7b' ∉ value :=
      List.forall_mem_map.mpr fun entry known => (inert entry known).unopened
    rw [occurrences_append_of_notMem marks.tail.isMark_of_mem unopened, ih,
      marks.occurrences_head_append]
  case kept =>
    intro found put text _ known _ ih
    rw [marks.tail.occurrences_append known, marks.tail.occurrences_append known, ih]
  case copied =>
    intro c text _ here elsewhere _ ih
    rw [occurrences_cons_of_copied elsewhere, occurrences_cons_of_copied, ih]
    intro entry known begins
    rw [← replaceAll_cons here] at begins
    exact elsewhere entry known (prefix_of_prefix_replaceAll isMark (marks.tail.marked entry known)
      (inert entry known) List.suffix_rfl begins)

/-- Marks can be filled in together after those of one kind have been replaced by an inert value. -/
theorem Filled.ofInert (marks : AreMarks ((mark, value) :: values))
    (inert : ∀ entry ∈ values, IsInert value entry.1)
    (together : Filled ((mark, value) :: values) text filled) :
    Filled values (replaceAll mark value text) filled :=
  together.ofReplaced marks (together.occurrences_of_inert marks inert)

/-- Without marks everything is copied. -/
theorem Filled.eq_of_nil (copied : Filled [] text filled) : filled = text := by
  induction copied with
  | nothing => rfl
  | mark known => cases known
  | copied _ _ ih => rw [ih]

/-- Replacing the marks one kind after the other fills them in together, if no value can become a
part of a later mark. -/
theorem filled_foldl (marks : AreMarks values)
    (inert : values.Pairwise fun earlier later => IsInert earlier.2 later.1) (text : List Char) :
    Filled values text (values.foldl (fun text entry => replaceAll entry.1 entry.2 text) text) := by
  induction values generalizing text with
  | nil =>
      obtain ⟨filled, copied⟩ := exists_filled marks text
      rwa [copied.eq_of_nil] at copied
  | cons entry values ih =>
      obtain ⟨first, others⟩ := List.pairwise_cons.mp inert
      obtain ⟨filled, together⟩ := exists_filled marks text
      have later := ih marks.tail others (replaceAll entry.1 entry.2 text)
      have same := later.unique marks.tail (together.ofInert marks first)
      rw [List.foldl_cons, same]
      exact together

theorem filled_replaceAll (isMark : IsMark mark) (value text : List Char) :
    Filled [(mark, value)] text (replaceAll mark value text) :=
  filled_foldl ⟨by simpa using isMark, by simp⟩ (List.pairwise_singleton _ _) text

/-! ## Opening braces -/

theorem IsMark.count_opening (isMark : IsMark mark) : mark.count '\x7b' = 1 := by
  obtain ⟨tail, rfl, unopened⟩ := isMark.exists_tail
  rw [List.count_cons_self, List.count_eq_zero_of_not_mem unopened]

/-- Each mark that is filled in takes an opening brace from the text. -/
theorem Filled.count_opening (marks : AreMarks values)
    (plain : ∀ entry ∈ values, '\x7b' ∉ entry.2) (together : Filled values text filled) :
    filled.count '\x7b' + occurrences (values.map Prod.fst) text = text.count '\x7b' := by
  induction together with
  | nothing => rfl
  | @mark mark value text filled known _ ih =>
      rw [List.count_append, List.count_append, (marks.marked _ known).count_opening,
        List.count_eq_zero_of_not_mem (plain _ known), marks.occurrences_append known]
      omega
  | copied unmarked _ ih =>
      rw [occurrences_cons_of_copied unmarked, List.count_cons, List.count_cons]
      omega

/-- Each mark that is filled in takes an opening brace from what the replacement has left. -/
theorem Filled.count_opening_replaceAll (marks : AreMarks ((mark, value) :: values))
    (plain : ∀ entry ∈ values, '\x7b' ∉ entry.2)
    (together : Filled ((mark, value) :: values) text filled) :
    filled.count '\x7b' + occurrences (values.map Prod.fst) text =
      (replaceAll mark value text).count '\x7b' := by
  refine Filled.replaceAll_induction (motive := fun text replaced filled =>
      filled.count '\x7b' + occurrences (values.map Prod.fst) text = replaced.count '\x7b')
    marks rfl ?replaced ?kept ?copied together
  case replaced =>
    intro text _ _ ih
    rw [marks.occurrences_head_append, List.count_append, List.count_append]
    omega
  case kept =>
    intro found put text _ known _ ih
    rw [marks.tail.occurrences_append known, List.count_append, List.count_append,
      List.count_eq_zero_of_not_mem (plain _ known), (marks.tail.marked _ known).count_opening]
    omega
  case copied =>
    intro c text _ _ elsewhere _ ih
    rw [occurrences_cons_of_copied elsewhere, List.count_cons, List.count_cons]
    omega

/-- Replacing a kind of mark before the others are filled in together is the same as filling in all
together exactly if it makes no marks, where the others' values hold no opening brace. -/
theorem Filled.ofReplaced_iff (marks : AreMarks ((mark, value) :: values))
    (plain : ∀ entry ∈ values, '\x7b' ∉ entry.2)
    (together : Filled ((mark, value) :: values) text filled) :
    Filled values (replaceAll mark value text) filled ↔
      occurrences (values.map Prod.fst) (replaceAll mark value text) =
        occurrences (values.map Prod.fst) text := by
  refine ⟨fun later => ?_, together.ofReplaced marks⟩
  have before := together.count_opening_replaceAll marks plain
  have after := later.count_opening marks.tail plain
  omega

end TilePyramid.Text
