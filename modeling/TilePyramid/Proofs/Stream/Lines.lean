import TilePyramid.Proofs.Stream.Readout

/-!
# Tile lists line by line

A tile list is read up to its first line that is no text or names no tile. What lines name is told
here by a relation between lines and tiles that does not read them one after the other. Main
statements: `Text.cut_lines`, `TileList.readUpTo_readFrom` and
`tile_list_is_read_to_its_first_bad_line`.
-/

set_option autoImplicit false

namespace TilePyramid

open Text.Utf8 (Bytes)

namespace Text

/-- A text is cut behind each of its line feeds, and nowhere else. -/
structure Cut (text : Bytes) (lines : List Bytes) : Prop where
  whole : lines.flatten = text
  nonempty : ∀ line ∈ lines, line ≠ []
  undivided : ∀ line ∈ lines, lineFeed ∉ line.dropLast
  complete : ∀ line ∈ lines.dropLast, isComplete line = true

theorem ne_nil_of_mem_linesFrom {begun text line : Bytes} (member : line ∈ linesFrom begun text) :
    line ≠ [] := by
  induction text generalizing begun with
  | nil =>
      by_cases nothing : begun = []
      · simp [linesFrom, nothing] at member
      · simp only [linesFrom, if_neg nothing, List.mem_singleton] at member
        simpa [member] using nothing
  | cons byte rest ih =>
      by_cases ends : byte = lineFeed
      · simp only [linesFrom, if_pos ends, List.mem_cons] at member
        obtain rfl | later := member
        · simp
        · exact ih later
      · simp only [linesFrom, if_neg ends] at member
        exact ih member

theorem lineFeed_notMem_of_mem_linesFrom {begun text line : Bytes} (unended : lineFeed ∉ begun)
    (member : line ∈ linesFrom begun text) : lineFeed ∉ line.dropLast := by
  induction text generalizing begun with
  | nil =>
      by_cases nothing : begun = []
      · simp [linesFrom, nothing] at member
      · simp only [linesFrom, if_neg nothing, List.mem_singleton] at member
        subst member
        exact fun inside => unended (List.mem_reverse.mp (List.dropLast_subset _ inside))
  | cons byte rest ih =>
      by_cases ends : byte = lineFeed
      · simp only [linesFrom, if_pos ends, List.mem_cons] at member
        obtain rfl | later := member
        · simpa using unended
        · exact ih List.not_mem_nil later
      · simp only [linesFrom, if_neg ends] at member
        exact ih (by simp [unended, Ne.symm ends]) member

theorem isComplete_of_mem_dropLast_linesFrom {begun text line : Bytes}
    (member : line ∈ (linesFrom begun text).dropLast) : isComplete line = true := by
  induction text generalizing begun with
  | nil => by_cases nothing : begun = [] <;> simp [linesFrom, nothing] at member
  | cons byte rest ih =>
      by_cases ends : byte = lineFeed
      · simp only [linesFrom, if_pos ends] at member
        cases others : linesFrom [] rest with
        | nil => simp [others] at member
        | cons next more =>
            rw [others, List.dropLast_cons_cons, ← others, List.mem_cons] at member
            obtain rfl | later := member
            · simp [isComplete, ends]
            · exact ih later
      · simp only [linesFrom, if_neg ends] at member
        exact ih member

theorem cut_lines (text : Bytes) : Cut text (lines text) where
  whole := flatten_lines text
  nonempty _ member := ne_nil_of_mem_linesFrom member
  undivided _ member := lineFeed_notMem_of_mem_linesFrom List.not_mem_nil member
  complete _ member := isComplete_of_mem_dropLast_linesFrom member

theorem trim_eq_nil_iff {text : List Char} : trim text = [] ↔ ∀ c ∈ text, isBlank c = true := by
  constructor
  · intro nothing
    have start : trimStart text = [] := by
      cases kept : trimStart text with
      | nil => rfl
      | cons first rest =>
          have blank : isBlank first = true := by
            have all : ∀ c ∈ (trimStart text).reverse, isBlank c = true :=
              trimStart_eq_nil_iff.mp (List.reverse_eq_nil_iff.mp nothing)
            exact all first (by simp [kept])
          have solid := List.head?_dropWhile_not isBlank text
          rw [show text.dropWhile isBlank = first :: rest from kept] at solid
          simp [blank] at solid
    exact trimStart_eq_nil_iff.mp start
  · intro blank
    simp [trim, trimEnd, trimStart_eq_nil_iff.mpr blank]

theorem trim_ne_nil {text : List Char} (solid : ∃ c ∈ text, isBlank c = false) :
    trim text ≠ [] := by
  intro nothing
  obtain ⟨c, member, solid⟩ := solid
  have blank : isBlank c = true := trim_eq_nil_iff.mp nothing c member
  exact Bool.noConfusion (solid.symm.trans blank)

end Text

namespace TileList

variable {format : NameFormat} {line : Bytes} {lines : List Bytes} {tile : Tile} {tiles : List Tile}
  {reason : String}

/-- The line holds blank characters only. -/
def IsBlank (line : Bytes) : Prop :=
  ∃ text, Text.Utf8.decodeFrom 0 .between line = .ok text ∧ ∀ c ∈ text, Text.isBlank c = true

/-- The line is the name of the tile, up to blanks around it. -/
def IsName (format : NameFormat) (line : Bytes) (tile : Tile) : Prop :=
  ∃ text, Text.Utf8.decodeFrom 0 .between line = .ok text ∧
    (∃ c ∈ text, Text.isBlank c = false) ∧ format.readTile text = .ok tile

/-- The line is no text, or it is not blank and names no tile. -/
inductive IsFaulty (format : NameFormat) (line : Bytes) : (reason : String) → Prop where
  | undecodable {fault : Text.Utf8.Fault}
      (undecoded : Text.Utf8.decodeFrom 0 .between line = .error fault) :
      IsFaulty format line fault.message
  | nameless {text : List Char} {fault : NameFormat.NameFault}
      (decoded : Text.Utf8.decodeFrom 0 .between line = .ok text)
      (solid : ∃ c ∈ text, Text.isBlank c = false) (unread : format.readTile text = .error fault) :
      IsFaulty format line (Error.invalidTileName fault.message).message

/-- Each of the lines is blank or names a tile, and these are the tiles. -/
inductive Names (format : NameFormat) : List Bytes → List Tile → Prop where
  | nothing : Names format [] []
  | blank {line : Bytes} {lines : List Bytes} {tiles : List Tile}
      (blank : IsBlank line) (others : Names format lines tiles) :
      Names format (line :: lines) tiles
  | tile {line : Bytes} {lines : List Bytes} {tile : Tile} {tiles : List Tile}
      (name : IsName format line tile) (others : Names format lines tiles) :
      Names format (line :: lines) (tile :: tiles)

theorem IsBlank.readLine_eq (blank : IsBlank line) : readLine format line = .blank := by
  obtain ⟨text, decoded, blank⟩ := blank
  simp only [readLine, decoded, if_pos (Text.trim_eq_nil_iff.mpr blank)]

theorem IsName.readLine_eq (name : IsName format line tile) :
    readLine format line = .tile tile := by
  obtain ⟨text, decoded, solid, read⟩ := name
  simp only [readLine, decoded, if_neg (Text.trim_ne_nil solid), read]

theorem IsFaulty.readLine_eq (faulty : IsFaulty format line reason) :
    readLine format line = .bad reason := by
  cases faulty with
  | undecodable undecoded => simp only [readLine, undecoded]
  | nameless decoded solid unread =>
      simp only [readLine, decoded, if_neg (Text.trim_ne_nil solid), unread]

/-- Every line is blank, names a tile or is faulty. -/
theorem line_cases (format : NameFormat) (line : Bytes) :
    IsBlank line ∨ (∃ tile, IsName format line tile) ∨ ∃ reason, IsFaulty format line reason := by
  cases decoded : Text.Utf8.decodeFrom 0 .between line with
  | error fault => exact .inr (.inr ⟨_, .undecodable decoded⟩)
  | ok text =>
      by_cases blank : ∀ c ∈ text, Text.isBlank c = true
      · exact .inl ⟨text, decoded, blank⟩
      · have solid : ∃ c ∈ text, Text.isBlank c = false := by simpa using blank
        cases read : format.readTile text with
        | ok tile => exact .inr (.inl ⟨tile, text, decoded, solid, read⟩)
        | error fault => exact .inr (.inr ⟨_, .nameless decoded solid read⟩)

/-- Lines that name tiles are not faulty. -/
theorem Names.faultless (names : Names format lines tiles) :
    ∀ line ∈ lines, ∀ reason, ¬ IsFaulty format line reason := by
  induction names with
  | nothing => nofun
  | blank blank others ih =>
      refine List.forall_mem_cons.mpr ⟨fun reason faulty => ?_, ih⟩
      exact Line.noConfusion (blank.readLine_eq.symm.trans faulty.readLine_eq)
  | tile name others ih =>
      refine List.forall_mem_cons.mpr ⟨fun reason faulty => ?_, ih⟩
      exact Line.noConfusion (name.readLine_eq.symm.trans faulty.readLine_eq)

/-- What lines come to after so many others: the tiles of all of them, or of those before the first
faulty line, whose number is told. -/
inductive ReadUpTo (format : NameFormat) (number : Nat) : List Bytes → List Tile → Option Error → Prop
  where
  | whole {lines : List Bytes} {tiles : List Tile} (names : Names format lines tiles) :
      ReadUpTo format number lines tiles none
  | broken {before after : List Bytes} {bad : Bytes} {tiles : List Tile} {reason : String}
      (names : Names format before tiles) (faulty : IsFaulty format bad reason) :
      ReadUpTo format number (before ++ bad :: after) tiles
        (some (.badListLine (number + before.length + 1) reason))

/-- The error of a list tells a line. -/
theorem ReadUpTo.error_eq {number : Nat} {failure : Option Error} {error : Error}
    (reading : ReadUpTo format number lines tiles failure) (failed : failure = some error) :
    ∃ position reason, error = .badListLine position reason := by
  cases reading with
  | whole names => cases failed
  | broken names faulty =>
      cases failed
      exact ⟨_, _, rfl⟩

/-- A line that is not faulty is read before the others. -/
theorem ReadUpTo.cons {number : Nat} {failure : Option Error} {add : List Tile → List Tile}
    (adds : ∀ {lines tiles}, Names format lines tiles → Names format (line :: lines) (add tiles))
    (others : ReadUpTo format (number + 1) lines tiles failure) :
    ReadUpTo format number (line :: lines) (add tiles) failure := by
  cases others with
  | whole names => exact .whole (adds names)
  | @broken before after bad tiles reason names faulty =>
      have position : number + 1 + before.length + 1 = number + (line :: before).length + 1 := by
        rw [List.length_cons]
        omega
      rw [position]
      exact .broken (adds names) faulty

theorem readUpTo_readFrom (format : NameFormat) (number : Nat) (lines : List Bytes) :
    ReadUpTo format number lines (readFrom format .finished number lines).1
      (readFrom format .finished number lines).2 := by
  induction lines generalizing number with
  | nil => exact .whole .nothing
  | cons line rest ih =>
      obtain blank | ⟨tile, name⟩ | ⟨reason, faulty⟩ := line_cases format line
      · simp only [readFrom, blank.readLine_eq]
        exact .cons (.blank blank) (ih (number + 1))
      · simp only [readFrom, name.readLine_eq]
        exact .cons (.tile name) (ih (number + 1))
      · simp only [readFrom, faulty.readLine_eq]
        exact @ReadUpTo.broken format number [] rest line [] reason .nothing faulty

end TileList

/-- The tiles that a named tile stands for, level by level. -/
theorem Expansion.tiles_eq (expansion : Expansion) (tile : Tile) :
    expansion.tiles tile =
      if expansion.explicit = true ∨ expansion.zooms.levels = [] then [tile]
      else expansion.zooms.levels.flatMap fun level => (tile.family level).tiles := by
  have explicit : expansion.isExplicit = true ↔
      expansion.explicit = true ∨ expansion.zooms.levels = [] := by
    rw [isExplicit, Bool.or_eq_true, ZoomRange.isEmpty_iff]
  split
  · next named => exact tiles_of_isExplicit (explicit.mpr named) tile
  · next named => rw [tiles, blocks, if_neg (mt explicit.mp named), List.flatMap_map]

namespace Session

/-- A tile list is read completely, line by line, up to its first bad line. -/
theorem tile_list_is_read_to_its_first_bad_line (text : Bytes) (format : NameFormat)
    (expansion : Expansion) (targets : List String) :
    Text.Cut text (Text.lines text) ∧
    expansion.zooms.levels.Pairwise (· < ·) ∧
    (∃ events last, ReadOut ((TileList.ofBytes text).generate format expansion targets) events last ∧
      (start ((TileList.ofBytes text).generate format expansion targets) false).takeAll =
        (events.flatMap Event.receivedItems, last)) ∧
    ∀ events last, ReadOut ((TileList.ofBytes text).generate format expansion targets) events last →
      ∃ tiles,
        events.flatMap Event.receivedItems =
          tiles.flatMap (fun named =>
            (if expansion.explicit = true ∨ expansion.zooms.levels = [] then [named]
            else expansion.zooms.levels.flatMap fun level => (named.family level).tiles).flatMap
              fun tile => targets.map fun map => .job ⟨map, tile⟩) ∧
        ((TileList.Names format (Text.lines text) tiles ∧
            (∀ line ∈ Text.lines text, ∀ reason, ¬ TileList.IsFaulty format line reason) ∧
            last.heldError = none) ∨
          ∃ before bad after reason, Text.lines text = before ++ bad :: after ∧
            TileList.Names format before tiles ∧
            (∀ line ∈ before, ∀ reason, ¬ TileList.IsFaulty format line reason) ∧
            TileList.IsFaulty format bad reason ∧
            last.heldError = some (.badListLine (before.length + 1) reason)) := by
  have gives := @TileList.gives_generateFrom .finished nofun format expansion targets 0
    (Text.lines text)
  refine ⟨Text.cut_lines text, expansion.zooms.pairwise_lt_levels, exists_readOut gives.waits, ?_⟩
  intro events last out
  have received := out.received_eq.trans gives.offers_eq
  have held := out.heldError_eq.trans gives.failure?_eq
  refine ⟨(TileList.readFrom format .finished 0 (Text.lines text)).1, ?_, ?_⟩
  · simp only [Expansion.tiles_eq] at received
    exact received
  · have reading := TileList.readUpTo_readFrom format 0 (Text.lines text)
    rw [← held] at reading
    generalize Text.lines text = lines, last.heldError = failure at reading ⊢
    cases reading with
    | whole names => exact .inl ⟨names, names.faultless, rfl⟩
    | @broken before after bad _ reason names faulty =>
        refine .inr ⟨before, bad, after, reason, rfl, names, names.faultless, faulty, ?_⟩
        rw [Nat.zero_add]

/-- The lines `0/0/0`, `bad` and `1/0/0`. -/
def sampleLines : Bytes :=
  [48, 47, 48, 47, 48, 10, 98, 97, 100, 10, 49, 47, 48, 47, 48, 10]

theorem second_line_ends_the_list :
    ∃ events last reason,
      ReadOut ((TileList.ofBytes sampleLines).generate .slashes { explicit := true } ["a", "b"])
        events last ∧
      events.flatMap Event.receivedItems = [.job ⟨"a", ⟨0, 0, 0⟩⟩, .job ⟨"b", ⟨0, 0, 0⟩⟩] ∧
      last.heldError = some (.badListLine 2 reason) := by
  have lines : Text.lines sampleLines =
      [[48, 47, 48, 47, 48, 10], [98, 97, 100, 10], [49, 47, 48, 47, 48, 10]] := by decide
  have first : TileList.IsName .slashes [48, 47, 48, 47, 48, 10] ⟨0, 0, 0⟩ :=
    ⟨['0', '/', '0', '/', '0', '\n'], rfl, ⟨'0', .head _, rfl⟩, rfl⟩
  have second : ∃ reason, TileList.IsFaulty .slashes [98, 97, 100, 10] reason := by
    cases read : NameFormat.slashes.readTile ['b', 'a', 'd', '\n'] with
    | ok tile => cases read
    | error fault => exact ⟨_, .nameless rfl ⟨'b', .head _, rfl⟩ read⟩
  obtain ⟨reason, faulty⟩ := second
  obtain ⟨-, -, ⟨events, last, out, -⟩, complete⟩ :=
    tile_list_is_read_to_its_first_bad_line sampleLines .slashes { explicit := true } ["a", "b"]
  obtain ⟨tiles, received, ⟨-, faultless, -⟩ | ⟨before, bad, after, reason, split, names, faultless,
    ends, held⟩⟩ := complete events last out
  · exact absurd faulty (faultless _ (by simp [lines]) _)
  · rw [lines] at split
    match before, split with
    | [], split =>
        cases split
        exact TileList.Line.noConfusion (first.readLine_eq.symm.trans ends.readLine_eq)
    | [_], split =>
        cases split
        cases names with
        | blank blank _ =>
            exact TileList.Line.noConfusion (first.readLine_eq.symm.trans blank.readLine_eq)
        | tile name others =>
            cases others
            cases first.readLine_eq.symm.trans name.readLine_eq
            exact ⟨events, last, reason, out, by simpa using received, held⟩
    | _ :: other :: _, split =>
        simp only [List.cons_append, List.cons.injEq] at split
        obtain ⟨-, rfl, -⟩ := split
        exact absurd faulty (faultless _ (by simp) _)

end Session

end TilePyramid
