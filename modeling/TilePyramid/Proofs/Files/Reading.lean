import TilePyramid.Proofs.Files.Sound

/-!
# What is read along a way down

In a tree as it is on a disk, what names that lead down come to is known from what lies at their end
and which files are on the way. A path has a footing where its last step up leads to a directory:
from there on its names lead down. Main statements: `readAlong_congr` and `Sound.exists_footing`.
-/

set_option autoImplicit false

namespace TilePyramid.Files.Tree

open Text.Utf8 (Bytes)
open TilePyramid.Files.Path (names busy)

variable {tree other : Tree} {location target place : Location} {way front down : List String}
  {name : String} {path : Path} {fault : Fault}

/-! ## Reading along names -/

/-- What is read of a place by what lies there. -/
def told : Option Node → Except Fault Bytes
  | some (.file content) => .ok content
  | some .directory => .error .isADirectory
  | none => .error .notFound

/-- What is read where names lead from a location. -/
def readAlong (tree : Tree) (location : Location) (way : List String) : Except Fault Bytes :=
  (tree.follow location way).bind fun place => told (tree.node? place)

theorem read_eq_readAlong (whole : '\x00' ∉ path.toList) (some : path.toList ≠ []) :
    tree.read path = tree.readAlong (tree.start path) (names path) := by
  rw [read, locate, if_neg whole, if_neg some, readAlong]
  cases tree.follow (tree.start path) (names path) with
  | error fault => rfl
  | ok place =>
      simp only [bind, Except.bind]
      rcases tree.node? place with _ | ⟨_⟩ | _ <;> rfl

theorem read_of_nul (nul : '\x00' ∈ path.toList) : tree.read path = .error .nulInName := by
  rw [read, locate, if_pos nul]
  rfl

theorem readAlong_append (tree : Tree) (location : Location) (way further : List String) :
    tree.readAlong location (way ++ further) =
      (tree.follow location way).bind (tree.readAlong · further) := by
  rw [readAlong, follow_append]
  cases tree.follow location way <;> rfl

theorem fault_of_follow (failed : tree.follow location way = .error fault) :
    fault = .notADirectory ∨ fault = .notFound := by
  induction way generalizing location with
  | nil => cases failed
  | cons name rest ih =>
      simp only [follow] at failed
      split at failed
      · exact ih failed
      · cases failed
        exact .inl rfl
      · cases failed
        exact .inr rfl

theorem foldl_enter_of_down (level : ".." ∉ way) :
    way.foldl enter location = location ++ busy way := by
  induction way generalizing location with
  | nil => simp [busy]
  | cons name rest ih =>
      rw [List.mem_cons, not_or] at level
      rw [List.foldl_cons, ih level.2]
      cases idle : Path.isIdle name with
      | true => rw [enter_of_idle idle, busy_cons_of_idle idle]
      | false =>
          rw [enter_of_busy idle (Ne.symm level.1), busy_cons_of_busy idle, List.append_assoc]

/-- What is no directory is a file before the end of the names. -/
theorem exists_file_of_follow (failed : tree.follow location way = .error .notADirectory)
    (level : ".." ∉ way) : ∃ front rest content, way = front ++ rest ∧ rest ≠ [] ∧
      tree.node? (location ++ busy front) = some (.file content) := by
  induction way generalizing location with
  | nil => cases failed
  | cons name rest ih =>
      rw [List.mem_cons, not_or] at level
      simp only [follow] at failed
      split at failed
      · obtain ⟨front, others, content, rfl, some, file⟩ := ih failed level.2
        refine ⟨name :: front, others, content, rfl, some, ?_⟩
        cases idle : Path.isIdle name with
        | true => rwa [busy_cons_of_idle idle, ← enter_of_idle idle location]
        | false =>
            rwa [busy_cons_of_busy idle, ← List.append_assoc,
              ← enter_of_busy idle (Ne.symm level.1) location]
      · next content found => exact ⟨[], name :: rest, content, rfl, by simp, by simpa [busy]⟩
      · cases failed

/-- All places before the end of names that lead somewhere are directories. -/
theorem directory_of_follow (reached : tree.follow location way = .ok target)
    (directory : tree.node? target = some .directory) (above : front <+: way) :
    tree.node? (front.foldl enter location) = some .directory := by
  obtain ⟨rest, rfl⟩ := above
  rw [follow_append] at reached
  cases led : tree.follow location front with
  | error fault =>
      rw [led] at reached
      cases reached
  | ok between =>
      rw [led] at reached
      rw [← eq_foldl_of_follow led]
      cases rest with
      | nil =>
          cases reached
          exact directory
      | cons name others =>
          simp only [Except.bind, follow] at reached
          split at reached
          · next found => exact found
          · cases reached
          · cases reached

section Down

variable (level : ".." ∉ way) (moves : Path.isIdle name = false) (stays : name ≠ "..")
include level moves stays

theorem busy_append_singleton :
    ".." ∉ way ++ [name] ∧ busy (way ++ [name]) = busy way ++ [name] := by
  constructor
  · simp [level, stays.symm]
  · simp [busy, moves]

/-- Nothing is read beyond a file. -/
theorem readAlong_of_file {content : Bytes} (closed : tree.Closed)
    (passed : OnWay location (busy way) place) (file : tree.node? place = some (.file content)) :
    tree.readAlong location (way ++ [name]) = .error .notADirectory := by
  obtain ⟨front, above, rfl⟩ := passed
  obtain ⟨down, longer⟩ := busy_append_singleton level moves stays
  have other : front ≠ busy (way ++ [name]) := by
    rintro rfl
    have length := above.length_le
    rw [longer, List.length_append, List.length_singleton] at length
    omega
  have early : front <+: busy (way ++ [name]) := longer ▸ above.trans (List.prefix_append _ _)
  have followed : tree.follow location (way ++ [name]) = .error .notADirectory := by
    refine follow_of_file down early other ?_ file
    rintro _ ⟨first, before, rfl⟩ different
    exact closed.directory_of_prefix (by simp [file]) ((List.prefix_append_right_inj _).mpr before)
      different
  rw [readAlong, followed]
  rfl

/-- What is there is reached. -/
theorem readAlong_of_node {node : Node} (closed : tree.Closed)
    (found : tree.node? (location ++ (busy way ++ [name])) = some node) :
    tree.readAlong location (way ++ [name]) = told (some node) := by
  rw [← List.append_assoc] at found
  have parent : tree.node? (location ++ busy way) = some .directory :=
    closed _ name (by rw [found]; nofun)
  have reached : tree.follow location way = .ok (location ++ busy way) := by
    refine follow_of_directories level ?_
    rintro _ ⟨front, above, rfl⟩
    by_cases ends : front = busy way
    · rwa [ends]
    · refine closed.directory_of_prefix (by simp [parent])
        ((List.prefix_append_right_inj _).mpr above) ?_
      exact fun same => ends (List.append_cancel_left same)
  rw [readAlong_append, reached]
  simp only [Except.bind, readAlong, follow, parent, enter_of_busy moves stays, found]

/-- Nothing is found where there is nothing and no file is on the way. -/
theorem readAlong_of_missing (missing : tree.node? (location ++ (busy way ++ [name])) = none)
    (free : tree.Passable location (busy way)) :
    tree.readAlong location (way ++ [name]) = .error .notFound := by
  obtain ⟨down, longer⟩ := busy_append_singleton level moves stays
  cases reached : tree.follow location (way ++ [name]) with
  | ok end? =>
      rw [readAlong, reached, eq_foldl_of_follow reached, foldl_enter_of_down down, longer]
      simp only [Except.bind, missing, told]
  | error fault =>
      rcases fault_of_follow reached with rfl | rfl
      · obtain ⟨front, rest, content, split, some, file⟩ := exists_file_of_follow reached down
        obtain ⟨others, last, rfl⟩ := List.eq_nil_or_concat rest |>.resolve_left some
        rw [List.concat_eq_append, ← List.append_assoc] at split
        obtain ⟨rfl, -⟩ := List.append_inj' split rfl
        have passed : OnWay location (busy (front ++ others)) (location ++ busy front) :=
          ⟨busy front, by simp [busy], rfl⟩
        exact absurd file (free _ passed content)
      · rw [readAlong, reached]
        rfl

/-- Two trees in which the same lies at the end of names that lead down, and the same files are on
the way, are read alike. -/
theorem readAlong_congr (closed : tree.Closed) (closedOther : other.Closed)
    (ends : other.node? (location ++ (busy way ++ [name])) =
      tree.node? (location ++ (busy way ++ [name])))
    (files : ∀ place, OnWay location (busy way) place → ∀ content,
      other.node? place = some (.file content) ↔ tree.node? place = some (.file content)) :
    other.readAlong location (way ++ [name]) = tree.readAlong location (way ++ [name]) := by
  by_cases free : tree.Passable location (busy way)
  · have freeOther : other.Passable location (busy way) := fun place passed content file =>
      free place passed content ((files place passed content).mp file)
    cases found : tree.node? (location ++ (busy way ++ [name])) with
    | none =>
        rw [readAlong_of_missing level moves stays found free,
          readAlong_of_missing level moves stays (ends.trans found) freeOther]
    | some node =>
        rw [readAlong_of_node level moves stays closed found,
          readAlong_of_node level moves stays closedOther (ends.trans found)]
  · simp only [Passable, not_forall, not_not] at free
    obtain ⟨place, passed, content, file⟩ := free
    have fileOther := (files place passed content).mpr file
    rw [readAlong_of_file level moves stays closed passed file,
      readAlong_of_file level moves stays closedOther passed fileOther]

end Down

/-! ## Paths that lead up -/

/-- The path leads up out of no directory that is missing. -/
def Steady (tree : Tree) (path : Path) : Prop :=
  ∀ front rest, names path = front ++ ".." :: rest →
    tree.follow (tree.start path) (front ++ [".."]) ≠ .error .notFound

theorem steady_of_down (level : ".." ∉ names path) : tree.Steady path := by
  intro front rest split
  exact absurd (by simp [split]) level

theorem follow_of_not_steady (unsteady : ¬ tree.Steady path) :
    tree.follow (tree.start path) (names path) = .error .notFound := by
  simp only [Steady, not_forall, not_not] at unsteady
  obtain ⟨front, rest, split, missing⟩ := unsteady
  rw [split, List.append_cons, follow_append, missing]
  rfl

/-- The first names of a path lead to a directory, and its other names lead down. -/
structure Footing (tree : Tree) (path : Path) (front down : List String) (location : Location) :
    Prop where
  split : names path = front ++ down
  level : ".." ∉ down
  reached : tree.follow (tree.start path) front = .ok location
  directory : tree.node? location = some .directory

theorem exists_split (way : List String) :
    ∃ front down, way = front ++ down ∧ ".." ∉ down ∧
      (front = [] ∨ ∃ first, front = first ++ [".."]) := by
  induction way using List.reverseRecOn with
  | nil => exact ⟨[], [], rfl, by simp, .inl rfl⟩
  | append_singleton way name ih =>
      by_cases up : name = ".."
      · exact ⟨way ++ [name], [], by simp, by simp, .inr ⟨way, by rw [up]⟩⟩
      · obtain ⟨front, down, rfl, level, last⟩ := ih
        exact ⟨front, down ++ [name], by simp, by simp [level, Ne.symm up], last⟩

/-- A steady path has a footing, unless a file is in its way. -/
theorem Sound.exists_footing (sound : tree.Sound) (steady : tree.Steady path)
    (free : tree.follow (tree.start path) (names path) ≠ .error .notADirectory) :
    ∃ front down location, tree.Footing path front down location := by
  obtain ⟨front, down, split, level, last⟩ := exists_split (names path)
  rcases last with rfl | ⟨first, rfl⟩
  · exact ⟨[], down, _, split, level, rfl, sound.node?_start path⟩
  · have there := steady first down (by simp [split])
    cases reached : tree.follow (tree.start path) (first ++ [".."]) with
    | error fault =>
        rcases fault_of_follow reached with rfl | rfl
        · rw [split, follow_append, reached] at free
          exact absurd rfl free
        · exact absurd reached there
    | ok location =>
        refine ⟨_, down, location, split, level, reached, ?_⟩
        rw [follow_append] at reached
        cases led : tree.follow (tree.start path) first with
        | error fault =>
            rw [led] at reached
            cases reached
        | ok inner =>
            rw [led] at reached
            obtain ⟨directory, rfl⟩ := follow_singleton reached
            exact sound.closed.dropLast directory

namespace Footing

theorem mono (footing : tree.Footing path front down location) (more : tree.DirectoriesIn other) :
    other.Footing path front down location where
  split := footing.split
  level := footing.level
  reached := by
    rw [start, ← more.home, ← start]
    exact more.follow footing.reached
  directory := more.kept _ footing.directory

theorem lands (footing : tree.Footing path front down location) :
    tree.lands path = location ++ busy down := by
  rw [Tree.lands, footing.split, List.foldl_append, ← eq_foldl_of_follow footing.reached,
    foldl_enter_of_down footing.level]

/-- A place that a path passes is a directory, or not deeper than where the path leads. -/
theorem onRoute (footing : tree.Footing path front down location)
    (passed : tree.OnRoute path place) : tree.node? place = some .directory ∨
      place.length ≤ (tree.lands path).length := by
  obtain ⟨taken, above, rfl⟩ := passed
  rw [footing.split] at above
  rcases List.prefix_or_prefix_of_prefix above (List.prefix_append front down) with early | late
  · exact .inl (directory_of_follow footing.reached footing.directory early)
  · obtain ⟨rest, rfl⟩ := late
    have within : rest <+: down := (List.prefix_append_right_inj front).mp above
    have level : ".." ∉ rest := fun up => footing.level (within.subset up)
    have shorter : busy rest <+: busy down := within.filter _
    right
    rw [footing.lands, List.foldl_append, ← eq_foldl_of_follow footing.reached,
      foldl_enter_of_down level, List.length_append, List.length_append]
    exact Nat.add_le_add_left shorter.length_le _

end Footing

/-- Nothing is made on a way that a file is in. -/
theorem makeAlong_of_file (created : Bool) (directory : tree.node? location = some .directory)
    (failed : tree.follow location way = .error .notADirectory) :
    ∃ fault, tree.makeAlong created location way = (some fault, tree) := by
  induction way generalizing location with
  | nil => cases failed
  | cons name rest ih =>
      simp only [follow, directory] at failed
      simp only [makeAlong]
      cases rest with
      | nil => cases failed
      | cons next others =>
          have further := failed
          simp only [follow] at failed
          split at failed
          · next found => exact ih found further
          · exact ⟨_, rfl⟩
          · cases failed

theorem Sound.makeDirectories_of_file (sound : tree.Sound)
    (failed : tree.follow (tree.start path) (names path) = .error .notADirectory) :
    ∃ fault, tree.makeDirectories path = (some fault, tree) := by
  unfold Tree.makeDirectories
  split
  · exact ⟨_, rfl⟩
  · exact makeAlong_of_file false (sound.node?_start path) failed

end TilePyramid.Files.Tree
