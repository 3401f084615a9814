import TilePyramid.Proofs.Files.Tree

/-!
# Removing files

What a tree becomes when the files at some paths are removed, in one step or in many: the paths lead
to no file any more, and everything else is where it was. Main statements: `Cleared.trans`,
`cleared_of_remove` and `cleared_of_missing`.
-/

set_option autoImplicit false

namespace TilePyramid.Files.Tree

open Text.Utf8 (Bytes)

/-- No file is left at any of the paths, and of all that was there only files at the paths went. -/
structure Cleared (tree : Tree) (paths : List Path) (after : Tree) : Prop where
  home : after.home = tree.home
  gone : ∀ path ∈ paths, ∀ content, after.read path ≠ .ok content
  kept : ∀ location, after.node? location = tree.node? location ∨
    after.node? location = none ∧ ∃ path ∈ paths, ∃ content,
      tree.locate path = .ok location ∧ tree.node? location = some (.file content)

variable {tree after later : Tree} {paths more : List Path} {path : Path} {location : Location}
  {content : Bytes}

theorem read_eq_ok_iff : tree.read path = .ok content ↔
    ∃ location, tree.locate path = .ok location ∧ tree.node? location = some (.file content) := by
  unfold read
  cases located : tree.locate path with
  | error fault => simp [bind, Except.bind]
  | ok location =>
      rcases found : tree.node? location with _ | ⟨other⟩ | _ <;>
        simp [bind, Except.bind, found]

theorem remove_eq_ok_iff : tree.remove path = .ok after ↔
    ∃ location content, tree.locate path = .ok location ∧
      tree.node? location = some (.file content) ∧ after = tree.erase location := by
  unfold remove
  cases located : tree.locate path with
  | error fault => simp [bind, Except.bind]
  | ok location =>
      rcases found : tree.node? location with _ | ⟨other⟩ | _ <;>
        simp [bind, Except.bind, found, eq_comm]

theorem ne_nil_of_file (found : tree.node? location = some (.file content)) : location ≠ [] := by
  rintro rfl
  cases found

namespace Cleared

theorem refl (tree : Tree) : tree.Cleared [] tree where
  home := rfl
  gone := nofun
  kept _ := .inl rfl

theorem directory_iff (cleared : tree.Cleared paths after) :
    after.node? location = some .directory ↔ tree.node? location = some .directory := by
  obtain same | ⟨missing, _, _, _, _, held⟩ := cleared.kept location
  · rw [same]
  · rw [missing, held]
    exact ⟨nofun, nofun⟩

theorem directoriesIn (cleared : tree.Cleared paths after) : after.DirectoriesIn tree :=
  ⟨cleared.home, fun _ => cleared.directory_iff.mp⟩

theorem directoriesIn_after (cleared : tree.Cleared paths after) : tree.DirectoriesIn after :=
  ⟨cleared.home.symm, fun _ => cleared.directory_iff.mpr⟩

theorem file_of_file (cleared : tree.Cleared paths after)
    (found : after.node? location = some (.file content)) :
    tree.node? location = some (.file content) := by
  obtain same | ⟨missing, -⟩ := cleared.kept location
  · rw [← same, found]
  · cases missing.symm.trans found

/-- What can be read after files were removed could be read before. -/
theorem read_of_read (cleared : tree.Cleared paths after) (read : after.read path = .ok content) :
    tree.read path = .ok content := by
  obtain ⟨location, located, found⟩ := read_eq_ok_iff.mp read
  exact read_eq_ok_iff.mpr
    ⟨location, cleared.directoriesIn.locate located, cleared.file_of_file found⟩

theorem trans (first : tree.Cleared paths after) (second : after.Cleared more later) :
    tree.Cleared (paths ++ more) later where
  home := second.home.trans first.home
  gone path member content read := by
    obtain before | behind := List.mem_append.mp member
    · exact first.gone path before content (second.read_of_read read)
    · exact second.gone path behind content read
  kept location := by
    obtain same | ⟨missing, path, member, content, located, found⟩ := second.kept location
    · obtain before | ⟨missing, path, member, gone⟩ := first.kept location
      · exact .inl (same.trans before)
      · exact .inr ⟨same.trans missing, path, List.mem_append_left _ member, gone⟩
    · -- The file was in its place from the beginning, and the path led there.
      exact .inr ⟨missing, path, List.mem_append_right _ member, content,
        first.directoriesIn.locate located, first.file_of_file found⟩

/-- A file that was not at any of the paths is still there. -/
theorem node?_of_unlisted (cleared : tree.Cleared paths after)
    (unlisted : ∀ path ∈ paths, tree.locate path ≠ .ok location) :
    after.node? location = tree.node? location := by
  obtain same | ⟨-, path, member, -, located, -⟩ := cleared.kept location
  · exact same
  · exact absurd located (unlisted path member)

end Cleared

theorem cleared_of_remove (removed : tree.remove path = .ok after) : tree.Cleared [path] after := by
  obtain ⟨location, content, located, found, rfl⟩ := remove_eq_ok_iff.mp removed
  have inside := ne_nil_of_file found
  have kept : ∀ other, (tree.erase location).node? other = tree.node? other ∨
      (tree.erase location).node? other = none ∧ other = location := by
    intro other
    rw [node?_erase _ _ inside]
    split
    · next same => exact .inr ⟨rfl, same⟩
    · exact .inl rfl
  have fewer : (tree.erase location).DirectoriesIn tree := by
    refine ⟨rfl, fun other directory => ?_⟩
    obtain same | ⟨missing, -⟩ := kept other
    · rw [← same, directory]
    · cases missing.symm.trans directory
  refine ⟨rfl, ?_, fun other => ?_⟩
  · intro gone member content read
    obtain rfl := List.mem_singleton.mp member
    obtain ⟨place, reached, held⟩ := read_eq_ok_iff.mp read
    cases located.symm.trans (fewer.locate reached)
    rw [node?_erase _ _ inside, if_pos rfl] at held
    cases held
  · obtain same | ⟨missing, rfl⟩ := kept other
    · exact .inl same
    · exact .inr ⟨missing, path, List.mem_singleton.mpr rfl, content, located, found⟩

theorem cleared_of_missing (missing : tree.remove path = .error .notFound) :
    tree.Cleared [path] tree := by
  refine ⟨rfl, ?_, fun _ => .inl rfl⟩
  intro gone member content read
  obtain rfl := List.mem_singleton.mp member
  obtain ⟨location, located, found⟩ := read_eq_ok_iff.mp read
  have removed := remove_eq_ok_iff.mpr ⟨location, content, located, found, rfl⟩
  cases missing.symm.trans removed

end TilePyramid.Files.Tree
