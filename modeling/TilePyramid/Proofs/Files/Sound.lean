import TilePyramid.Proofs.Files.Route

/-!
# Trees as they are on a disk

The working directory is there, and whatever is there lies in a directory. No operation breaks this.
Main statements: `Sound.makeDirectories`, `Sound.write`, `Sound.move` and `Sound.remove`.
-/

set_option autoImplicit false

namespace TilePyramid.Files.Tree

open Text.Utf8 (Bytes)

structure Sound (tree : Tree) : Prop where
  home : tree.node? tree.home = some .directory
  closed : tree.Closed

variable {tree after : Tree} {location target : Location} {names : List String}
  {path origin : Path} {content : Bytes}

namespace Closed

theorem dropLast (closed : tree.Closed) (directory : tree.node? location = some .directory) :
    tree.node? location.dropLast = some .directory := by
  rcases List.eq_nil_or_concat location with rfl | ⟨parent, name, rfl⟩
  · exact directory
  · rw [List.concat_eq_append] at directory ⊢
    rw [List.dropLast_concat]
    exact closed parent name (by simp [directory])

theorem put {parent : Location} {name : String} {node : Node} (closed : tree.Closed)
    (directory : tree.node? parent = some .directory)
    (free : node = .directory ∨ tree.node? (parent ++ [name]) ≠ some .directory) :
    (tree.put (parent ++ [name]) node).Closed := by
  have inside : parent ++ [name] ≠ [] := by simp
  intro place last there
  rw [node?_put _ _ _ inside] at there ⊢
  by_cases new : place ++ [last] = parent ++ [name]
  · obtain ⟨rfl, -⟩ := List.append_inj' new rfl
    rwa [if_neg (by simp)]
  · rw [if_neg new] at there
    have held := closed place last there
    split
    · next same =>
      subst same
      rcases free with rfl | free
      · rfl
      · exact absurd held free
    · exact held

theorem erase (closed : tree.Closed) (found : tree.node? location = some (.file content)) :
    (tree.erase location).Closed := by
  have inside := ne_nil_of_file found
  intro place last there
  rw [node?_erase _ _ inside] at there ⊢
  split at there
  · exact absurd rfl there
  · have held := closed place last there
    rw [if_neg]
    · exact held
    · rintro rfl
      cases held.symm.trans found

/-- Where names lead there is a directory, or there could be something in one. -/
theorem exists_parent_of_follow (closed : tree.Closed)
    (directory : tree.node? location = some .directory)
    (reached : tree.follow location names = .ok target) :
    tree.node? target = some .directory ∨
      ∃ parent name, target = parent ++ [name] ∧ tree.node? parent = some .directory := by
  induction names generalizing location with
  | nil =>
      cases reached
      exact .inl directory
  | cons name rest ih =>
      simp only [follow, directory] at reached
      cases rest with
      | nil =>
          cases reached
          unfold enter
          split
          · exact .inl directory
          · split
            · exact .inl (closed.dropLast directory)
            · exact .inr ⟨location, name, rfl, directory⟩
      | cons next others =>
          have further := reached
          simp only [follow] at reached
          split at reached
          · next found => exact ih found further
          · cases reached
          · cases reached

theorem makeAlong (closed : tree.Closed) (directory : tree.node? location = some .directory)
    (created : Bool) : (tree.makeAlong created location names).2.Closed := by
  induction names generalizing tree created location with
  | nil => exact closed
  | cons name rest ih =>
      simp only [Tree.makeAlong]
      split
      · next found => exact ih closed found created
      · exact closed
      · next missing =>
        have new : enter location name = location ++ [name] := by
          unfold enter at missing ⊢
          split
          · next idle =>
            rw [if_pos idle, directory] at missing
            cases missing
          · next busy =>
            rw [if_neg busy] at missing
            split
            · next up =>
              rw [if_pos up, closed.dropLast directory] at missing
              cases missing
            · rfl
        rw [new]
        refine ih (closed.put directory (.inl rfl)) ?_ true
        rw [node?_put _ _ _ (by simp), if_pos rfl]

end Closed

namespace Sound

theorem node?_start (sound : tree.Sound) (path : Path) :
    tree.node? (tree.start path) = some .directory := Tree.node?_start sound.home path

/-- What is not a directory, where a path leads, could lie in one. -/
theorem exists_parent (sound : tree.Sound) (reached : tree.locate path = .ok target)
    (free : tree.node? target ≠ some .directory) :
    ∃ parent name, target = parent ++ [name] ∧ tree.node? parent = some .directory := by
  unfold locate at reached
  split at reached
  · cases reached
  · split at reached
    · cases reached
    · have led := sound.closed.exists_parent_of_follow (sound.node?_start path) reached
      exact led.resolve_left free

theorem makeDirectories (sound : tree.Sound) (path : Path) :
    (tree.makeDirectories path).2.Sound := by
  have more := directoriesIn_makeDirectories tree path
  refine ⟨more.home ▸ more.kept _ sound.home, ?_⟩
  unfold Tree.makeDirectories
  split
  · exact sound.closed
  · exact sound.closed.makeAlong (sound.node?_start path) false

theorem write (sound : tree.Sound) (wrote : tree.write path content = .ok after) : after.Sound := by
  have more := directoriesIn_write wrote
  refine ⟨more.home ▸ more.kept _ sound.home, ?_⟩
  obtain ⟨location, located, free, rfl⟩ := exists_of_write wrote
  obtain ⟨parent, name, rfl, directory⟩ := sound.exists_parent located free
  exact sound.closed.put directory (.inr free)

theorem remove (sound : tree.Sound) (removed : tree.remove path = .ok after) : after.Sound := by
  have more := directoriesIn_remove removed
  refine ⟨more.home ▸ more.kept _ sound.home, ?_⟩
  obtain ⟨location, content, -, found, rfl⟩ := remove_eq_ok_iff.mp removed
  exact sound.closed.erase found

theorem move (sound : tree.Sound) (moved : tree.move origin path = .ok after) : after.Sound := by
  have more := directoriesIn_move moved
  refine ⟨more.home ▸ more.kept _ sound.home, ?_⟩
  obtain ⟨from?, location, content, -, found, located, free, same | taken⟩ := exists_of_move moved
  · exact same ▸ sound.closed
  · obtain ⟨parent, name, rfl, directory⟩ := sound.exists_parent located free
    subst taken
    refine (sound.closed.erase found).put ((directoriesIn_erase found).kept _ directory) (.inr ?_)
    rw [node?_erase _ _ (ne_nil_of_file found)]
    split
    · nofun
    · exact free

/-- Trees stay sound when files and directories are placed in them. -/
theorem place (sound : tree.Sound) (path : Path) (content : Bytes) :
    (tree.place path content).Sound := by
  have made := sound.makeDirectories ((Path.parent? path).getD "")
  unfold Tree.place
  split
  · exact sound.makeDirectories path
  · cases wrote : (tree.makeDirectories ((Path.parent? path).getD "")).2.write path content with
    | ok files => simpa only [wrote] using made.write wrote
    | error fault => simpa only [wrote] using made

end Sound

theorem sound_empty : empty.Sound := by
  refine ⟨by decide +kernel, fun location name there => ?_⟩
  have inside : location ++ [name] ≠ [] := by simp
  rw [node?, if_neg inside, empty, Table.find?_put] at there
  split at there
  · next same =>
    obtain ⟨rfl, -⟩ := List.append_inj' (show location ++ [name] = [] ++ ["work"] from same) rfl
    rfl
  · exact absurd rfl there

end TilePyramid.Files.Tree
