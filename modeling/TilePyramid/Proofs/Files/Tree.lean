import Mathlib.Data.List.Induction
import TilePyramid.Files
import TilePyramid.Proofs.Files.Path

/-!
# What operations on a file tree depend on and leave alone

Where a path leads depends on the directories alone. Creating directories keeps all that is there,
and once it has succeeded it changes nothing when it is done again.
-/

set_option autoImplicit false

namespace TilePyramid.Files.Tree

open Text.Utf8 (Bytes)

/-- All directories of a tree are directories of another with the same working directory. -/
structure DirectoriesIn (tree other : Tree) : Prop where
  home : tree.home = other.home
  kept : ∀ location, tree.node? location = some .directory → other.node? location = some .directory

theorem DirectoriesIn.refl (tree : Tree) : tree.DirectoriesIn tree := ⟨rfl, fun _ => id⟩

theorem DirectoriesIn.trans {tree other further : Tree} (first : tree.DirectoriesIn other)
    (second : other.DirectoriesIn further) : tree.DirectoriesIn further :=
  ⟨first.home.trans second.home, fun location found => second.kept location (first.kept location found)⟩

section Follow

variable {tree other : Tree} {location target : Location} {names : List String}

theorem follow_append (tree : Tree) (location : Location) (names others : List String) :
    tree.follow location (names ++ others) =
      (tree.follow location names).bind (tree.follow · others) := by
  induction names generalizing location with
  | nil => rfl
  | cons name rest ih =>
      simp only [List.cons_append, follow]
      split
      · exact ih _
      · rfl
      · rfl

theorem follow_singleton {name : String} (reached : tree.follow location [name] = .ok target) :
    tree.node? location = some .directory ∧ target = enter location name := by
  simp only [follow] at reached
  split at reached
  · next found =>
    cases reached
    exact ⟨found, rfl⟩
  · cases reached
  · cases reached

theorem DirectoriesIn.follow (more : tree.DirectoriesIn other)
    (reached : tree.follow location names = .ok target) :
    other.follow location names = .ok target := by
  induction names generalizing location with
  | nil => exact reached
  | cons name rest ih =>
      simp only [Tree.follow] at reached ⊢
      split at reached
      · next found =>
        rw [more.kept _ found]
        exact ih reached
      · cases reached
      · cases reached

theorem DirectoriesIn.locate {path : Path} (more : tree.DirectoriesIn other)
    (reached : tree.locate path = .ok target) : other.locate path = .ok target := by
  unfold Tree.locate at reached ⊢
  split at reached
  · cases reached
  · split at reached
    · cases reached
    · rw [if_neg ‹_›, if_neg ‹_›, start, ← more.home]
      exact more.follow reached

theorem start_append (tree : Tree) (base name : String) :
    tree.start (base ++ "/" ++ name) = tree.start (base ++ "/") := by
  have head : (base ++ "/" ++ name).toList.head? = (base ++ "/").toList.head? := by
    cases chars : base.toList <;> simp [chars]
  rw [start, start, Path.isAbsolute, Path.isAbsolute, head]

theorem enter_of_ordinary {name : String} (ordinary : Path.Ordinary name) (location : Location) :
    enter location name = location ++ [name] := by
  simp [enter, ordinary.busy, ordinary.down]

/-- A path that ends with an ordinary name leads to what has this name in a directory, which is the
same for all such names. -/
theorem locate_of_ordinary {base name : String} (ordinary : Path.Ordinary name)
    (reached : tree.locate (base ++ "/" ++ name) = .ok target) :
    ∃ parent, tree.follow (tree.start (base ++ "/")) (Path.names base) = .ok parent ∧
      tree.node? parent = some .directory ∧ target = parent ++ [name] := by
  unfold locate at reached
  split at reached
  · cases reached
  · split at reached
    · cases reached
    · rw [start_append, Path.names_append ordinary.undivided, follow_append] at reached
      cases led : tree.follow (tree.start (base ++ "/")) (Path.names base) with
      | error fault =>
          rw [led] at reached
          cases reached
      | ok parent =>
          simp only [led, Except.bind] at reached
          obtain ⟨found, rfl⟩ := follow_singleton reached
          exact ⟨parent, rfl, found, enter_of_ordinary ordinary parent⟩

/-- Paths that end with different ordinary names after the same others lead to different places. -/
theorem locate_ne {base name other : String} {place : Location} (ordinary : Path.Ordinary name)
    (further : Path.Ordinary other) (different : name ≠ other)
    (reached : tree.locate (base ++ "/" ++ name) = .ok target)
    (reachedOther : tree.locate (base ++ "/" ++ other) = .ok place) : target ≠ place := by
  obtain ⟨parent, found, -, rfl⟩ := locate_of_ordinary ordinary reached
  obtain ⟨same, foundOther, -, rfl⟩ := locate_of_ordinary further reachedOther
  rw [found] at foundOther
  cases foundOther
  intro equal
  exact different (by simpa using equal)

end Follow

section Make

variable {tree base other : Tree} {created : Bool} {location : Location} {names : List String}

theorem home_makeAlong (tree : Tree) (created : Bool) (location : Location) (names : List String) :
    (tree.makeAlong created location names).2.home = tree.home := by
  induction names generalizing tree created location with
  | nil => rfl
  | cons name rest ih =>
      simp only [makeAlong]
      split
      · exact ih _ _ _
      · rfl
      · exact ih _ _ _

/-- Creating directories keeps all that is there. -/
theorem node?_makeAlong (tree : Tree) (created : Bool) (location : Location) (names : List String)
    {place : Location} {node : Node} (found : tree.node? place = some node) :
    (tree.makeAlong created location names).2.node? place = some node := by
  induction names generalizing tree created location with
  | nil => exact found
  | cons name rest ih =>
      simp only [makeAlong]
      split
      · exact ih _ _ _ found
      · exact found
      · next missing =>
        refine ih _ _ _ ?_
        have inside : enter location name ≠ [] := by
          intro root
          simp [root, node?] at missing
        have other : place ≠ enter location name := by
          rintro rfl
          simp [missing] at found
        rw [node?_put _ _ _ inside, if_neg other]
        exact found

/-- Creating directories adds nothing but directories. -/
theorem node?_of_makeAlong (tree : Tree) (created : Bool) (location : Location)
    (names : List String) {place : Location}
    (other : (tree.makeAlong created location names).2.node? place ≠ some .directory) :
    (tree.makeAlong created location names).2.node? place = tree.node? place := by
  induction names generalizing tree created location with
  | nil => rfl
  | cons name rest ih =>
      simp only [makeAlong] at other ⊢
      split at other
      · exact ih _ _ _ other
      · rfl
      · next missing =>
        have inside : enter location name ≠ [] := by
          intro root
          simp [root, node?] at missing
        rw [ih _ _ _ other, node?_put _ _ _ inside]
        refine if_neg ?_
        rintro rfl
        exact other (node?_makeAlong _ _ _ _ (by rw [node?_put _ _ _ inside, if_pos rfl]))

theorem directoriesIn_makeAlong (tree : Tree) (created : Bool) (location : Location)
    (names : List String) : tree.DirectoriesIn (tree.makeAlong created location names).2 :=
  ⟨(home_makeAlong tree created location names).symm,
    fun _ found => node?_makeAlong tree created location names found⟩

/-- Where directories were created, creating them again changes nothing. -/
theorem makeAlong_of_made (made : tree.makeAlong created location names = (none, base))
    (more : base.DirectoriesIn other) (again : Bool) :
    other.makeAlong again location names = (none, other) := by
  induction names generalizing tree created location with
  | nil => rfl
  | cons name rest ih =>
      simp only [makeAlong] at made
      split at made
      · next found =>
        have there := node?_makeAlong tree created (enter location name) rest found
        rw [made] at there
        simp only [makeAlong, more.kept _ there]
        exact ih made
      · cases made
      · next missing =>
        have inside : enter location name ≠ [] := by
          intro root
          simp [root, node?] at missing
        have there := node?_makeAlong (tree.put (enter location name) .directory) true
          (enter location name) rest (by rw [node?_put _ _ _ inside, if_pos rfl])
        rw [made] at there
        simp only [makeAlong, more.kept _ there]
        exact ih made

end Make

section Directories

variable {tree base other : Tree} {path : Path}

theorem directoriesIn_makeDirectories (tree : Tree) (path : Path) :
    tree.DirectoriesIn (tree.makeDirectories path).2 := by
  unfold makeDirectories
  split
  · exact .refl tree
  · exact directoriesIn_makeAlong tree _ _ _

theorem node?_of_makeDirectories (tree : Tree) (path : Path) {place : Location}
    (other : (tree.makeDirectories path).2.node? place ≠ some .directory) :
    (tree.makeDirectories path).2.node? place = tree.node? place := by
  unfold makeDirectories at other ⊢
  by_cases nul : '\x00' ∈ path.toList
  · rw [if_pos nul]
  · rw [if_neg nul] at other ⊢
    exact node?_of_makeAlong tree _ _ _ other

theorem node?_makeDirectories (tree : Tree) (path : Path) {place : Location} {node : Node}
    (found : tree.node? place = some node) :
    (tree.makeDirectories path).2.node? place = some node := by
  unfold makeDirectories
  split
  · exact found
  · exact node?_makeAlong tree _ _ _ found

theorem makeDirectories_of_made (made : tree.makeDirectories path = (none, base))
    (more : base.DirectoriesIn other) : other.makeDirectories path = (none, other) := by
  have same := (directoriesIn_makeDirectories tree path).home
  rw [made] at same
  unfold makeDirectories start at made ⊢
  split at made
  · cases made
  · rw [if_neg ‹_›, ← more.home, ← same]
    exact makeAlong_of_made made more false

end Directories

/-- Every node but the root lies in a directory. -/
def Closed (tree : Tree) : Prop :=
  ∀ location name, tree.node? (location ++ [name]) ≠ none → tree.node? location = some .directory

theorem Closed.directory_of_prefix {tree : Tree} {location place : Location} (closed : tree.Closed)
    (found : tree.node? place ≠ none) (above : location <+: place) (other : location ≠ place) :
    tree.node? location = some .directory := by
  obtain ⟨rest, rfl⟩ := above
  induction rest using List.reverseRecOn with
  | nil => simp at other
  | append_singleton rest last ih =>
      rw [← List.append_assoc] at found
      have parent := closed _ last found
      by_cases ends : rest = []
      · simpa [ends] using parent
      · exact ih (by simp [parent]) (by simpa using ends)

section Grown

variable {tree base : Tree} {location target : Location} {names : List String}

theorem prefix_of_follow (reached : base.follow location names = .ok target)
    (level : ".." ∉ names) : location <+: target := by
  induction names generalizing location with
  | nil =>
      cases reached
      exact List.prefix_rfl
  | cons name rest ih =>
      simp only [follow] at reached
      split at reached
      · have below := ih reached (fun up => level (List.mem_cons_of_mem _ up))
        have stay : name ≠ ".." := fun up => level (up ▸ List.mem_cons_self)
        have step : location <+: enter location name := by
          unfold enter
          split
          · exact List.prefix_rfl
          · exact List.prefix_append _ _
        exact step.trans below
      · cases reached
      · cases reached

/-- Before directories were added, a path led to the same place or something on it was missing. -/
theorem follow_of_grown (grown : ∀ {place node}, tree.node? place = some node →
      base.node? place = some node) (reached : base.follow location names = .ok target) :
    tree.follow location names = .ok target ∨ tree.follow location names = .error .notFound := by
  induction names generalizing location with
  | nil => exact .inl reached
  | cons name rest ih =>
      simp only [follow] at reached ⊢
      cases found : tree.node? location with
      | none => exact .inr rfl
      | some node =>
          rw [grown found] at reached
          cases node with
          | directory => exact ih reached
          | file content => cases reached

/-- Nothing is missing on the way to something that is there, unless the way leads up. -/
theorem follow_of_closed (closed : tree.Closed)
    (grown : ∀ {place node}, tree.node? place = some node → base.node? place = some node)
    (reached : base.follow location names = .ok target) (level : ".." ∉ names)
    (there : tree.node? target ≠ none) : tree.follow location names = .ok target := by
  induction names generalizing location with
  | nil => exact reached
  | cons name rest ih =>
      have above := prefix_of_follow reached level
      simp only [follow] at reached ⊢
      split at reached
      · next found =>
        have directory : tree.node? location = some .directory := by
          by_cases same : location = target
          · obtain ⟨node, held⟩ := Option.ne_none_iff_exists'.mp there
            rw [same] at found ⊢
            rw [grown held] at found
            rw [held, found]
          · exact closed.directory_of_prefix there above same
        rw [directory]
        exact ih reached fun up => level (List.mem_cons_of_mem _ up)
      · cases reached
      · cases reached

end Grown

theorem read_of_locate {tree : Tree} {path : Path} {place : Location} {content : Option Bytes}
    (reached : tree.locate path = .ok place) (holds : tree.node? place = content.map .file) :
    tree.read path = content.elim (.error .notFound) .ok := by
  simp only [read, reached, bind, Except.bind, holds]
  cases content <;> rfl

/-- What cannot be read because it is missing cannot be removed for the same reason. -/
theorem remove_of_read {tree : Tree} {path : Path} (missing : tree.read path = .error .notFound) :
    tree.remove path = .error .notFound := by
  unfold read at missing
  unfold remove
  cases located : tree.locate path with
  | error fault =>
      rw [located] at missing
      cases missing
      rfl
  | ok place =>
      simp only [located, bind, Except.bind] at missing ⊢
      split at missing
      · cases missing
      · cases missing
      · next found => rw [found]

section Changes

variable {tree after : Tree} {path origin : Path} {location : Location} {content : Bytes}

theorem ne_nil_of_free (free : tree.node? location ≠ some .directory) : location ≠ [] := by
  intro root
  subst root
  exact free rfl

theorem exists_of_write (wrote : tree.write path content = .ok after) :
    ∃ location, tree.locate path = .ok location ∧ tree.node? location ≠ some .directory ∧
      after = tree.put location (.file content) := by
  unfold write at wrote
  cases located : tree.locate path with
  | error fault =>
      rw [located] at wrote
      cases wrote
  | ok location =>
      simp only [located, bind, Except.bind] at wrote
      split at wrote
      · cases wrote
      · next free =>
        cases wrote
        exact ⟨location, rfl, free, rfl⟩

theorem exists_of_move (moved : tree.move origin path = .ok after) :
    ∃ from? location content, tree.locate origin = .ok from? ∧
      tree.node? from? = some (.file content) ∧ tree.locate path = .ok location ∧
      tree.node? location ≠ some .directory ∧
      (after = tree ∨ after = (tree.erase from?).put location (.file content)) := by
  unfold move at moved
  cases located : tree.locate origin with
  | error fault =>
      rw [located] at moved
      cases moved
  | ok from? =>
      simp only [located, bind, Except.bind] at moved
      split at moved
      · cases moved
      · cases moved
      · next content found =>
        cases target : tree.locate path with
        | error fault =>
            rw [target] at moved
            cases moved
        | ok location =>
            simp only [target] at moved
            split at moved
            · cases moved
            · next free =>
              refine ⟨from?, location, content, rfl, found, rfl, free, ?_⟩
              split at moved
              · exact .inl (Except.ok.inj moved).symm
              · exact .inr (Except.ok.inj moved).symm

end Changes

/-- What is read where directories are missing is what is read when they have been created, or
nothing; it is the former in a closed tree if the path does not lead up. -/
theorem read_before_made {tree base : Tree} {path directory : Path} {place : Location}
    {content : Option Bytes} (made : tree.makeDirectories directory = (none, base))
    (reached : base.locate path = .ok place) (holds : base.node? place = content.map .file) :
    (tree.read path = content.elim (.error .notFound) .ok ∨ tree.read path = .error .notFound) ∧
      (tree.Closed → ".." ∉ Path.names path →
        tree.read path = content.elim (.error .notFound) .ok) := by
  have grown : ∀ {place node}, tree.node? place = some node → base.node? place = some node := by
    intro place node found
    have kept := node?_makeDirectories tree directory found
    rwa [made] at kept
  have same : base.node? place = tree.node? place := by
    have kept := @node?_of_makeDirectories tree directory place
    rw [made] at kept
    exact kept (by rw [holds]; cases content <;> nofun)
  have home := (directoriesIn_makeDirectories tree directory).home
  rw [made] at home
  have follows : ∀ other : Tree,
      other.locate path = other.follow (other.start path) (Path.names path) := by
    intro other
    unfold locate at reached ⊢
    split at reached
    · cases reached
    · split at reached
      · cases reached
      · rw [if_neg ‹_›, if_neg ‹_›]
  rw [follows, start, ← home, ← start] at reached
  rw [same] at holds
  have early : tree.read path = content.elim (.error .notFound) .ok ∨
      tree.read path = .error .notFound := by
    rcases follow_of_grown grown reached with led | missing
    · exact .inl (read_of_locate ((follows tree).trans led) holds)
    · exact .inr (by simp only [read, follows, missing, bind, Except.bind])
  refine ⟨early, fun closed level => ?_⟩
  cases content with
  | none => exact early.elim id id
  | some content =>
      have there : tree.node? place ≠ none := by simp [holds]
      exact read_of_locate ((follows tree).trans (follow_of_closed closed grown reached level there))
        holds

end TilePyramid.Files.Tree
