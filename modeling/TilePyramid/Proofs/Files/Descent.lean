import TilePyramid.Proofs.Files.Tree

/-!
# Ways down a file tree

A path opens to a directory when all names on it lead through directories. Paths that descend lead
on from there, and creating their directories makes what is on the way and changes nothing else.
Main statement: `makeDirectories_foldl`.
-/

set_option autoImplicit false

namespace TilePyramid.Files.Tree

open Text.Utf8 (Bytes)
open Files.Path (join names busy steps)

/-- The place is passed on the way down from a location, or is one of its ends. -/
def OnWay (location : Location) (way : List String) (place : Location) : Prop :=
  ∃ front, front <+: way ∧ place = location ++ front

section OnWay

variable {location place : Location} {way further : List String}

theorem onWay_start (location : Location) (way : List String) : OnWay location way location :=
  ⟨[], List.nil_prefix, by simp⟩

theorem onWay_end (location : Location) (way : List String) : OnWay location way (location ++ way) :=
  ⟨way, List.prefix_rfl, rfl⟩

@[simp] theorem onWay_nil : OnWay location [] place ↔ place = location := by
  simp [OnWay]

theorem onWay_singleton {name : String} :
    OnWay location [name] place ↔ place = location ∨ place = location ++ [name] := by
  constructor
  · rintro ⟨front, above, rfl⟩
    rcases List.prefix_cons_iff.mp above with rfl | ⟨rest, rfl, ended⟩
    · exact .inl (List.append_nil location)
    · exact .inr (by rw [List.prefix_nil.mp ended])
  · rintro (rfl | rfl)
    · exact onWay_start _ _
    · exact onWay_end location [name]

theorem onWay_append : OnWay location (way ++ further) place ↔
    OnWay location way place ∨ OnWay (location ++ way) further place := by
  constructor
  · rintro ⟨front, above, rfl⟩
    rcases List.prefix_or_prefix_of_prefix above (List.prefix_append way further) with early | late
    · exact .inl ⟨front, early, rfl⟩
    · obtain ⟨rest, rfl⟩ := late
      refine .inr ⟨rest, ?_, by simp⟩
      exact (List.prefix_append_right_inj way).mp above
  · rintro (⟨front, above, rfl⟩ | ⟨front, above, rfl⟩)
    · exact ⟨front, above.trans (List.prefix_append way further), rfl⟩
    · exact ⟨way ++ front, (List.prefix_append_right_inj way).mpr above, by simp⟩

theorem not_onWay (location : Location) (way : List String) (name : String) :
    ¬ OnWay location way (location ++ (way ++ [name])) := by
  rintro ⟨front, above, same⟩
  have length := above.length_le
  rw [← List.append_cancel_left same, List.length_append, List.length_singleton] at length
  omega

end OnWay

/-- A tree that has the directories on a way, and is another tree everywhere else. -/
structure Grows (tree : Tree) (location : Location) (way : List String) (next : Tree) : Prop where
  home : next.home = tree.home
  made : ∀ place, OnWay location way place → next.node? place = some .directory
  elsewhere : ∀ place, ¬ OnWay location way place → next.node? place = tree.node? place

/-- No file is on the way. -/
def Passable (tree : Tree) (location : Location) (way : List String) : Prop :=
  ∀ place, OnWay location way place → ∀ content, tree.node? place ≠ some (.file content)

section Grows

variable {tree base next : Tree} {location : Location} {way further : List String}

theorem grows_of_directories
    (directories : ∀ place, OnWay location way place → tree.node? place = some .directory) :
    tree.Grows location way tree where
  home := rfl
  made := directories
  elsewhere _ _ := rfl

theorem Grows.trans (first : tree.Grows location way base)
    (second : base.Grows (location ++ way) further next) :
    tree.Grows location (way ++ further) next where
  home := second.home.trans first.home
  made place passed := by
    by_cases late : OnWay (location ++ way) further place
    · exact second.made place late
    · rw [second.elsewhere place late]
      exact first.made place ((onWay_append.mp passed).resolve_right late)
  elsewhere place aside := by
    rw [onWay_append, not_or] at aside
    rw [second.elsewhere place aside.2, first.elsewhere place aside.1]

theorem Grows.directoriesIn (grows : tree.Grows location way next) : tree.DirectoriesIn next where
  home := grows.home.symm
  kept place directory := by
    by_cases passed : OnWay location way place
    · exact grows.made place passed
    · rwa [grows.elsewhere place passed]

theorem Grows.passable (grows : tree.Grows location way base)
    (passable : tree.Passable location (way ++ further)) :
    base.Passable (location ++ way) further := by
  intro place passed content
  by_cases early : OnWay location way place
  · rw [grows.made place early]
    nofun
  · rw [grows.elsewhere place early]
    exact passable place (onWay_append.mpr (.inr passed)) content

theorem Passable.left (passable : tree.Passable location (way ++ further)) :
    tree.Passable location way :=
  fun place passed => passable place (onWay_append.mpr (.inl passed))

theorem grows_put {name : String} (directory : tree.node? location = some .directory) :
    tree.Grows location [name] (tree.put (location ++ [name]) .directory) where
  home := rfl
  made place passed := by
    rw [node?_put _ _ _ (by simp)]
    split
    · rfl
    · next other =>
      obtain rfl := (onWay_singleton.mp passed).resolve_right other
      exact directory
  elsewhere place aside := by
    rw [node?_put _ _ _ (by simp), if_neg]
    rintro rfl
    exact aside (onWay_end location [name])

end Grows

section Names

variable {tree base : Tree} {location target : Location} {names others : List String}
  {created : Bool}

theorem enter_of_idle {name : String} (idle : Path.isIdle name = true) (location : Location) :
    enter location name = location := by
  simp [enter, idle]

theorem enter_of_busy {name : String} (moves : Path.isIdle name = false) (down : name ≠ "..")
    (location : Location) : enter location name = location ++ [name] := by
  simp [enter, moves, down]

theorem busy_cons_of_idle {name : String} (idle : Path.isIdle name = true) (names : List String) :
    busy (name :: names) = busy names := by
  simp [busy, idle]

theorem busy_cons_of_busy {name : String} (moves : Path.isIdle name = false) (names : List String) :
    busy (name :: names) = [name] ++ busy names := by
  simp [busy, moves]

theorem busy_flatMap_names (parts : List Path) :
    busy (parts.flatMap Path.names) = parts.flatMap steps := by
  rw [busy, List.filter_flatMap]
  rfl

theorem eq_foldl_of_follow (reached : tree.follow location names = .ok target) :
    target = names.foldl enter location := by
  induction names generalizing location with
  | nil =>
      cases reached
      rfl
  | cons name rest ih =>
      simp only [follow] at reached
      split at reached
      · exact ih reached
      · cases reached
      · cases reached

/-- Names that do not lead up are followed through the directories on their way. -/
theorem follow_of_directories (down : ".." ∉ names)
    (directories : ∀ place, OnWay location (busy names) place → tree.node? place = some .directory) :
    tree.follow location names = .ok (location ++ busy names) := by
  induction names generalizing location with
  | nil => simp [follow, busy]
  | cons name rest ih =>
      rw [List.mem_cons, not_or] at down
      simp only [follow, directories location (onWay_start _ _)]
      cases idle : Path.isIdle name with
      | true =>
          rw [busy_cons_of_idle idle] at directories ⊢
          rw [enter_of_idle idle]
          exact ih down.2 directories
      | false =>
          rw [busy_cons_of_busy idle] at directories ⊢
          rw [enter_of_busy idle (Ne.symm down.1), ← List.append_assoc]
          exact ih down.2 fun place passed => directories place (onWay_append.mpr (.inr passed))

theorem follow_of_file {front : List String} {content : Bytes} (down : ".." ∉ names)
    (above : front <+: busy names) (other : front ≠ busy names)
    (directories : ∀ place, OnWay location front place → place ≠ location ++ front →
      tree.node? place = some .directory)
    (file : tree.node? (location ++ front) = some (.file content)) :
    tree.follow location names = .error .notADirectory := by
  induction names generalizing location front with
  | nil => exact absurd (List.prefix_nil.mp above) other
  | cons name rest ih =>
      rw [List.mem_cons, not_or] at down
      cases front with
      | nil =>
          rw [List.append_nil] at file
          simp only [follow, file]
      | cons first more =>
          have directory := directories location (onWay_start _ _) (by simp)
          simp only [follow, directory]
          cases idle : Path.isIdle name with
          | true =>
              rw [busy_cons_of_idle idle] at above other
              rw [enter_of_idle idle]
              exact ih down.2 above other directories file
          | false =>
              rw [busy_cons_of_busy idle, List.singleton_append] at above other
              obtain ⟨rfl, further⟩ := List.cons_prefix_cons.mp above
              rw [enter_of_busy idle (Ne.symm down.1)]
              rw [List.append_cons] at file
              refine ih down.2 further (fun same => other (by rw [same])) ?_ file
              intro place passed beyond
              rw [← List.append_cons] at beyond
              have late : OnWay location ([first] ++ more) place := onWay_append.mpr (.inr passed)
              exact directories place late beyond

theorem exists_grows (created : Bool) (down : ".." ∉ names)
    (directory : tree.node? location = some .directory)
    (passable : tree.Passable location (busy names)) :
    ∃ next, tree.makeAlong created location names = (none, next) ∧
      tree.Grows location (busy names) next := by
  -- The tree changes with each directory that is made, and nothing gets in the way of the next one.
  induction names generalizing tree location created with
  | nil =>
      refine ⟨tree, rfl, grows_of_directories fun place passed => ?_⟩
      rwa [onWay_nil.mp passed]
  | cons name rest ih =>
      rw [List.mem_cons, not_or] at down
      cases idle : Path.isIdle name with
      | true =>
          rw [busy_cons_of_idle idle] at passable ⊢
          simp only [makeAlong, enter_of_idle idle, directory]
          exact ih _ down.2 directory passable
      | false =>
          rw [busy_cons_of_busy idle] at passable ⊢
          simp only [makeAlong, enter_of_busy idle (Ne.symm down.1)]
          split
          · next found =>
            have first : tree.Grows location [name] tree := by
              refine grows_of_directories fun place passed => ?_
              rcases onWay_singleton.mp passed with rfl | rfl
              · exact directory
              · exact found
            obtain ⟨next, made, second⟩ := ih _ down.2 found (first.passable passable)
            exact ⟨next, made, first.trans second⟩
          · next content found =>
            have last : OnWay location ([name] ++ busy rest) (location ++ [name]) :=
              onWay_append.mpr (.inl (onWay_end location [name]))
            exact absurd found (passable _ last content)
          · have first : tree.Grows location [name] _ := grows_put directory
            obtain ⟨next, made, second⟩ :=
              ih _ down.2 (first.made _ (onWay_end _ _)) (first.passable passable)
            exact ⟨next, made, first.trans second⟩

theorem exists_makeAlong_append (made : tree.makeAlong created location names = (none, base)) :
    ∃ again, tree.makeAlong created location (names ++ others) =
      base.makeAlong again (names.foldl enter location) others := by
  induction names generalizing tree location created with
  | nil =>
      cases made
      exact ⟨created, rfl⟩
  | cons name rest ih =>
      simp only [makeAlong, List.cons_append] at made ⊢
      split at made
      · exact ih made
      · cases made
      · exact ih made

theorem exists_makeAlong_of_append
    (made : tree.makeAlong created location (names ++ others) = (none, base)) :
    ∃ between again, tree.makeAlong created location names = (none, between) ∧
      between.makeAlong again (names.foldl enter location) others = (none, base) := by
  induction names generalizing tree location created with
  | nil => exact ⟨tree, created, rfl, made⟩
  | cons name rest ih =>
      simp only [makeAlong, List.cons_append] at made ⊢
      split at made
      · exact ih made
      · cases made
      · exact ih made

theorem follow_of_makeAlong (made : tree.makeAlong created location names = (none, base))
    (directory : tree.node? location = some .directory) :
    base.follow location names = .ok (names.foldl enter location) ∧
      base.node? (names.foldl enter location) = some .directory := by
  induction names generalizing tree location created with
  | nil =>
      cases made
      exact ⟨rfl, directory⟩
  | cons name rest ih =>
      have kept := node?_makeAlong tree created location (name :: rest) directory
      rw [made] at kept
      simp only [makeAlong] at made
      simp only [follow, kept]
      split at made
      · next found => exact ih made found
      · cases made
      · next missing =>
        have inside : enter location name ≠ [] := by
          intro root
          simp [root, node?] at missing
        exact ih made (by rw [node?_put _ _ _ inside, if_pos rfl])

end Names

/-- A path leads through directories to one. -/
structure Opens (tree : Tree) (path : Path) (location : Location) : Prop where
  whole : '\x00' ∉ path.toList
  follows : tree.follow (tree.start path) (Path.names path) = .ok location
  directory : tree.node? location = some .directory

section Opens

variable {tree base : Tree} {path part : Path} {location : Location}

theorem start_join (relative : Path.isAbsolute part = false) :
    tree.start (join path part) = tree.start path := by
  rw [start, start, Path.isAbsolute_join relative]

theorem node?_start (home : tree.node? tree.home = some .directory) (path : Path) :
    tree.node? (tree.start path) = some .directory := by
  unfold start
  split
  · rfl
  · exact home

theorem start_of_made (made : tree.makeDirectories path = (none, base)) (other : Path) :
    base.start other = tree.start other := by
  have same := (directoriesIn_makeDirectories tree path).home
  rw [made] at same
  rw [start, start, same]

theorem opens_of_makeDirectories (home : tree.node? tree.home = some .directory)
    (made : tree.makeDirectories path = (none, base)) : ∃ location, base.Opens path location := by
  have same := start_of_made made path
  unfold makeDirectories at made
  split at made
  · cases made
  · next whole =>
    obtain ⟨follows, directory⟩ := follow_of_makeAlong made (node?_start home path)
    rw [← same] at follows directory
    exact ⟨_, whole, follows, directory⟩

/-- What a path is joined to is followed first, and then the names of the path. -/
theorem follow_join (tree : Tree) (path : Path) (relative : Path.isAbsolute part = false) :
    tree.follow (tree.start (join path part)) (names (join path part)) =
      (tree.follow (tree.start path) (names path)).bind (tree.follow · (names part)) := by
  obtain ⟨front, listed, joined⟩ := Path.names_join path relative
  rw [start_join relative, joined]
  rcases listed with listed | listed
  · rw [listed, follow_append]
  · rw [listed, follow_append, follow_append]
    cases tree.follow (tree.start path) front with
    | error fault => rfl
    | ok place =>
        -- The empty name needs a directory, and so does the first name of the part.
        obtain ⟨first, rest, some⟩ := List.exists_cons_of_ne_nil (Path.names_ne_nil part)
        have stays : enter place "" = place := enter_of_idle rfl place
        simp only [Except.bind, some, follow, stays]
        rcases found : tree.node? place with _ | ⟨_⟩ | _ <;> simp [found]

theorem follow_foldl {parts : List Path} (tree : Tree) (path : Path)
    (relative : ∀ part ∈ parts, Path.isAbsolute part = false) :
    tree.follow (tree.start (parts.foldl join path)) (names (parts.foldl join path)) =
      (tree.follow (tree.start path) (names path)).bind (tree.follow · (parts.flatMap names)) := by
  induction parts generalizing path with
  | nil => cases led : tree.follow (tree.start path) (names path) <;> simp [led, Except.bind, follow]
  | cons part rest ih =>
      rw [List.foldl_cons, ih _ fun further member => relative further (List.mem_cons_of_mem _ member),
        follow_join tree path (relative part List.mem_cons_self)]
      cases tree.follow (tree.start path) (names path) with
      | error fault => rfl
      | ok place => rw [List.flatMap_cons]; exact (follow_append tree place _ _).symm

theorem Opens.follow_join (opens : tree.Opens path location) (descends : part.Descends) :
    tree.follow (tree.start (join path part)) (names (join path part)) =
      tree.follow location (names part) := by
  rw [Tree.follow_join tree path descends.relative, opens.follows]
  rfl

section Parts

variable {parts : List Path} (descend : ∀ part ∈ parts, part.Descends)
include descend

theorem not_mem_foldl_join (whole : '\x00' ∉ path.toList) :
    '\x00' ∉ (parts.foldl join path).toList := by
  induction parts generalizing path with
  | nil => exact whole
  | cons part rest ih =>
      exact ih (fun further member => descend further (List.mem_cons_of_mem _ member))
        (Path.not_mem_join (by decide) whole (descend part List.mem_cons_self).whole)

theorem Opens.follow_foldl (opens : tree.Opens path location) :
    tree.follow (tree.start (parts.foldl join path)) (names (parts.foldl join path)) =
      tree.follow location (parts.flatMap names) := by
  rw [Tree.follow_foldl tree path fun part member => (descend part member).relative, opens.follows]
  rfl

theorem not_mem_flatMap_names : ".." ∉ parts.flatMap names := by
  rw [List.mem_flatMap]
  rintro ⟨part, member, up⟩
  exact (descend part member).down up

theorem Opens.foldl (opens : tree.Opens path location)
    (directories : ∀ place, OnWay location (parts.flatMap steps) place →
      tree.node? place = some .directory) :
    tree.Opens (parts.foldl join path) (location ++ parts.flatMap steps) where
  whole := not_mem_foldl_join descend opens.whole
  follows := by
    rw [opens.follow_foldl descend, ← busy_flatMap_names]
    rw [← busy_flatMap_names] at directories
    exact follow_of_directories (not_mem_flatMap_names descend) directories
  directory := directories _ (onWay_end _ _)

end Parts

theorem Opens.join (opens : tree.Opens path location) (descends : part.Descends)
    (directories : ∀ place, OnWay location (steps part) place →
      tree.node? place = some .directory) :
    tree.Opens (join path part) (location ++ steps part) where
  whole := Path.not_mem_join (by decide) opens.whole descends.whole
  follows := (opens.follow_join descends).trans (follow_of_directories descends.down directories)
  directory := directories _ (onWay_end _ _)

theorem Opens.mono {other : Tree} (opens : tree.Opens path location)
    (more : tree.DirectoriesIn other) : other.Opens path location where
  whole := opens.whole
  follows := by
    rw [start, ← more.home, ← start]
    exact more.follow opens.follows
  directory := more.kept _ opens.directory

theorem Opens.locate {name : String} (opens : tree.Opens path location)
    (ordinary : Path.Ordinary name) : tree.locate (Path.join path name) = .ok (location ++ [name]) := by
  have whole : '\x00' ∉ (Path.join path name).toList :=
    Path.not_mem_join (by decide) opens.whole ordinary.whole
  have some : (Path.join path name).toList ≠ [] := by
    obtain ⟨front, ends⟩ := Path.exists_join_eq path name
    simp [ends, ordinary.nonempty]
  rw [Tree.locate, if_neg whole, if_neg some, opens.follow_join ordinary.descends, ordinary.names]
  simp only [Tree.follow, opens.directory, enter_of_ordinary ordinary]

end Opens

section Make

variable {tree base : Tree} {path part : Path} {location : Location}

/-- Making the directories of a joined path goes on from where those of the path before it lead. -/
theorem makeDirectories_join (home : tree.node? tree.home = some .directory)
    (made : tree.makeDirectories path = (none, base)) (opens : base.Opens path location)
    (descends : part.Descends) (passable : base.Passable location (steps part)) :
    ∃ next, tree.makeDirectories (join path part) = (none, next) ∧
      base.Grows location (steps part) next ∧
      next.Opens (join path part) (location ++ steps part) := by
  have same := start_of_made made path
  have idle : Path.isIdle "" = true := rfl
  obtain ⟨front, listed, joined⟩ := Path.names_join path descends.relative
  have leads : location = front.foldl enter (tree.start path) := by
    rw [eq_foldl_of_follow opens.follows, same]
    rcases listed with listed | listed
    · rw [listed]
    · rw [listed, List.foldl_append]
      exact enter_of_idle idle _
  have reached : tree.makeAlong false (tree.start path) front = (none, base) := by
    rw [makeDirectories, if_neg opens.whole] at made
    rcases listed with listed | listed
    · rwa [listed] at made
    · rw [listed] at made
      obtain ⟨between, again, first, last⟩ := exists_makeAlong_of_append made
      have directory := (follow_of_makeAlong first (node?_start home path)).2
      simp only [makeAlong, enter_of_idle idle, directory] at last
      cases last
      exact first
  obtain ⟨again, continues⟩ : ∃ again, tree.makeAlong false (tree.start path) (front ++ names part) =
      base.makeAlong again location (names part) := leads ▸ exists_makeAlong_append reached
  obtain ⟨next, grown, grows⟩ := exists_grows again descends.down opens.directory passable
  refine ⟨next, ?_, grows, (opens.mono grows.directoriesIn).join descends grows.made⟩
  have whole : '\x00' ∉ (join path part).toList :=
    Path.not_mem_join (by decide) opens.whole descends.whole
  rw [makeDirectories, if_neg whole, start_join descends.relative, joined, continues, grown]

/-- Making the directories of a path that parts were joined to makes those on the way of the parts. -/
theorem makeDirectories_foldl {parts : List Path} (home : tree.node? tree.home = some .directory)
    (made : tree.makeDirectories path = (none, base)) (opens : base.Opens path location)
    (descend : ∀ part ∈ parts, part.Descends)
    (passable : base.Passable location (parts.flatMap steps)) :
    ∃ next, tree.makeDirectories (parts.foldl join path) = (none, next) ∧
      base.Grows location (parts.flatMap steps) next ∧
      next.Opens (parts.foldl join path) (location ++ parts.flatMap steps) := by
  induction parts generalizing base path location with
  | nil =>
      refine ⟨base, made, grows_of_directories fun place passed => ?_, by simpa using opens⟩
      rw [onWay_nil.mp passed]
      exact opens.directory
  | cons part rest ih =>
      rw [List.flatMap_cons] at passable ⊢
      obtain ⟨between, first, grows, opened⟩ :=
        makeDirectories_join home made opens (descend part List.mem_cons_self) passable.left
      obtain ⟨next, last, further, opensLast⟩ := ih first opened
        (fun part member => descend part (List.mem_cons_of_mem _ member)) (grows.passable passable)
      rw [List.append_assoc] at opensLast
      exact ⟨next, last, grows.trans further, opensLast⟩

end Make

end TilePyramid.Files.Tree
