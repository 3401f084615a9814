import TilePyramid.Proofs.Files.Clearing
import TilePyramid.Proofs.Files.Descent

/-!
# Where paths lead

A path that leads anywhere leads to one location, whatever else is there: its names are entered one
after the other. Operations on a path change nothing but what is at this location, and directories
that are missing on the way. A path whose names never climb above where it starts stays below what
it is joined to. Main statements: `Confined.trans`, `confined_makeDirectories` and
`exists_foldl_of_staysBelow`.
-/

set_option autoImplicit false

namespace TilePyramid.Files

open Text.Utf8 (Bytes)
open TilePyramid.Files.Path (join names isIdle)

namespace Tree

/-- The location that the names of a path lead to. -/
def lands (tree : Tree) (path : Path) : Location := (names path).foldl enter (tree.start path)

/-- The names of a path lead through the place, or end there. -/
def OnRoute (tree : Tree) (path : Path) (place : Location) : Prop :=
  ∃ front, front <+: names path ∧ place = front.foldl enter (tree.start path)

/-- What has changed is at places of its own, or is a directory that was missing at a place that is
passed. -/
structure Confined (own passed : Location → Prop) (tree after : Tree) : Prop where
  home : after.home = tree.home
  changed : ∀ place, after.node? place = tree.node? place ∨ own place ∨
    passed place ∧ tree.node? place = none ∧ after.node? place = some .directory

section Confined

variable {tree after later : Tree} {own passed : Location → Prop} {path origin : Path}
  {location : Location} {content : Bytes}

theorem Confined.refl (tree : Tree) : Confined own passed tree tree := ⟨rfl, fun _ => .inl rfl⟩

theorem Confined.trans (first : Confined own passed tree after)
    (second : Confined own passed after later) : Confined own passed tree later where
  home := second.home.trans first.home
  changed place := by
    rcases second.changed place with same | owned | ⟨onWay, missing, directory⟩
    · rw [same]
      exact first.changed place
    · exact .inr (.inl owned)
    · rcases first.changed place with same | owned | ⟨-, -, made⟩
      · exact .inr (.inr ⟨onWay, same ▸ missing, directory⟩)
      · exact .inr (.inl owned)
      · exact absurd (made.symm.trans missing) nofun

theorem lands_congr (home : after.home = tree.home) (path : Path) : after.lands path = tree.lands path := by
  rw [lands, lands, start, start, home]

theorem onRoute_congr (home : after.home = tree.home) {place : Location} :
    after.OnRoute path place ↔ tree.OnRoute path place := by
  rw [OnRoute, OnRoute, start, start, home]

theorem lands_of_locate (reached : tree.locate path = .ok location) :
    '\x00' ∉ path.toList ∧ location = tree.lands path := by
  unfold locate at reached
  split at reached
  · cases reached
  · next whole =>
    split at reached
    · cases reached
    · exact ⟨whole, eq_foldl_of_follow reached⟩

theorem confined_put {node : Node} (inside : location ≠ []) (owned : own location) :
    Confined own passed tree (tree.put location node) where
  home := rfl
  changed place := by
    rw [node?_put _ _ _ inside]
    split
    · next same => exact .inr (.inl (same ▸ owned))
    · exact .inl rfl

theorem confined_erase (inside : location ≠ []) (owned : own location) :
    Confined own passed tree (tree.erase location) where
  home := rfl
  changed place := by
    rw [node?_erase _ _ inside]
    split
    · next same => exact .inr (.inl (same ▸ owned))
    · exact .inl rfl

theorem confined_write (wrote : tree.write path content = .ok after)
    (owned : '\x00' ∉ path.toList → own (tree.lands path)) : Confined own passed tree after := by
  obtain ⟨location, located, free, rfl⟩ := exists_of_write wrote
  obtain ⟨whole, rfl⟩ := lands_of_locate located
  exact confined_put (ne_nil_of_free free) (owned whole)

theorem confined_move (moved : tree.move origin path = .ok after)
    (ownedOrigin : '\x00' ∉ origin.toList → own (tree.lands origin))
    (owned : '\x00' ∉ path.toList → own (tree.lands path)) : Confined own passed tree after := by
  obtain ⟨from?, location, content, locatedOrigin, found, located, free, same | taken⟩ :=
    exists_of_move moved
  · subst same
    exact .refl after
  · obtain ⟨wholeOrigin, rfl⟩ := lands_of_locate locatedOrigin
    obtain ⟨whole, rfl⟩ := lands_of_locate located
    have erased : Confined own passed tree (tree.erase (tree.lands origin)) :=
      confined_erase (ne_nil_of_file found) (ownedOrigin wholeOrigin)
    subst taken
    exact erased.trans (confined_put (ne_nil_of_free free) (owned whole))

theorem confined_remove (removed : tree.remove path = .ok after)
    (owned : '\x00' ∉ path.toList → own (tree.lands path)) : Confined own passed tree after := by
  obtain ⟨location, content, located, found, rfl⟩ := remove_eq_ok_iff.mp removed
  obtain ⟨whole, rfl⟩ := lands_of_locate located
  exact confined_erase (ne_nil_of_file found) (owned whole)

theorem confined_makeAlong (created : Bool) {names : List String}
    (allowed : ∀ front, front <+: names → passed (front.foldl enter location)) :
    Confined own passed tree (tree.makeAlong created location names).2 := by
  induction names generalizing tree created location with
  | nil => exact .refl tree
  | cons name rest ih =>
      have further : ∀ front, front <+: rest → passed (front.foldl enter (enter location name)) :=
        fun front above => allowed (name :: front) (List.cons_prefix_cons.mpr ⟨rfl, above⟩)
      simp only [makeAlong]
      split
      · exact ih _ further
      · exact .refl tree
      · next missing =>
        have inside : enter location name ≠ [] := by
          intro root
          simp [root, node?] at missing
        have made : Confined own passed tree (tree.put (enter location name) .directory) := by
          refine ⟨rfl, fun place => ?_⟩
          rw [node?_put _ _ _ inside]
          split
          · next same =>
            subst same
            exact .inr (.inr ⟨further [] List.nil_prefix, missing, rfl⟩)
          · exact .inl rfl
        exact made.trans (ih true further)

theorem confined_makeDirectories
    (allowed : '\x00' ∉ path.toList → ∀ place, tree.OnRoute path place → passed place) :
    Confined own passed tree (tree.makeDirectories path).2 := by
  unfold makeDirectories
  split
  · exact .refl tree
  · next whole =>
    exact confined_makeAlong false fun front above => allowed whole _ ⟨front, above, rfl⟩

end Confined

/-! ## Directories are never taken away -/

section Directories

variable {tree after : Tree} {path origin : Path} {location : Location} {names : List String}
  {content : Bytes}

theorem directoriesIn_put (free : tree.node? location ≠ some .directory) (content : Bytes) :
    tree.DirectoriesIn (tree.put location (.file content)) := by
  refine ⟨rfl, fun place directory => ?_⟩
  rw [node?_put _ _ _ (ne_nil_of_free free), if_neg]
  · exact directory
  · rintro rfl
    exact free directory

theorem directoriesIn_erase (found : tree.node? location = some (.file content)) :
    tree.DirectoriesIn (tree.erase location) := by
  refine ⟨rfl, fun place directory => ?_⟩
  rw [node?_erase _ _ (ne_nil_of_file found), if_neg]
  · exact directory
  · rintro rfl
    exact absurd (found.symm.trans directory) nofun

theorem directoriesIn_write (wrote : tree.write path content = .ok after) :
    tree.DirectoriesIn after := by
  obtain ⟨location, -, free, rfl⟩ := exists_of_write wrote
  exact directoriesIn_put free content

theorem directoriesIn_remove (removed : tree.remove path = .ok after) :
    tree.DirectoriesIn after := by
  obtain ⟨location, content, -, found, rfl⟩ := remove_eq_ok_iff.mp removed
  exact directoriesIn_erase found

theorem directoriesIn_move (moved : tree.move origin path = .ok after) :
    tree.DirectoriesIn after := by
  obtain ⟨from?, location, content, -, found, -, free, same | taken⟩ := exists_of_move moved
  · subst same
    exact .refl after
  · subst taken
    refine (directoriesIn_erase found).trans (directoriesIn_put ?_ content)
    rw [node?_erase _ _ (ne_nil_of_file found)]
    split
    · nofun
    · exact free

/-- Where there are no files, directories can be created anywhere. -/
theorem exists_makeAlong_of_fileless (created : Bool)
    (fileless : ∀ place content, tree.node? place ≠ some (.file content)) :
    ∃ next, tree.makeAlong created location names = (none, next) := by
  induction names generalizing tree created location with
  | nil => exact ⟨tree, rfl⟩
  | cons name rest ih =>
      simp only [makeAlong]
      split
      · exact ih created fileless
      · next content found => exact absurd found (fileless _ content)
      · next missing =>
        have inside : enter location name ≠ [] := by
          intro root
          simp [root, node?] at missing
        refine ih true fun place content => ?_
        rw [node?_put _ _ _ inside]
        split
        · simp
        · exact fileless place content

end Directories

/-! ## Joined paths -/

section Join

variable {tree : Tree} {path part : Path} {place : Location}

theorem names_join_foldl (tree : Tree) (path : Path) (relative : Path.isAbsolute part = false) :
    ∃ front, tree.lands path = front.foldl enter (tree.start path) ∧ front <+: names path ∧
      names (join path part) = front ++ names part := by
  obtain ⟨front, listed, joined⟩ := Path.names_join path relative
  have idle : isIdle "" = true := rfl
  refine ⟨front, ?_, ?_, joined⟩
  · rcases listed with listed | listed
    · rw [lands, listed]
    · rw [lands, listed, List.foldl_append]
      exact enter_of_idle idle _
  · rcases listed with listed | listed
    · exact listed ▸ List.prefix_rfl
    · exact listed ▸ List.prefix_append front [""]

theorem lands_join (relative : Path.isAbsolute part = false) :
    tree.lands (join path part) = (names part).foldl enter (tree.lands path) := by
  obtain ⟨front, led, -, joined⟩ := names_join_foldl tree path relative
  rw [led, lands, start_join relative, joined, List.foldl_append]

theorem lands_join_of_ordinary {name : String} (ordinary : Path.Ordinary name) :
    tree.lands (join path name) = tree.lands path ++ [name] := by
  rw [lands_join ordinary.relative, ordinary.names]
  exact enter_of_ordinary ordinary _

theorem onRoute_lands (tree : Tree) (path : Path) : tree.OnRoute path (tree.lands path) :=
  ⟨names path, List.prefix_rfl, rfl⟩

theorem onRoute_join (relative : Path.isAbsolute part = false)
    (passed : tree.OnRoute (join path part) place) : tree.OnRoute path place ∨
      ∃ front, front <+: names part ∧ place = front.foldl enter (tree.lands path) := by
  obtain ⟨front, led, above, joined⟩ := names_join_foldl tree path relative
  obtain ⟨taken, within, rfl⟩ := passed
  rw [joined] at within
  rw [start_join relative]
  rcases List.prefix_or_prefix_of_prefix within (List.prefix_append front _) with early | late
  · exact .inl ⟨taken, early.trans above, rfl⟩
  · obtain ⟨rest, rfl⟩ := late
    refine .inr ⟨rest, (List.prefix_append_right_inj front).mp within, ?_⟩
    rw [led, List.foldl_append]

theorem onRoute_join_of_ordinary {name : String} (ordinary : Path.Ordinary name)
    (passed : tree.OnRoute (join path name) place) :
    tree.OnRoute path place ∨ place = tree.lands path ++ [name] := by
  rcases onRoute_join ordinary.relative passed with early | ⟨front, above, rfl⟩
  · exact .inl early
  · rw [ordinary.names] at above
    rcases List.prefix_cons_iff.mp above with rfl | ⟨rest, rfl, ended⟩
    · exact .inl (onRoute_lands tree path)
    · rw [List.prefix_nil.mp ended]
      exact .inr (enter_of_ordinary ordinary _)

end Join

end Tree

/-! ## Paths that never climb above where they start -/

namespace Path

/-- Names that are entered at a depth below some location never lead out of it. -/
def staysBelow : (depth : Nat) → List String → Bool
  | _, [] => true
  | depth, name :: rest =>
      if isIdle name then staysBelow depth rest
      else if name = ".." then
        match depth with
        | 0 => false
        | depth + 1 => staysBelow depth rest
      else staysBelow (depth + 1) rest

section StaysBelow

variable {depth : Nat} {name : String} {rest : List String}

theorem staysBelow_cons_of_idle (idle : isIdle name = true) :
    staysBelow depth (name :: rest) = staysBelow depth rest := by
  cases depth <;> simp [staysBelow, idle]

theorem staysBelow_cons_of_busy (moves : isIdle name = false) (down : name ≠ "..") :
    staysBelow depth (name :: rest) = staysBelow (depth + 1) rest := by
  cases depth <;> simp [staysBelow, moves, down]

end StaysBelow

/-- The path leads to nothing but what is below where it starts, and passes nothing else. -/
def Contained (path : Path) : Prop :=
  isAbsolute path = false ∧ staysBelow 0 (names path) = true

instance (path : Path) : Decidable (Contained path) := inferInstanceAs (Decidable (_ ∧ _))

example : Contained "roads/../day" ∧ ¬ Contained "roads/../../day" ∧ ¬ Contained "/roads" := by
  decide +kernel

end Path

namespace Tree

section Climb

variable {base rel : Location} {names : List String}

theorem enter_up (base : Location) (last : String) : enter (base ++ [last]) ".." = base := by
  simp [enter, Path.isIdle]

theorem exists_foldl_of_staysBelow (stays : Path.staysBelow rel.length names = true)
    {front : List String} (above : front <+: names) :
    ∃ rest, front.foldl enter (base ++ rel) = base ++ rest := by
  induction names generalizing rel front with
  | nil =>
      rw [List.prefix_nil.mp above]
      exact ⟨rel, rfl⟩
  | cons name names ih =>
      cases front with
      | nil => exact ⟨rel, rfl⟩
      | cons first front =>
          obtain ⟨rfl, within⟩ := List.cons_prefix_cons.mp above
          rw [List.foldl_cons]
          cases moves : isIdle first with
          | true =>
              rw [Path.staysBelow_cons_of_idle moves] at stays
              rw [enter_of_idle moves]
              exact ih stays within
          | false =>
              by_cases up : first = ".."
              · subst up
                rcases List.eq_nil_or_concat rel with rfl | ⟨outer, last, rfl⟩
                · cases stays
                · rw [List.concat_eq_append, List.length_append] at stays
                  rw [List.concat_eq_append, ← List.append_assoc, enter_up]
                  exact ih stays within
              · rw [Path.staysBelow_cons_of_busy moves up] at stays
                rw [enter_of_busy moves up, List.append_assoc]
                refine ih ?_ within
                rwa [List.length_append]

theorem not_mem_foldl_enter {name : String} (outside : name ∉ base) (unnamed : name ∉ names) :
    name ∉ names.foldl enter base := by
  induction names generalizing base with
  | nil => exact outside
  | cons first names ih =>
      rw [List.mem_cons, not_or] at unnamed
      refine ih ?_ unnamed.2
      unfold enter
      split
      · exact outside
      · split
        · exact fun member => outside (List.dropLast_subset base member)
        · simp [outside, unnamed.1]

/-- Names that climb out of a directory lead away from it, unless they name it. -/
theorem not_mem_foldl_of_climbs {name : String} (climbs : Path.staysBelow rel.length names = false)
    (outside : name ∉ base) (unnamed : name ∉ names) :
    name ∉ names.foldl enter (base ++ [name] ++ rel) := by
  induction names generalizing rel with
  | nil => cases climbs
  | cons first names ih =>
      rw [List.mem_cons, not_or] at unnamed
      rw [List.foldl_cons]
      cases moves : isIdle first with
      | true =>
          rw [Path.staysBelow_cons_of_idle moves] at climbs
          rw [enter_of_idle moves]
          exact ih climbs unnamed.2
      | false =>
          by_cases up : first = ".."
          · subst up
            rcases List.eq_nil_or_concat rel with rfl | ⟨outer, last, rfl⟩
            · rw [List.append_nil, enter_up]
              exact not_mem_foldl_enter outside unnamed.2
            · rw [List.concat_eq_append, List.length_append] at climbs
              rw [List.concat_eq_append, ← List.append_assoc, enter_up]
              exact ih climbs unnamed.2
          · rw [Path.staysBelow_cons_of_busy moves up] at climbs
            rw [enter_of_busy moves up, List.append_assoc]
            refine ih ?_ unnamed.2
            rwa [List.length_append]

end Climb

end Tree

end TilePyramid.Files
