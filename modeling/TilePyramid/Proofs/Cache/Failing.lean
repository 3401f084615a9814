import TilePyramid.Proofs.Files.Reading
import TilePyramid.Proofs.Operation.Containment

/-!
# Storing in a directory that fails

Storing content in a directory cache may fail at each of its steps, whatever lies where. No entry of
a whole map is lost by this, and no other entry by storing that succeeds: what is told of them stays
the same, hit, miss or failure. There is one exception. Where the root of the cache leads up out of
a directory that is missing, all entries are told as missing until storing has made that directory.
Main statement: `Cache.storing_spares_other_entries`.
-/

set_option autoImplicit false

namespace TilePyramid

open Text.Utf8 (Bytes)
open Files (Path Location Tree Fault)
open Files.Tree (Confined Footing Sound Steady)

/-- The name is one ordinary component of a path. -/
structure Files.Path.Component (name : String) : Prop where
  undivided : '/' ∉ name.toList
  busy : isIdle name = false
  down : name ≠ ".."

theorem Files.Path.Component.ordinary {name : String} (component : Component name)
    (whole : '\x00' ∉ name.toList) : Ordinary name :=
  ⟨component.undivided, whole, component.busy, component.down⟩

/-! ## Trees stay sound -/

theorem sound_perform (source : Map → Tile → SourceReply) {world : World}
    (sound : world.files.Sound) (effect : Effect) :
    (world.perform source effect).2.files.Sound := by
  have changes {change : Except Fault Tree} (kept : ∀ files, change = .ok files → files.Sound) :
      (world.changeFiles change).2.files.Sound := by
    cases change with
    | ok files => exact kept files rfl
    | error fault => exact sound
  cases effect with
  | makeDirectories path => exact sound.makeDirectories path
  | writeFile path content => exact changes fun files => sound.write
  | removeFile path => exact changes fun files => sound.remove
  | moveFile origin path => exact changes fun files => sound.move
  | _ => exact sound

theorem sound_on {α : Type} (source : Map → Tile → SourceReply) (action : Action α) {world : World}
    (sound : world.files.Sound) : (action.on source world).2.files.Sound := by
  induction action generalizing world with
  | done result => exact sound
  | ask effect next ih => exact ih _ (sound_perform source sound effect)

/-- The names on the way from the root of a cache to the entry of a job. -/
def Job.way (job : Job) : List String := [job.map, toString job.tile.level, toString job.tile.x]

namespace Cache

/-! ## The steps of storing -/

/-- What storing content at a path comes to, by the step it gets to, and the tree that it leaves. -/
inductive Storing (tree : Tree) (path : Path) (content : Bytes) :
    Except Report Unit → Tree → Prop where
  | unmade {fault : Fault} {base : Tree}
      (made : tree.makeDirectories (entryDirectory path) = (some fault, base)) :
      Storing tree path content
        (.error (fileReport "creating cache directory" (entryDirectory path) fault)) base
  | unwritten {fault : Fault} {base : Tree}
      (made : tree.makeDirectories (entryDirectory path) = (none, base))
      (failed : base.write (temporaryPath path) content = .error fault) :
      Storing tree path content
        (.error (fileReport "writing cached tile" (temporaryPath path) fault)) base
  | unmoved {fault : Fault} {base written : Tree}
      (made : tree.makeDirectories (entryDirectory path) = (none, base))
      (wrote : base.write (temporaryPath path) content = .ok written)
      (failed : written.move (temporaryPath path) path = .error fault) :
      Storing tree path content
        (.error (fileReport "moving cached tile into place at" path fault)) written
  | stored {base written moved : Tree}
      (made : tree.makeDirectories (entryDirectory path) = (none, base))
      (wrote : base.write (temporaryPath path) content = .ok written)
      (put : written.move (temporaryPath path) path = .ok moved) :
      Storing tree path content (.ok ()) moved

section Storing

variable {source : Map → Tile → SourceReply} {tree after : Tree} {path root : Path} {job : Job}
  {content : Bytes} {world : World} {result : Except Report Unit}

theorem exists_storing (source : Map → Tile → SourceReply) (path : Path) (content : Bytes)
    (world : World) : ∃ result files,
      (preparing path content).on source world = (result, { world with files }) ∧
        Storing world.files path content result files := by
  simp only [preparing, Action.on_ask, World.perform]
  rcases made : world.files.makeDirectories (entryDirectory path) with ⟨_ | fault, base⟩
  · simp only [writing, Action.on_ask, World.perform]
    cases wrote : base.write (temporaryPath path) content with
    | error fault => exact ⟨_, base, rfl, .unwritten made wrote⟩
    | ok written =>
        simp only [World.changeFiles, moving, Action.on_ask, World.perform]
        cases put : written.move (temporaryPath path) path with
        | error fault => exact ⟨_, written, rfl, .unmoved made wrote put⟩
        | ok moved => exact ⟨_, moved, rfl, .stored made wrote put⟩
  · exact ⟨_, base, rfl, .unmade made⟩

/-- Where nothing can be made, nothing is changed. -/
theorem Storing.eq_of_unmade {fault : Fault} (storing : Storing tree path content result after)
    (unmade : tree.makeDirectories (entryDirectory path) = (some fault, tree)) : after = tree := by
  cases storing with
  | unmade made => exact (congrArg Prod.snd (unmade.symm.trans made)).symm
  | unwritten made => cases unmade.symm.trans made
  | unmoved made => cases unmade.symm.trans made
  | stored made => cases unmade.symm.trans made

theorem lands_temporaryPath_ne (root : Path) (tree : Tree) (job : Job) :
    tree.lands (temporaryPath (entryPath root (.ofJob job))) ≠
      tree.lands (entryPath root (.ofJob job)) := by
  rw [lands_temporaryPath, lands_entryPath]
  intro same
  have ends : toString job.tile.y ++ "-tmp" = toString job.tile.y :=
    List.singleton_inj.mp (List.append_cancel_left same)
  simpa using congrArg String.length ends

/-- Storing changes the entry only if it succeeds, and else no more than its sibling and the
directories on the way to it. -/
theorem Storing.confined {own : Location → Prop}
    (storing : Storing tree (entryPath root (.ofJob job)) content result after)
    (spare : ∀ place, job.Owns root tree place → place ≠ tree.lands (entryPath root (.ofJob job)) →
      own place)
    (entry : ∀ place, job.Owns root tree place → result = .ok () → own place) :
    Confined own (job.Passes root tree) tree after := by
  have makes {fault? : Option Fault} {base : Tree} (made :
      tree.makeDirectories (entryDirectory (entryPath root (.ofJob job))) = (fault?, base)) :
      Confined own (job.Passes root tree) tree base := by
    have confined := @Tree.confined_makeDirectories tree own (job.Passes root tree) _
      fun whole _ onRoute => ⟨whole_of_entryDirectory whole, onRoute⟩
    rwa [made] at confined
  have spared (whole : '\x00' ∉ (temporaryPath (entryPath root (.ofJob job))).toList) :
      own (tree.lands (temporaryPath (entryPath root (.ofJob job)))) :=
    spare _ ⟨whole_of_temporaryPath whole, .inr rfl⟩ (lands_temporaryPath_ne root tree job)
  have writes {base written : Tree} (home : base.home = tree.home)
      (wrote : base.write (temporaryPath (entryPath root (.ofJob job))) content = .ok written) :
      Confined own (job.Passes root tree) base written := by
    refine Tree.confined_write wrote fun whole => ?_
    rw [Tree.lands_congr home]
    exact spared whole
  cases storing with
  | unmade made => exact makes made
  | unwritten made => exact makes made
  | unmoved made wrote => exact (makes made).trans (writes (makes made).home wrote)
  | @stored base written moved made wrote put =>
      have between := (makes made).trans (writes (makes made).home wrote)
      refine between.trans (Tree.confined_move put (fun whole => ?_) fun whole => ?_)
      · rw [Tree.lands_congr between.home]
        exact spared whole
      · rw [Tree.lands_congr between.home]
        exact entry _ ⟨whole, .inl rfl⟩ rfl

end Storing

/-! ## What is read of an entry -/

section Reading

variable {root : Path} {tree after : Tree} {front down : List String} {location place : Location}
  {job other : Job}

theorem ordinary_of_mem {name : String} (ordinary : Path.Ordinary job.map)
    (member : name ∈ job.way ++ [toString job.tile.y]) : Path.Ordinary name := by
  simp only [Job.way, List.mem_append, List.mem_cons, List.not_mem_nil, or_false] at member
  rcases member with (rfl | rfl | rfl) | rfl
  · exact ordinary
  all_goals exact Path.ordinary_toString _

theorem read_entryPath (ordinary : Path.Ordinary job.map)
    (whole : '\x00' ∉ (entryPath root (.ofJob job)).toList) :
    tree.read (entryPath root (.ofJob job)) = (tree.follow (tree.start root) (Path.names root)).bind
      (tree.readAlong · (job.way ++ [toString job.tile.y])) := by
  have names : (Key.ofJob job).parts.flatMap Path.names = job.way ++ [toString job.tile.y] := by
    show (job.way ++ [toString job.tile.y]).flatMap Path.names = _
    rw [List.flatMap_congr fun part member => (ordinary_of_mem ordinary member).names]
    exact List.flatMap_singleton' _
  have relative : ∀ part ∈ (Key.ofJob job).parts, Path.isAbsolute part = false :=
    fun part member => (ordinary_of_mem ordinary member).relative
  have some : (entryPath root (.ofJob job)).toList ≠ [] := by simp [entryPath_eq]
  rw [Tree.read_eq_readAlong whole some, Tree.readAlong, entryPath,
    Tree.follow_foldl tree root relative, names]
  cases tree.follow (tree.start root) (Path.names root) <;> rfl

theorem length_append_way (location : Location) (name : String) :
    (location ++ (job.way ++ [name])).length = location.length + 4 := by
  simp only [Job.way, List.length_append, List.length_cons, List.length_nil]

theorem lands_entryPath_ofJob (ordinary : Path.Ordinary job.map) :
    tree.lands (entryPath root (.ofJob job)) =
      tree.lands root ++ (job.way ++ [toString job.tile.y]) := by
  rw [lands_entryPath, lands_frontPath, Tree.lands_join_of_ordinary ordinary]
  simp [Job.way]

theorem read_of_footing (footing : tree.Footing root front down location)
    (ordinary : Path.Ordinary job.map) (whole : '\x00' ∉ (entryPath root (.ofJob job)).toList) :
    tree.read (entryPath root (.ofJob job)) =
      tree.readAlong location (down ++ job.way ++ [toString job.tile.y]) := by
  rw [read_entryPath ordinary whole, footing.split, ← Tree.readAlong_append, List.append_assoc,
    Tree.readAlong_append, footing.reached, ← List.append_assoc]
  rfl

/-- What is read of an entry is known from what lies at its place and which files are above. -/
theorem read_entryPath_congr (footing : tree.Footing root front down location)
    (more : tree.DirectoriesIn after) (closed : tree.Closed) (closedAfter : after.Closed)
    (ordinary : Path.Ordinary job.map) (whole : '\x00' ∉ (entryPath root (.ofJob job)).toList)
    (ends : after.node? (tree.lands (entryPath root (.ofJob job))) =
      tree.node? (tree.lands (entryPath root (.ofJob job))))
    (files : ∀ place, place.length < (tree.lands (entryPath root (.ofJob job))).length → ∀ held,
      after.node? place = some (.file held) ↔ tree.node? place = some (.file held)) :
    after.read (entryPath root (.ofJob job)) = tree.read (entryPath root (.ofJob job)) := by
  have last := Path.ordinary_toString job.tile.y
  have busy : Path.busy (down ++ job.way) = Path.busy down ++ job.way := by
    rw [Path.busy, List.filter_append]
    refine congrArg (Path.busy down ++ ·) (List.filter_eq_self.mpr fun name member => ?_)
    simp [(ordinary_of_mem ordinary (List.mem_append_left _ member)).busy]
  have level : ".." ∉ down ++ job.way := by
    rw [List.mem_append, not_or]
    refine ⟨footing.level, fun up => ?_⟩
    exact (ordinary_of_mem ordinary (List.mem_append_left _ up)).down rfl
  have place : tree.lands (entryPath root (.ofJob job)) =
      location ++ (Path.busy (down ++ job.way) ++ [toString job.tile.y]) := by
    rw [lands_entryPath_ofJob ordinary, footing.lands, busy]
    simp
  rw [read_of_footing footing ordinary whole, read_of_footing (footing.mono more) ordinary whole]
  refine Tree.readAlong_congr level last.busy last.down closed closedAfter (place ▸ ends) ?_
  rintro _ ⟨front, above, rfl⟩ content
  refine files _ ?_ content
  have length := above.length_le
  rw [place]
  simp only [List.length_append, List.length_singleton]
  omega

theorem lands_temporaryPath_ofJob (ordinary : Path.Ordinary job.map) :
    tree.lands (temporaryPath (entryPath root (.ofJob job))) =
      tree.lands root ++ (job.way ++ [toString job.tile.y ++ "-tmp"]) := by
  rw [lands_temporaryPath, lands_frontPath, Tree.lands_join_of_ordinary ordinary]
  simp [Job.way]

/-- A directory that is missing on the way to an entry is above the entries. -/
theorem length_of_passes (footing : tree.Footing root front down location)
    (ordinary : Path.Ordinary job.map) (passes : job.Passes root tree place)
    (missing : tree.node? place = none) : place.length < (tree.lands root).length + 4 := by
  have onRoute := passes.2
  rw [entryDirectory_entryPath, frontPath_ofJob] at onRoute
  have level := Path.ordinary_toString job.tile.level
  have column := Path.ordinary_toString job.tile.x
  rcases Tree.onRoute_join_of_ordinary column onRoute with onRoute | same
  · rcases Tree.onRoute_join_of_ordinary level onRoute with onRoute | same
    · rcases Tree.onRoute_join_of_ordinary ordinary onRoute with onRoute | same
      · rcases footing.onRoute onRoute with directory | short
        · cases missing.symm.trans directory
        · omega
      · rw [same, List.length_append, List.length_singleton]
        omega
    · rw [same, Tree.lands_join_of_ordinary ordinary]
      simp only [List.length_append, List.length_singleton]
      omega
  · rw [same, Tree.lands_join_of_ordinary level, Tree.lands_join_of_ordinary ordinary]
    simp only [List.length_append, List.length_singleton]
    omega

theorem length_of_owns (ordinary : Path.Ordinary job.map) (owns : job.Owns root tree place) :
    place.length = (tree.lands root).length + 4 := by
  rcases owns.2 with same | same
  · rw [same, lands_entryPath_ofJob ordinary, length_append_way]
  · rw [same, lands_temporaryPath_ofJob ordinary, length_append_way]

/-- The entries of two jobs are at two places, and no sibling is at the place of an entry. -/
theorem eq_of_owns (ordinary : Path.Ordinary job.map) (ordinaryOther : Path.Ordinary other.map)
    (owns : job.Owns root tree (tree.lands (entryPath root (.ofJob other)))) : other = job := by
  rcases owns.2 with same | same
  · rw [lands_entryPath_ofJob ordinary, lands_entryPath_ofJob ordinaryOther] at same
    have names := List.append_cancel_left same
    simp only [Job.way, List.cons_append, List.nil_append, List.cons.injEq, and_true] at names
    obtain ⟨map, level, x, y⟩ := names
    obtain ⟨name, ⟨zoom, column, row⟩⟩ := job
    obtain ⟨nameOther, ⟨zoomOther, columnOther, rowOther⟩⟩ := other
    simp only at map level x y
    rw [map, Path.toString_injective level, Path.toString_injective x, Path.toString_injective y]
  · rw [lands_temporaryPath_ofJob ordinary, lands_entryPath_ofJob ordinaryOther] at same
    obtain ⟨-, ends⟩ := List.append_inj' (List.append_cancel_left same) rfl
    have dash : '-' ∈ (toString other.tile.y).toList := by
      rw [List.singleton_inj.mp ends]
      simp
    exact absurd (Path.isDigit_of_mem_toString dash) (by decide)

end Reading

section Kept

variable {root : Path} {tree after : Tree} {front down : List String} {location place : Location}
  {job other : Job} {content : Bytes} {result : Except Report Unit}

theorem Storing.changed (storing : Storing tree (entryPath root (.ofJob job)) content result after)
    (place : Location) : after.node? place = tree.node? place ∨
      job.Owns root tree place ∧
        (result = .ok () ∨ place ≠ tree.lands (entryPath root (.ofJob job))) ∨
      job.Passes root tree place ∧ tree.node? place = none ∧
        after.node? place = some .directory := by
  have confined : Confined (fun place => job.Owns root tree place ∧
      (result = .ok () ∨ place ≠ tree.lands (entryPath root (.ofJob job))))
      (job.Passes root tree) tree after :=
    storing.confined (fun _ owns different => ⟨owns, .inr different⟩)
      fun _ owns done => ⟨owns, .inl done⟩
  exact confined.changed place

/-- Above the entries, storing makes directories where nothing was. -/
theorem Storing.file_iff (storing : Storing tree (entryPath root (.ofJob job)) content result after)
    (ordinary : Path.Ordinary job.map) (above : place.length < (tree.lands root).length + 4)
    (held : Bytes) :
    after.node? place = some (.file held) ↔ tree.node? place = some (.file held) := by
  rcases storing.changed place with same | ⟨owns, -⟩ | ⟨-, missing, made⟩
  · rw [same]
  · have length := length_of_owns ordinary owns
    omega
  · rw [missing, made]
    exact ⟨nofun, nofun⟩

/-- Storing that fails leaves all entries in place, and storing that succeeds leaves all others. -/
theorem Storing.node?_entry
    (storing : Storing tree (entryPath root (.ofJob job)) content result after)
    (footing : tree.Footing root front down location) (ordinary : Path.Ordinary job.map)
    (ordinaryOther : Path.Ordinary other.map) (spared : result ≠ .ok () ∨ other ≠ job) :
    after.node? (tree.lands (entryPath root (.ofJob other))) =
      tree.node? (tree.lands (entryPath root (.ofJob other))) := by
  rcases storing.changed (tree.lands (entryPath root (.ofJob other))) with
    same | ⟨owns, change⟩ | ⟨passes, missing, -⟩
  · exact same
  · obtain rfl := eq_of_owns ordinary ordinaryOther owns
    rcases change with done | different
    · rcases spared with failed | different
      · exact absurd done failed
      · exact absurd rfl different
    · exact absurd rfl different
  · have length := length_of_passes footing ordinary passes missing
    rw [lands_entryPath_ofJob ordinaryOther, length_append_way] at length
    exact absurd length (lt_irrefl _)

/-- Nothing is stored where a file is in the way of the root. -/
theorem Storing.eq_of_file
    (storing : Storing tree (entryPath root (.ofJob job)) content result after) (sound : tree.Sound)
    (ordinary : Path.Ordinary job.map)
    (blocked : tree.follow (tree.start root) (Path.names root) = .error .notADirectory) :
    after = tree := by
  have relative : ∀ part ∈ (Key.ofJob job).front, Path.isAbsolute part = false := by
    intro part member
    have listed : part ∈ job.way ++ [toString job.tile.y] := List.mem_append_left _ member
    exact (ordinary_of_mem ordinary listed).relative
  have stuck : tree.follow (tree.start (frontPath root (.ofJob job)))
      (Path.names (frontPath root (.ofJob job))) = .error .notADirectory := by
    rw [frontPath, Tree.follow_foldl tree root relative, blocked]
    rfl
  obtain ⟨fault, unmade⟩ := sound.makeDirectories_of_file stuck
  rw [← entryDirectory_entryPath] at unmade
  exact storing.eq_of_unmade unmade

theorem Storing.eq_of_nul
    (storing : Storing tree (entryPath root (.ofJob job)) content result after)
    (nul : '\x00' ∈ (entryPath root (.ofJob job)).toList) : after = tree := by
  have inFront : '\x00' ∈ (entryDirectory (entryPath root (.ofJob job))).toList := by
    by_contra whole
    exact whole_of_entryDirectory whole nul
  exact storing.eq_of_unmade (by rw [Tree.makeDirectories, if_pos inFront])

/-- What is read of entries that storing does not replace stays the same, if the root is steady. -/
theorem Storing.read_other
    (storing : Storing tree (entryPath root (.ofJob job)) content result after) (sound : tree.Sound)
    (soundAfter : after.Sound) (more : tree.DirectoriesIn after) (steady : tree.Steady root)
    (component : Path.Component job.map) (ordinaryOther : Path.Ordinary other.map)
    (wholeOther : '\x00' ∉ (entryPath root (.ofJob other)).toList)
    (spared : result ≠ .ok () ∨ other ≠ job) :
    after.read (entryPath root (.ofJob other)) = tree.read (entryPath root (.ofJob other)) := by
  by_cases nul : '\x00' ∈ (entryPath root (.ofJob job)).toList
  · rw [storing.eq_of_nul nul]
  have ordinary := component.ordinary (whole_map nul)
  by_cases blocked : tree.follow (tree.start root) (Path.names root) = .error .notADirectory
  · rw [storing.eq_of_file sound ordinary blocked]
  · obtain ⟨front, down, location, footing⟩ := sound.exists_footing steady blocked
    refine read_entryPath_congr footing more sound.closed soundAfter.closed ordinaryOther wholeOther
      (storing.node?_entry footing ordinary ordinaryOther spared) fun place above held => ?_
    refine storing.file_iff ordinary ?_ held
    rwa [lands_entryPath_ofJob ordinaryOther, length_append_way] at above

end Kept

section Answers

variable {source : Map → Tile → SourceReply} {root : Path} {maxZoom : Option Nat} {job other : Job}
  {content : Bytes} {world : World} {files : Tree} {result : Except Report Unit}

theorem answer_of_not_steady (unsteady : ¬ world.files.Steady root)
    (ordinary : Path.Ordinary job.map) (whole : '\x00' ∉ (entryPath root (.ofJob job)).toList) :
    answer source (directory root maxZoom) (.ofJob job) world = .ok none := by
  rw [answer_directory, read_entryPath ordinary whole, Tree.follow_of_not_steady unsteady]
  rfl

/-- What is told of entries that storing does not replace stays the same, or was told as missing
because the root leads up out of a missing directory. -/
theorem answer_of_storing
    (storing : Storing world.files (entryPath root (.ofJob job)) content result files)
    (sound : world.files.Sound) (soundAfter : files.Sound) (more : world.files.DirectoriesIn files)
    (component : Path.Component job.map) (componentOther : Path.Component other.map)
    (spared : result ≠ .ok () ∨ other ≠ job) :
    answer source (directory root maxZoom) (.ofJob other) { world with files } =
        answer source (directory root maxZoom) (.ofJob other) world ∨
      ¬ world.files.Steady root ∧
        answer source (directory root maxZoom) (.ofJob other) world = .ok none := by
  by_cases nul : '\x00' ∈ (entryPath root (.ofJob other)).toList
  · left
    rw [answer_directory, answer_directory, Tree.read_of_nul nul, Tree.read_of_nul nul]
  have ordinaryOther := componentOther.ordinary (whole_map nul)
  by_cases steady : world.files.Steady root
  · left
    rw [answer_directory, answer_directory,
      storing.read_other sound soundAfter more steady component ordinaryOther nul spared]
  · exact .inr ⟨steady, answer_of_not_steady steady ordinaryOther nul⟩

theorem answer_of_stored
    (stored : (preparing (entryPath root (.ofJob job)) content).on source world =
      (.ok (), { world with files })) :
    answer source (directory root maxZoom) (.ofJob job) { world with files } =
      .ok (some content) := by
  obtain ⟨site, contents, place, made, holds⟩ := exists_site (congrArg Prod.fst stored)
  obtain ⟨moved, performed, after⟩ := Stocked.preparing_on holds made
  rw [place] at performed
  have same : files = moved := congrArg (fun ended => ended.2.files) (stored.symm.trans performed)
  have holdsAfter : site.Holds ⟨some content, none⟩ ({ world with files } : World).files :=
    same ▸ after
  exact holdsAfter.answer place

end Answers

/-- Storing content for a whole map in a directory, whatever lies where. Below the depth limit
nothing is touched. Else, if storing fails, whatever is told of any whole map stays the same; if it
succeeds, its content is told of its key, and what is told of any other stays the same. The one
exception is a root that leads up out of a missing directory: there, what was told as missing may be
told otherwise. Nothing changes in the files but the entry, its sibling and directories that were
missing on the way to the entry. -/
theorem storing_spares_other_entries {root : Path} {maxZoom : Option Nat} {job : Job}
    {world : World} (sound : world.files.Sound) (component : Path.Component job.map)
    (content : Bytes) (source : Map → Tile → SourceReply) :
    let cache := directory root maxZoom
    let stored := (cache.set (.ofJob job) content).on source world
    (keeps maxZoom job.tile.level = false → stored = (.ok (), world)) ∧
    (∀ other : Job, Path.Component other.map → stored.1 ≠ .ok () ∨ other ≠ job →
      answer source cache (.ofJob other) stored.2 = answer source cache (.ofJob other) world ∨
        ¬ world.files.Steady root ∧ answer source cache (.ofJob other) world = .ok none) ∧
    (keeps maxZoom job.tile.level = true → stored.1 = .ok () →
      answer source cache (.ofJob job) stored.2 = .ok (some content)) ∧
    ∃ files, stored.2 = { world with files } ∧
      Confined (job.Owns root world.files) (job.Passes root world.files) world.files files := by
  intro cache stored
  cases kept : keeps maxZoom job.tile.level with
  | false =>
      have same : stored = (.ok (), world) := Stocked.set_on_of_deep kept
      refine ⟨fun _ => same, fun _ _ _ => .inl (by rw [same]), nofun, world.files, ?_, .refl _⟩
      rw [same]
  | true =>
      obtain ⟨result, files, performed, storing⟩ :=
        exists_storing source (entryPath root (.ofJob job)) content world
      have same : stored = (result, { world with files }) := by
        rw [← performed, ← set_eq root kept content]
      have soundAfter : stored.2.files.Sound := sound_on source _ sound
      have more : world.files.DirectoriesIn stored.2.files := directoriesIn_on source _ world
      rw [same] at soundAfter more ⊢
      have confined : Confined (job.Owns root world.files) (job.Passes root world.files)
          world.files files := storing.confined (fun _ owns _ => owns) fun _ owns _ => owns
      refine ⟨nofun, ?_, ?_, files, rfl, confined⟩
      · intro other componentOther spared
        exact answer_of_storing storing sound soundAfter more component componentOther spared
      · intro _ done
        obtain rfl : result = .ok () := done
        exact answer_of_stored performed

/-- A tile is cached, and a directory is in the place of another. -/
def obstructedWorld : World :=
  { files := (Tree.empty.place "tiles/osm/0/0/0" [7]).place "tiles/osm/1/0/0/" [] }

theorem sound_obstructedWorld : obstructedWorld.files.Sound :=
  (Files.Tree.sound_empty.place "tiles/osm/0/0/0" [7]).place "tiles/osm/1/0/0/" []

theorem component_osm : Path.Component "osm" := ⟨by decide, by decide, by decide⟩

/-- Storing where the directory is. -/
def obstructedStoring (root : Path) : Except Report Unit × World :=
  ((directory root none).set (.ofJob ⟨"osm", ⟨1, 0, 0⟩⟩) [8]).on (ruledSource []) obstructedWorld

/-- The sibling has been written but cannot be moved into place. The cached tile is still told. -/
theorem obstructed_storing_spares_cached_tile :
    (obstructedStoring "tiles").1 ≠ .ok () ∧
      answer (ruledSource []) (directory "tiles" none) (.ofJob ⟨"osm", ⟨0, 0, 0⟩⟩)
        (obstructedStoring "tiles").2 = .ok (some [7]) := by
  have failed : (obstructedStoring "tiles").1 ≠ .ok () := by decide +kernel
  have cached : answer (ruledSource []) (directory "tiles" none) (.ofJob ⟨"osm", ⟨0, 0, 0⟩⟩)
      obstructedWorld = .ok (some [7]) := by decide +kernel
  have steady : obstructedWorld.files.Steady "tiles" :=
    Files.Tree.steady_of_down (by decide +kernel)
  obtain ⟨-, spares, -⟩ := @storing_spares_other_entries "tiles" none ⟨"osm", ⟨1, 0, 0⟩⟩
    obstructedWorld sound_obstructedWorld component_osm [8] (ruledSource [])
  rcases spares ⟨"osm", ⟨0, 0, 0⟩⟩ component_osm (.inl failed) with same | ⟨unsteady, -⟩
  · exact ⟨failed, same.trans cached⟩
  · exact absurd steady unsteady

/-- The root leads up out of a directory that is missing, and storing makes it before it fails. The
cached tile was told as missing and is now found. -/
theorem obstructed_storing_uncovers_cached_tile :
    obstructedWorld.files.Sound ∧ Path.Component "osm" ∧
      (obstructedStoring "missing/../tiles").1 ≠ .ok () ∧
      answer (ruledSource []) (directory "missing/../tiles" none) (.ofJob ⟨"osm", ⟨0, 0, 0⟩⟩)
        obstructedWorld = .ok none ∧
      answer (ruledSource []) (directory "missing/../tiles" none) (.ofJob ⟨"osm", ⟨0, 0, 0⟩⟩)
        (obstructedStoring "missing/../tiles").2 = .ok (some [7]) :=
  ⟨sound_obstructedWorld, component_osm, by decide +kernel, by decide +kernel, by decide +kernel⟩

end Cache

end TilePyramid
