import Mathlib.Data.Set.Finite.Basic
import TilePyramid.Proofs.Files.Route
import TilePyramid.Proofs.Operation.Isolation

/-!
# What operations change in a directory

Operations on jobs through a cache in a directory change nothing but the entries of the jobs and
their siblings, and create the directories that are missing on the way to them. All this is inside of
the directory of the cache, whichever that is, if and only if the names of the maps are relative and
never climb above where they start. Main statement: `changes_inside_iff_contained`.
-/

set_option autoImplicit false

namespace TilePyramid

open Files (Path Location Tree)
open Files.Tree (Confined)

/-! ## Worlds that are passed -/

section Worlds

variable {α : Type}

/-- The worlds that a task passes through, one after each of its effects. -/
def Work.worlds (source : Map → Tile → SourceReply) :
    Task Effect Effect.Reply α → Bool → World → List World
  | .done _, _, _ => []
  | .ask .isCancelled next, cancelled, world => Work.worlds source (next cancelled) cancelled world
  | .ask .cancel next, _, world => Work.worlds source (next ()) true world
  | .ask .untilCancelled next, cancelled, world =>
      if cancelled then Work.worlds source (next ()) cancelled world else []
  | .ask (.effect effect) next, cancelled, world =>
      let (reply, after) := world.perform source effect
      after :: Work.worlds source (next reply) cancelled after

def Errand.worlds (atlas : Atlas) (world : World) (errand : Errand) : List World :=
  match Operation.of atlas errand.options errand.activity with
  | .ok operation => Work.worlds errand.source (operation errand.job) errand.cancelled world
  | .error _ => []

/-- The worlds that operations pass through, one operation after the other. -/
def worldsDuring (atlas : Atlas) : World → List Errand → List World
  | world, [] => [world]
  | world, errand :: rest =>
      world :: errand.worlds atlas world ++ worldsDuring atlas (errand.on atlas world) rest

/-- A task that keeps a contract passes only worlds that the contract allows. -/
theorem Task.Keeps.allows_worlds {contract : Contract Effect Effect.Reply World}
    {promise : α → World → Prop} {work : Work α} {world : World}
    (keeps : Task.Keeps contract promise work world) (source : Map → Tile → SourceReply)
    (answered : ∀ effect before, contract.answers effect before (before.perform source effect).1
      (before.perform source effect).2) (cancelled : Bool) :
    (∀ reached ∈ Work.worlds source work cancelled world, contract.allows world reached) ∧
      contract.allows world (work.on source cancelled world).2 := by
  induction keeps generalizing cancelled with
  | @done result world _ => exact ⟨by simp [Work.worlds], contract.refl world⟩
  | isCancelled _ ih => exact ih cancelled cancelled
  | cancel _ ih => exact ih true
  | @untilCancelled next world _ ih =>
      rw [Work.on_untilCancelled, Work.worlds]
      cases cancelled with
      | true => exact ih true
      | false => exact ⟨by simp, contract.refl world⟩
  | @effect effect next world allowed _ ih =>
      have answer := answered effect world
      have change := allowed (contract.refl world) answer
      obtain ⟨passed, last⟩ := ih (contract.refl world) answer cancelled
      refine ⟨?_, contract.trans change last⟩
      rw [Work.worlds]
      intro reached member
      rcases List.mem_cons.mp member with rfl | member
      · exact change
      · exact contract.trans change (passed reached member)

end Worlds

/-! ## Confined effects -/

section Confined

variable {own passed : Location → Prop} {world : World}

/-- What the effect may change of files is allowed. -/
def Effect.Within (own passed : Location → Prop) (tree : Tree) : Effect → Prop
  | .makeDirectories path =>
      '\x00' ∉ path.toList → ∀ place, tree.OnRoute path place → passed place
  | .writeFile path _ | .removeFile path => '\x00' ∉ path.toList → own (tree.lands path)
  | .moveFile origin path =>
      ('\x00' ∉ origin.toList → own (tree.lands origin)) ∧
        ('\x00' ∉ path.toList → own (tree.lands path))
  | _ => True

theorem Effect.within_congr {tree after : Tree} (home : after.home = tree.home) {effect : Effect}
    (within : effect.Within own passed tree) : effect.Within own passed after := by
  cases effect <;>
    simp only [Effect.Within, Tree.lands_congr home, Tree.onRoute_congr home] at within ⊢ <;>
    exact within

theorem confined_changeFiles {change : Except Files.Fault Tree}
    (confined : ∀ files, change = .ok files → Confined own passed world.files files) :
    Confined own passed world.files (world.changeFiles change).2.files := by
  cases change with
  | ok files => exact confined files rfl
  | error fault => exact .refl world.files

theorem confined_perform {effect : Effect} (within : effect.Within own passed world.files)
    (source : Map → Tile → SourceReply) :
    Confined own passed world.files (world.perform source effect).2.files := by
  cases effect with
  | makeDirectories path => exact Tree.confined_makeDirectories within
  | writeFile path content =>
      exact confined_changeFiles fun files wrote => Tree.confined_write wrote within
  | removeFile path =>
      exact confined_changeFiles fun files removed => Tree.confined_remove removed within
  | moveFile origin path =>
      exact confined_changeFiles fun files moved => Tree.confined_move moved within.1 within.2
  | _ => exact .refl world.files

/-- The source may bring anything. -/
def SourceLaw.any : SourceLaw := fun _ _ _ => True

/-- Files change only as confined, whatever the source answers. -/
def confinement (own passed : Location → Prop) : Contract Effect Effect.Reply World where
  answers effect before reply after := World.Admits .any effect before reply after
  allows before after := Confined own passed before.files after.files
  refl world := .refl world.files
  trans first second := first.trans second

theorem confined_of_admits {law : SourceLaw} {effect : Effect} {reply : effect.Reply} {after : World}
    (within : effect.Within own passed world.files)
    (admits : World.Admits law effect world reply after) :
    Confined own passed world.files after.files := by
  cases admits with
  | performed obeyed => exact confined_perform within _
  | ticked => exact .refl world.files

theorem keeps_effect {α : Type} {promise : α → World → Prop} {effect : Effect}
    {next : effect.Reply → Work α} (within : effect.Within own passed world.files)
    (rest : ∀ reply later, later.files.home = world.files.home →
      Task.Keeps (confinement own passed) promise (next reply) later) :
    Task.Keeps (confinement own passed) promise (.ask (.effect effect) next) world := by
  have confined {before after : World} {reply : effect.Reply}
      (change : (confinement own passed).allows world before)
      (answer : (confinement own passed).answers effect before reply after) :
      (confinement own passed).allows before after :=
    confined_of_admits (Effect.within_congr change.home within) answer
  refine .effect confined fun change answer => rest _ _ ?_
  exact (confined change answer).home.trans change.home

theorem keeps_harmless {effect : Effect} (harmless : ∀ tree, effect.Within own passed tree) :
    Task.Keeps (confinement own passed) (fun _ _ => True) (Work.ask effect) world :=
  keeps_effect (harmless _) fun _ _ _ => .done fun _ => trivial

end Confined

/-! ## Entries of jobs -/

/-- The place is that of the entry of a job or of its sibling. -/
def Job.Owns (root : Path) (tree : Tree) (job : Job) (place : Location) : Prop :=
  let path := Cache.entryPath root (.ofJob job)
  '\x00' ∉ path.toList ∧
    (place = tree.lands path ∨ place = tree.lands (Cache.temporaryPath path))

/-- The place is passed on the way to the entry of a job. -/
def Job.Passes (root : Path) (tree : Tree) (job : Job) (place : Location) : Prop :=
  let path := Cache.entryPath root (.ofJob job)
  '\x00' ∉ path.toList ∧ tree.OnRoute (Cache.entryDirectory path) place

section Entries

variable {root : Path} {maxZoom : Option Nat} {job : Job} {own passed : Location → Prop}
  {world : World} {tree after : Tree} {place : Location}

theorem Job.owns_congr (home : after.home = tree.home) :
    job.Owns root after place ↔ job.Owns root tree place := by
  simp only [Job.Owns, Tree.lands_congr home]

theorem Job.passes_congr (home : after.home = tree.home) :
    job.Passes root after place ↔ job.Passes root tree place := by
  simp only [Job.Passes, Tree.onRoute_congr home]

theorem whole_of_entryDirectory {key : Cache.Key}
    (whole : '\x00' ∉ (Cache.entryDirectory (Cache.entryPath root key)).toList) :
    '\x00' ∉ (Cache.entryPath root key).toList := by
  rw [Cache.entryDirectory_entryPath] at whole
  rw [Cache.entryPath_eq]
  have numeral := (Path.ordinary_toString key.tile.y).whole
  simp only [String.toList_append, List.mem_append, not_or]
  exact ⟨⟨whole, by decide⟩, numeral⟩

theorem whole_of_temporaryPath {path : Path} (whole : '\x00' ∉ (Cache.temporaryPath path).toList) :
    '\x00' ∉ path.toList := by
  intro member
  exact whole (by simp [Cache.temporaryPath, member])

variable (owned : ∀ place, job.Owns root world.files place → own place)
  (route : ∀ place, job.Passes root world.files place → passed place)
include owned

theorem within_entry :
    '\x00' ∉ (Cache.entryPath root (.ofJob job)).toList →
      own (world.files.lands (Cache.entryPath root (.ofJob job))) :=
  fun whole => owned _ ⟨whole, .inl rfl⟩

theorem within_temporary :
    '\x00' ∉ (Cache.temporaryPath (Cache.entryPath root (.ofJob job))).toList →
      own (world.files.lands (Cache.temporaryPath (Cache.entryPath root (.ofJob job)))) :=
  fun whole => owned _ ⟨whole_of_temporaryPath whole, .inr rfl⟩

include route in
theorem keeps_set_directory (content : Text.Utf8.Bytes) :
    Task.Keeps (confinement own passed) (fun _ _ => True)
      (Work.ofAction ((Cache.directory root maxZoom).set (.ofJob job) content)) world := by
  cases kept : Cache.keeps maxZoom (Cache.Key.ofJob job).tile.level with
  | false =>
      simp only [Cache.directory, kept]
      exact .done fun _ => trivial
  | true =>
      rw [Cache.set_eq root kept]
      have makes : Effect.Within own passed world.files
          (.makeDirectories (Cache.entryDirectory (Cache.entryPath root (.ofJob job)))) :=
        fun whole place onRoute => route place ⟨whole_of_entryDirectory whole, onRoute⟩
      have writes : Effect.Within own passed world.files
          (.writeFile (Cache.temporaryPath (Cache.entryPath root (.ofJob job))) content) :=
        within_temporary owned
      have moves : Effect.Within own passed world.files
          (.moveFile (Cache.temporaryPath (Cache.entryPath root (.ofJob job)))
            (Cache.entryPath root (.ofJob job))) :=
        ⟨within_temporary owned, within_entry owned⟩
      refine keeps_effect makes ?_
      intro made first home
      rcases made with fault | ⟨⟩
      · exact .done fun _ => trivial
      refine keeps_effect (Effect.within_congr home writes) ?_
      intro wrote second homeSecond
      rcases wrote with fault | ⟨⟩
      · exact .done fun _ => trivial
      refine keeps_effect (Effect.within_congr (homeSecond.trans home) moves) ?_
      intro moved last _
      rcases moved with fault | ⟨⟩ <;> exact .done fun _ => trivial

theorem keeps_purge_directory :
    Task.Keeps (confinement own passed) (fun _ _ => True)
      (Work.ofAction ((Cache.directory root maxZoom).purge (.ofJob job))) world := by
  have removes : Effect.Within own passed world.files
      (.removeFile (Cache.entryPath root (.ofJob job))) := within_entry owned
  refine keeps_effect removes ?_
  intro removed last _
  rcases removed with fault | ⟨⟩
  · cases fault <;> exact .done fun _ => trivial
  · exact .done fun _ => trivial

omit owned in
theorem keeps_get_directory :
    Task.Keeps (confinement own passed) (fun _ _ => True)
      (Work.ofAction ((Cache.directory root maxZoom).get (.ofJob job))) world := by
  have reads : Effect.Within own passed world.files
      (.readFile (Cache.entryPath root (.ofJob job))) := trivial
  refine keeps_effect reads ?_
  intro read last _
  rcases read with fault | content
  · cases fault <;> exact .done fun _ => trivial
  · exact .done fun _ => trivial

end Entries

section Operation

variable {atlas : Atlas} {root : Path} {maxZoom : Option Nat} {job : Job}
  {own passed : Location → Prop} {world : World}
  (given : atlas.cache = some (.directory root maxZoom))

theorem keeps_fetch_home {map : Map} {tile : Tile} :
    Task.Keeps (confinement own passed)
      (fun result later => ∀ content : Text.Utf8.Bytes, result = .ok content →
        later.files.home = world.files.home)
      (Atlas.fetch map tile) world := by
  have lasts : (confinement own passed).Lasts fun later => later.files.home = world.files.home :=
    fun change same => change.home.trans same
  have asks : Effect.Within own passed world.files (.fetch map tile) := trivial
  have asked : Task.Keeps (confinement own passed)
      (fun (reply : SourceReply) later => later.files.home = world.files.home ∧
        ∀ result, reply.answer.result? = some result → SourceLaw.any map tile result)
      (Work.ask (.fetch map tile)) world :=
    keeps_effect asks fun _ _ home => .done fun change =>
      ⟨change.home.trans home, fun _ _ => trivial⟩
  exact (Atlas.keeps_fetch lasts asked).weaken fun brought content ok => (brought content ok).1

include given

theorem keeps_seed_directory {options : Operation.SeedOptions}
    (owned : job.map ∈ atlas.names → ∀ place, job.Owns root world.files place → own place)
    (route : job.map ∈ atlas.names → ∀ place, job.Passes root world.files place → passed place) :
    Task.Keeps (confinement own passed) (fun _ _ => True)
      (Operation.seed atlas (.directory root maxZoom) options job) world := by
  have lasts : (confinement own passed).Lasts fun _ => True := fun _ _ => trivial
  have lastsFound : ∀ content : Option Text.Utf8.Bytes,
      (confinement own passed).Lasts ((fun _ _ => True) content) := fun _ => lasts
  refine (Operation.keeps_seed lastsFound lasts (keeps_harmless fun _ => trivial)
    (keeps_harmless fun _ => trivial) ?_ (fun _ => trivial) ?_).weaken fun _ => trivial
  · intro _ later _
    exact keeps_get_directory.weaken fun _ _ _ => trivial
  · intro map later known change _
    have mapped : job.map ∈ atlas.names := Atlas.mem_names_iff.mpr ⟨map, known⟩
    refine Atlas.keeps_render given lasts keeps_fetch_home ?_
    intro content after home
    have same : after.files.home = world.files.home := home.trans change.home
    have key : ({ map := (map.atLevel job.tile.level).name, tile := job.tile } : Cache.Key) =
        .ofJob job := by
      rw [Map.name_atLevel, Atlas.name_of_map? known, Cache.Key.ofJob]
    rw [key]
    refine (keeps_set_directory ?_ ?_ content).weaken fun _ _ => trivial
    · exact fun place owns => owned mapped place ((Job.owns_congr same).mp owns)
    · exact fun place passes => route mapped place ((Job.passes_congr same).mp passes)

theorem keeps_purge_operation
    (owned : job.map ∈ atlas.names → ∀ place, job.Owns root world.files place → own place) :
    Task.Keeps (confinement own passed) (fun _ _ => True) (Operation.purge atlas job) world := by
  have lasts : (confinement own passed).Lasts fun _ => True := fun _ _ => trivial
  refine (Operation.keeps_purge lasts (keeps_harmless fun _ => trivial) ?_).weaken fun _ => trivial
  intro map known
  have mapped : job.map ∈ atlas.names := Atlas.mem_names_iff.mpr ⟨map, known⟩
  refine (Atlas.keeps_remove given lasts ?_).weaken fun promised => promised
  have key : ({ map := map.name, tile := job.tile } : Cache.Key) = .ofJob job := by
    rw [Atlas.name_of_map? known, Cache.Key.ofJob]
  rw [key]
  exact (keeps_purge_directory (owned mapped)).weaken fun _ _ => trivial

theorem keeps_operation_directory {activity : Activity} {options : Operation.SeedOptions}
    {operation : Operation} (made : Operation.of atlas options activity = .ok operation)
    (owned : job.map ∈ atlas.names → ∀ place, job.Owns root world.files place → own place)
    (route : job.map ∈ atlas.names → ∀ place, job.Passes root world.files place → passed place) :
    Task.Keeps (confinement own passed) (fun _ _ => True) (operation job) world := by
  cases activity with
  | seed =>
      rw [Operation.of_seed given] at made
      cases made
      exact keeps_seed_directory given owned route
  | purge =>
      rw [Operation.of_purge given] at made
      cases made
      exact keeps_purge_operation given owned

/-- What operations change of files is as they may for their jobs. -/
theorem confined_during {errands : List Errand}
    (owned : ∀ errand ∈ errands, errand.job.map ∈ atlas.names →
      ∀ place, errand.job.Owns root world.files place → own place)
    (route : ∀ errand ∈ errands, errand.job.map ∈ atlas.names →
      ∀ place, errand.job.Passes root world.files place → passed place) :
    ∀ reached ∈ worldsDuring atlas world errands,
      Confined own passed world.files reached.files := by
  induction errands generalizing world with
  | nil =>
      intro reached member
      rw [List.mem_singleton.mp member]
      exact .refl world.files
  | cons errand errands ih =>
      have first : (∀ reached ∈ errand.worlds atlas world,
          Confined own passed world.files reached.files) ∧
          Confined own passed world.files (errand.on atlas world).files := by
        unfold Errand.worlds Errand.on
        cases made : Operation.of atlas errand.options errand.activity with
        | error error => exact ⟨by simp, .refl world.files⟩
        | ok operation =>
            have keeps := keeps_operation_directory given made (owned errand List.mem_cons_self)
              (route errand List.mem_cons_self)
            exact keeps.allows_worlds errand.source
              (fun effect before => .performed fun _ _ _ _ => trivial) errand.cancelled
      obtain ⟨early, between⟩ := first
      intro reached member
      rw [worldsDuring] at member
      rcases List.mem_cons.mp member with rfl | member
      · exact .refl reached.files
      · rcases List.mem_append.mp member with member | member
        · exact early reached member
        · refine between.trans (ih ?_ ?_ reached member)
          · intro other isLater known place owns
            exact owned other (List.mem_cons_of_mem _ isLater) known place
              ((Job.owns_congr between.home).mp owns)
          · intro other isLater known place passes
            exact route other (List.mem_cons_of_mem _ isLater) known place
              ((Job.passes_congr between.home).mp passes)

end Operation

/-! ## What is inside of a directory -/

/-- All changes are below where a path leads, but for directories that were missing on the way
there. -/
def StaysInside (root : Path) (tree after : Tree) : Prop :=
  ∀ place, after.node? place ≠ tree.node? place →
    (∃ rest, rest ≠ [] ∧ place = tree.lands root ++ rest) ∨
      tree.OnRoute root place ∧ tree.node? place = none ∧ after.node? place = some .directory

section Inside

variable {root : Path} {job : Job} {tree : Tree} {place : Location}

theorem frontPath_ofJob (root : Path) (job : Job) : Cache.frontPath root (.ofJob job) =
    Path.join (Path.join (Path.join root job.map) (toString job.tile.level))
      (toString job.tile.x) := rfl

theorem lands_frontPath (root : Path) (tree : Tree) (job : Job) :
    tree.lands (Cache.frontPath root (.ofJob job)) = tree.lands (Path.join root job.map) ++
      [toString job.tile.level, toString job.tile.x] := by
  rw [frontPath_ofJob, Tree.lands_join_of_ordinary (Path.ordinary_toString _),
    Tree.lands_join_of_ordinary (Path.ordinary_toString _), List.append_assoc, List.cons_append,
    List.nil_append]

theorem lands_entryPath (root : Path) (tree : Tree) (job : Job) :
    tree.lands (Cache.entryPath root (.ofJob job)) =
      tree.lands (Cache.frontPath root (.ofJob job)) ++ [toString job.tile.y] := by
  have ordinary := Path.ordinary_toString (Cache.Key.ofJob job).tile.y
  rw [Cache.entryPath_eq, ← Cache.join_frontPath root (.ofJob job) ordinary]
  exact Tree.lands_join_of_ordinary ordinary

theorem lands_temporaryPath (root : Path) (tree : Tree) (job : Job) :
    tree.lands (Cache.temporaryPath (Cache.entryPath root (.ofJob job))) =
      tree.lands (Cache.frontPath root (.ofJob job)) ++ [toString job.tile.y ++ "-tmp"] := by
  have ordinary := (Cache.Key.ofJob job).ordinary_spare
  rw [Cache.temporaryPath, Cache.entryPath_eq, String.append_assoc,
    ← Cache.join_frontPath root (.ofJob job) ordinary]
  exact Tree.lands_join_of_ordinary ordinary

theorem whole_map (whole : '\x00' ∉ (Cache.entryPath root (.ofJob job)).toList) :
    '\x00' ∉ job.map.toList := by
  have stays {base part : Path} {c : Char} (relative : Path.isAbsolute part = false)
      (member : c ∈ base.toList) : c ∈ (Path.join base part).toList := by
    rw [Path.join, if_neg (by simp [relative])]
    split <;> simp [member]
  intro member
  obtain ⟨front, ends⟩ := Path.exists_join_eq root job.map
  have joined : '\x00' ∈ (Path.join root job.map).toList := by simp [ends, member]
  have numeral (number : Nat) := (Path.ordinary_toString number).relative
  refine whole ?_
  rw [Cache.entryPath_eq, frontPath_ofJob, String.toList_append, String.toList_append]
  refine List.mem_append_left _ (List.mem_append_left _ ?_)
  exact stays (numeral _) (stays (numeral _) joined)

section Contained

variable (contained : Path.Contained job.map)
include contained

theorem exists_lands_join : ∃ rest, tree.lands (Path.join root job.map) = tree.lands root ++ rest := by
  obtain ⟨relative, stays⟩ := contained
  rw [Tree.lands_join relative]
  have led := @Tree.exists_foldl_of_staysBelow (tree.lands root) [] _ stays _ List.prefix_rfl
  rwa [List.append_nil] at led

theorem inside_of_owns (owns : job.Owns root tree place) :
    ∃ rest, rest ≠ [] ∧ place = tree.lands root ++ rest := by
  obtain ⟨rest, led⟩ := @exists_lands_join root job tree contained
  rcases owns.2 with same | same
  · rw [same, lands_entryPath, lands_frontPath, led, List.append_assoc, List.append_assoc]
    refine ⟨_, ?_, rfl⟩
    simp
  · rw [same, lands_temporaryPath, lands_frontPath, led, List.append_assoc, List.append_assoc]
    refine ⟨_, ?_, rfl⟩
    simp

theorem inside_of_passes (passes : job.Passes root tree place) :
    (∃ rest, rest ≠ [] ∧ place = tree.lands root ++ rest) ∨ tree.OnRoute root place := by
  obtain ⟨rest, led⟩ := @exists_lands_join root job tree contained
  have onRoute := passes.2
  rw [Cache.entryDirectory_entryPath, frontPath_ofJob] at onRoute
  have levels := Path.ordinary_toString job.tile.level
  rcases Tree.onRoute_join_of_ordinary (Path.ordinary_toString _) onRoute with onRoute | same
  · rcases Tree.onRoute_join_of_ordinary levels onRoute with onRoute | same
    · rcases Tree.onRoute_join contained.1 onRoute with onRoute | ⟨front, above, rfl⟩
      · exact .inr onRoute
      · obtain ⟨below, reached⟩ := @Tree.exists_foldl_of_staysBelow (tree.lands root) [] _
          contained.2 front above
        rw [List.append_nil] at reached
        rw [reached]
        cases below with
        | nil =>
            rw [List.append_nil]
            exact .inr (Tree.onRoute_lands tree root)
        | cons name below => exact .inl ⟨name :: below, by simp, rfl⟩
    · rw [same, led, List.append_assoc]
      refine .inl ⟨_, ?_, rfl⟩
      simp
  · rw [same, Tree.lands_join_of_ordinary levels, led, List.append_assoc, List.append_assoc]
    refine .inl ⟨_, ?_, rfl⟩
    simp

end Contained

end Inside

/-! ## Names that lead out -/

section Escape

theorem directoriesIn_perform (source : Map → Tile → SourceReply) (world : World)
    (effect : Effect) : world.files.DirectoriesIn (world.perform source effect).2.files := by
  have changes {change : Except Files.Fault Tree}
      (kept : ∀ files, change = .ok files → world.files.DirectoriesIn files) :
      world.files.DirectoriesIn (world.changeFiles change).2.files := by
    cases change with
    | ok files => exact kept files rfl
    | error fault => exact .refl world.files
  cases effect with
  | makeDirectories path => exact Tree.directoriesIn_makeDirectories world.files path
  | writeFile path content => exact changes fun files => Tree.directoriesIn_write
  | removeFile path => exact changes fun files => Tree.directoriesIn_remove
  | moveFile origin path => exact changes fun files => Tree.directoriesIn_move
  | _ => exact .refl world.files

theorem directoriesIn_on {α : Type} (source : Map → Tile → SourceReply) (action : Action α)
    (world : World) : world.files.DirectoriesIn (action.on source world).2.files := by
  induction action generalizing world with
  | done result => exact .refl world.files
  | ask effect next ih => exact (directoriesIn_perform source world effect).trans (ih _ _)

theorem node?_empty (place : Location) : ({} : World).files.node? place =
    if place = [] ∨ place = ["work"] then some .directory else none := by
  by_cases top : place = []
  · simp [top, Tree.node?]
  · simp [top, Tree.node?, Tree.empty, Table.find?_put]

theorem exists_fresh (names : List String) : ∃ number : Nat, toString number ∉ names := by
  have many : (Set.range fun number : Nat => toString number).Infinite :=
    Set.infinite_range_of_injective fun _ _ => Path.toString_injective
  obtain ⟨_, ⟨number, rfl⟩, fresh⟩ := many.exists_notMem_finset names.toFinset
  exact ⟨number, by simpa using fresh⟩

/-- Storing a tile of a map creates the directory of its entry. -/
theorem made_by_storing {atlas : Atlas} {root : Path} {name : String}
    (given : atlas.cache = some (.directory root none)) (known : name ∈ atlas.names)
    (whole : '\x00' ∉ (Cache.frontPath root (.ofJob ⟨name, ⟨0, 0, 0⟩⟩)).toList) :
    (Errand.on atlas {} (Operation.storing ⟨name, ⟨0, 0, 0⟩⟩)).files.node?
      (({} : World).files.lands (Cache.frontPath root (.ofJob ⟨name, ⟨0, 0, 0⟩⟩))) =
        some .directory := by
  obtain ⟨fetched, same, stores⟩ :=
    @Operation.files_storing root none ⟨name, ⟨0, 0, 0⟩⟩ atlas {} given known
  rw [stores, Cache.set_eq root rfl, Cache.preparing, Action.on_ask]
  refine (directoriesIn_on _ _ _).kept _ ?_
  simp only [World.perform, same, Cache.entryDirectory_entryPath]
  have fileless : ∀ place content, ({} : World).files.node? place ≠ some (.file content) := by
    intro place content found
    rw [node?_empty] at found
    split at found <;> cases found
  obtain ⟨next, made⟩ := @Tree.exists_makeAlong_of_fileless ({} : World).files
    (({} : World).files.start (Cache.frontPath root (.ofJob ⟨name, ⟨0, 0, 0⟩⟩)))
    (Path.names (Cache.frontPath root (.ofJob ⟨name, ⟨0, 0, 0⟩⟩))) false fileless
  rw [Tree.makeDirectories, if_neg whole, made]
  exact (Tree.follow_of_makeAlong made (Tree.node?_start rfl _)).2

theorem start_of_ordinary {root : String} (tree : Tree) (ordinary : Path.Ordinary root) :
    tree.start root = tree.home := by
  rw [Tree.start, ordinary.relative]
  rfl

theorem lands_of_ordinary {root : String} (tree : Tree) (ordinary : Path.Ordinary root) :
    tree.lands root = tree.home ++ [root] := by
  rw [Tree.lands, start_of_ordinary tree ordinary, ordinary.names]
  exact Tree.enter_of_ordinary ordinary _

theorem onRoute_of_ordinary {root : String} {tree : Tree} {place : Location}
    (ordinary : Path.Ordinary root) (onRoute : tree.OnRoute root place) :
    place = tree.home ∨ place = tree.home ++ [root] := by
  obtain ⟨front, above, rfl⟩ := onRoute
  rw [start_of_ordinary tree ordinary]
  rw [ordinary.names] at above
  rcases List.prefix_cons_iff.mp above with rfl | ⟨rest, rfl, ended⟩
  · exact .inl rfl
  · rw [List.prefix_nil.mp ended]
    exact .inr (Tree.enter_of_ordinary ordinary _)

/-- From a directory whose name it does not have, a name that is absolute or climbs leads elsewhere. -/
theorem not_mem_lands {root : String} {name : Path} {tree : Tree} (ordinary : Path.Ordinary root)
    (outside : root ∉ tree.home) (unnamed : root ∉ Path.names name)
    (escapes : ¬ Path.Contained name) : root ∉ tree.lands (Path.join root name) := by
  cases relative : Path.isAbsolute name with
  | true =>
      rw [Path.join_of_isAbsolute _ relative, Tree.lands, Tree.start, if_pos relative]
      exact Tree.not_mem_foldl_enter List.not_mem_nil unnamed
  | false =>
      have climbs : Path.staysBelow 0 (Path.names name) = false :=
        Bool.eq_false_iff.mpr fun stays => escapes ⟨relative, stays⟩
      rw [Tree.lands_join relative, lands_of_ordinary tree ordinary]
      have away := @Tree.not_mem_foldl_of_climbs tree.home [] _ root climbs outside unnamed
      rwa [List.append_nil] at away

theorem exists_escape {maps : List Map} {map : Map} (member : map ∈ maps)
    (whole : '\x00' ∉ map.name.toList) (escapes : ¬ Path.Contained map.name) :
    ∃ root, ¬ StaysInside root ({} : World).files
      (Errand.on ⟨maps, some (.directory root none)⟩ {}
        (Operation.storing ⟨map.name, ⟨0, 0, 0⟩⟩)).files := by
  obtain ⟨number, fresh⟩ := exists_fresh ("work" :: "0" :: Path.names map.name)
  obtain ⟨other, digit, unnamed⟩ : toString number ≠ "work" ∧ toString number ≠ "0" ∧
      toString number ∉ Path.names map.name := by simpa using fresh
  have ordinary := Path.ordinary_toString number
  refine ⟨toString number, fun inside => ?_⟩
  have wholeFront : '\x00' ∉
      (Cache.frontPath (toString number) (.ofJob ⟨map.name, ⟨0, 0, 0⟩⟩)).toList := by
    have joined := Path.not_mem_join (by decide) ordinary.whole whole
    have zero := (Path.ordinary_toString 0).whole
    exact Path.not_mem_join (by decide) (Path.not_mem_join (by decide) joined zero) zero
  have made := @made_by_storing ⟨maps, some (.directory (toString number) none)⟩ (toString number)
    map.name rfl (List.mem_map_of_mem member) wholeFront
  have away : toString number ∉
      ({} : World).files.lands (Cache.frontPath (toString number) (.ofJob ⟨map.name, ⟨0, 0, 0⟩⟩)) := by
    rw [lands_frontPath]
    have joined := @not_mem_lands (toString number) map.name ({} : World).files ordinary
      (by simpa [Tree.empty] using other) unnamed escapes
    have zero : toString (0 : Nat) = "0" := rfl
    simp only [List.mem_append, List.mem_cons, List.not_mem_nil, or_false, not_or, zero]
    exact ⟨joined, digit, digit⟩
  have led := lands_of_ordinary ({} : World).files ordinary
  have missing : ({} : World).files.node?
      (({} : World).files.lands
        (Cache.frontPath (toString number) (.ofJob ⟨map.name, ⟨0, 0, 0⟩⟩))) = none := by
    rw [node?_empty, lands_frontPath, if_neg]
    intro early
    have length := early.imp (congrArg List.length) (congrArg List.length)
    simp at length
  rcases inside _ (by rw [made, missing]; simp) with ⟨rest, -, same⟩ | ⟨onRoute, -⟩
  · rw [same, led] at away
    simp at away
  · rcases onRoute_of_ordinary ordinary onRoute with same | same
    · rw [same, node?_empty] at missing
      simp [Tree.empty] at missing
    · rw [same] at away
      simp at away

end Escape

/-- Whatever the maps are called and the directory of the cache is, operations change nothing but the
entries of the tiles of maps and their siblings, at the places that their paths lead to, and create
missing directories on the way there. All changes are inside of that directory, whichever it is, if
and only if the name of each map is relative and never climbs above where it starts, or has a
character that no path may have. -/
theorem changes_inside_iff_contained (maps : List Map) :
    (∀ root maxZoom world errands,
      ∀ reached ∈ worldsDuring ⟨maps, some (.directory root maxZoom)⟩ world errands,
        Confined
          (fun place => ∃ errand ∈ errands, errand.job.map ∈ maps.map Map.name ∧
            errand.job.Owns root world.files place)
          (fun place => ∃ errand ∈ errands, errand.job.map ∈ maps.map Map.name ∧
            errand.job.Passes root world.files place)
          world.files reached.files) ∧
    ((∀ root maxZoom world errands, (∀ errand ∈ errands, errand.job.tile.OnGrid) →
      ∀ reached ∈ worldsDuring ⟨maps, some (.directory root maxZoom)⟩ world errands,
        StaysInside root world.files reached.files) ↔
      ∀ map ∈ maps, '\x00' ∈ map.name.toList ∨ Path.Contained map.name) := by
  have confined root maxZoom (world : World) (errands : List Errand) :=
    @confined_during ⟨maps, some (.directory root maxZoom)⟩ root maxZoom
      (fun place => ∃ errand ∈ errands, errand.job.map ∈ maps.map Map.name ∧
        errand.job.Owns root world.files place)
      (fun place => ∃ errand ∈ errands, errand.job.map ∈ maps.map Map.name ∧
        errand.job.Passes root world.files place)
      world rfl errands (fun errand member known place owns => ⟨errand, member, known, owns⟩)
      (fun errand member known place passes => ⟨errand, member, known, passes⟩)
  refine ⟨confined, ?_, ?_⟩
  · intro inside map member
    by_contra escapes
    rw [not_or] at escapes
    obtain ⟨root, leads⟩ := exists_escape member escapes.1 escapes.2
    refine leads (inside root none {} [Operation.storing ⟨map.name, ⟨0, 0, 0⟩⟩] ?_ _ ?_)
    · simp [Operation.storing, Tile.OnGrid]
    · simp [worldsDuring]
  · intro contained root maxZoom world errands _ reached member place different
    have known {job : Job} (isName : job.map ∈ maps.map Map.name)
        (whole : '\x00' ∉ (Cache.entryPath root (.ofJob job)).toList) : Path.Contained job.map := by
      obtain ⟨map, isMap, same⟩ := List.mem_map.mp isName
      exact same ▸ (contained map isMap).resolve_left (same ▸ whole_map whole)
    rcases (confined root maxZoom world errands reached member).changed place with
      same | ⟨errand, -, isName, owns⟩ | ⟨⟨errand, -, isName, passes⟩, missing, made⟩
    · exact absurd same different
    · exact .inl (inside_of_owns (known isName owns.1) owns)
    · exact (inside_of_passes (known isName passes.1) passes).imp_right fun onRoute =>
        ⟨onRoute, missing, made⟩

/-- A cache in the directory `tiles` with a map whose name leads out of it. -/
def strayAtlas : Atlas := ⟨[{ name := "../x" }], some (.directory "tiles" none)⟩

def strayWorld : World where
  files :=
    ((((Tree.empty.put ["work", "tiles"] .directory).put ["work", "x"] .directory).put
      ["work", "x", "0"] .directory).put ["work", "x", "0", "0"] .directory).put
      ["work", "x", "0", "0", "0"] (.file [1])

def strayPurge : Errand where
  activity := .purge
  options := {}
  job := ⟨"../x", ⟨0, 0, 0⟩⟩
  source := ruledSource []

/-- Purging a tile of the map removes a file that is not in the directory of the cache. -/
theorem purge_removes_file_outside :
    Atlas.ofMaps strayAtlas.maps (some (.directory "tiles" none)) = .ok strayAtlas ∧
      strayWorld.files.lands "tiles" = ["work", "tiles"] ∧
      strayWorld.files.node? ["work", "x", "0", "0", "0"] = some (.file [1]) ∧
      (strayPurge.on strayAtlas strayWorld).files.node? ["work", "x", "0", "0", "0"] = none ∧
      ¬ StaysInside "tiles" strayWorld.files (strayPurge.on strayAtlas strayWorld).files := by
  have place : strayWorld.files.lands "tiles" = ["work", "tiles"] := by decide +kernel
  have before : strayWorld.files.node? ["work", "x", "0", "0", "0"] = some (.file [1]) := by
    decide +kernel
  have after : (strayPurge.on strayAtlas strayWorld).files.node? ["work", "x", "0", "0", "0"] =
      none := by
    decide +kernel
  refine ⟨rfl, place, before, after, fun inside => ?_⟩
  have changed := inside ["work", "x", "0", "0", "0"] (by rw [before, after]; nofun)
  rw [place, before] at changed
  rcases changed with ⟨rest, -, same⟩ | ⟨-, missing, -⟩
  · simp at same
  · cases missing

end TilePyramid
