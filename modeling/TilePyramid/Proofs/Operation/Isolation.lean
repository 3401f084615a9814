import TilePyramid.Proofs.Cache.Key
import TilePyramid.Proofs.Cache.Stock
import TilePyramid.Proofs.Operation.Alone
import TilePyramid.Proofs.Operation.Contract

/-!
# Maps that leave each other's tiles alone

Whatever is done for tiles of other maps, a cache in memory tells the same of the tiles of a map. A
cache in a directory does so if and only if no entry of one map is that of another map or on the way
to it. Main statement: `Operation.isolates_iff_separate`.
-/

set_option autoImplicit false

namespace TilePyramid

open Text.Utf8 (Bytes)
open Files (Path Location Tree Spread Clear)

section Preserving

variable {source : Map → Tile → SourceReply} {holds : Table String Bytes → Tree → Prop}

/-- The programs of a cache for a key leave what holds of the store and the files. -/
structure Cache.Preserves (source : Map → Tile → SourceReply)
    (holds : Table String Bytes → Tree → Prop) (cache : Cache) (key : Cache.Key) : Prop where
  get : (cache.get key).Preserves source holds
  set : ∀ content, (cache.set key content).Preserves source holds
  purge : (cache.purge key).Preserves source holds

variable {atlas : Atlas} {cache : Cache}

namespace Atlas

variable {map : Map} {tile : Tile}

theorem preserves_fetch : (fetch map tile).Preserves source holds := by
  intro cancelled world kept
  cases cancelled with
  | true => exact kept
  | false =>
      rw [fetch_on]
      exact kept

theorem preserves_render (given : atlas.cache = some cache)
    (preserves : cache.Preserves source holds { map := map.name, tile }) :
    (atlas.render map tile).Preserves source holds := by
  intro cancelled world kept
  have fetched := @preserves_fetch source holds map tile cancelled world kept
  rw [render_on given]
  rcases performed : (fetch map tile).on source cancelled world with
    ⟨⟨_ | _ | content, later⟩, after⟩ <;> rw [performed] at fetched
  · exact fetched
  · exact fetched
  · exact preserves.set content after fetched

theorem preserves_remove (given : atlas.cache = some cache)
    (preserves : cache.Preserves source holds { map := map.name, tile }) :
    (atlas.remove map tile).Preserves source holds := by
  intro cancelled world kept
  rw [remove_on given]
  exact preserves.purge world kept

end Atlas

namespace Operation

variable {job : Job}

theorem preserves_isCached (preserves : cache.Preserves source holds (.ofJob job)) :
    (isCached cache job).Preserves source holds := by
  intro cancelled world kept
  have looked := preserves.get world kept
  rw [isCached_on]
  rcases performed : (cache.get (.ofJob job)).on source world with ⟨_ | _ | content, after⟩ <;>
    rw [performed] at looked <;> exact looked

theorem preserves_seedTile {overwrite : Bool} (given : atlas.cache = some cache)
    (preserves : job.map ∈ atlas.names → cache.Preserves source holds (.ofJob job)) :
    (seedTile atlas cache overwrite job).Preserves source holds := by
  unfold seedTile
  cases known : atlas.map? job.map with
  | error error => exact Work.preserves_done _
  | ok map =>
      have cached := preserves (Atlas.mem_names_iff.mpr ⟨map, known⟩)
      have rendered : (atlas.render (map.atLevel job.tile.level) job.tile).Preserves source holds := by
        refine Atlas.preserves_render given ?_
        rw [Map.name_atLevel, Atlas.name_of_map? known]
        exact cached
      cases overwrite with
      | true => exact rendered
      | false =>
          refine Work.Preserves.bind (preserves_isCached cached) ?_
          rintro (_ | _ | _)
          · exact Work.preserves_done _
          · exact rendered
          · exact Work.preserves_done _

/-- An operation leaves what the cache leaves when it is asked for the key of the job. -/
theorem preserves_of {options : SeedOptions} {activity : Activity} {operation : Operation}
    (given : atlas.cache = some cache) (made : Operation.of atlas options activity = .ok operation)
    (preserves : job.map ∈ atlas.names → cache.Preserves source holds (.ofJob job)) :
    (operation job).Preserves source holds := by
  intro cancelled world kept
  cases activity with
  | seed =>
      rw [of_seed given] at made
      cases made
      have seeded := @preserves_seedTile source holds atlas cache job options.overwrite given preserves
        cancelled world kept
      obtain ⟨-, log, same⟩ := @seed_on source cancelled world atlas cache job options
      rw [same]
      exact seeded
  | purge =>
      rw [of_purge given] at made
      cases made
      cases cancelled with
      | true => exact kept
      | false =>
          cases known : atlas.map? job.map with
          | error error =>
              unfold purge
              rw [known]
              exact kept
          | ok map =>
              have removed : (atlas.remove map job.tile).Preserves source holds := by
                refine Atlas.preserves_remove given ?_
                rw [Atlas.name_of_map? known]
                exact preserves (Atlas.mem_names_iff.mpr ⟨map, known⟩)
              obtain ⟨-, log, same⟩ := @purge_on source world atlas job map known
              rw [same]
              exact removed false world kept

end Operation

end Preserving

/-- One operation on a job, with what the source answers meanwhile. -/
structure Errand where
  activity : Activity
  options : Operation.SeedOptions
  job : Job
  source : Map → Tile → SourceReply
  cancelled : Bool := false

/-- The world after an operation, whether it has succeeded or not. -/
def Errand.on (atlas : Atlas) (world : World) (errand : Errand) : World :=
  match Operation.of atlas errand.options errand.activity with
  | .ok operation => ((operation errand.job).on errand.source errand.cancelled world).2
  | .error _ => world

namespace Job

/-- The place of the entry of a job below the root of a cache in a directory. -/
def place (job : Job) : Location := (Cache.Key.ofJob job).place

/-- One of the entries of two jobs is the other or is on the way to it. -/
def Meets (job other : Job) : Prop := job.place <+: other.place ∨ other.place <+: job.place

theorem place_eq (job : Job) : job.place = Path.steps job.map ++
    [toString job.tile.level, toString job.tile.x, toString job.tile.y] := by
  have steps (number : Nat) : Path.steps (toString number) = [toString number] :=
    (Path.ordinary_toString number).steps
  simp only [place, Cache.Key.place, Cache.Key.way, Cache.Key.front, Cache.Key.ofJob,
    Option.toList_none, List.cons_append, List.nil_append, List.flatMap_cons, List.flatMap_nil, steps,
    List.append_nil, List.append_assoc]

theorem Meets.eq_of_map {job other : Job} (meets : job.Meets other) (same : job.map = other.map) :
    job.place = other.place := by
  have length : job.place.length = other.place.length := by simp [place_eq, same]
  rcases meets with above | beyond
  · exact above.eq_of_length length
  · exact (beyond.eq_of_length length.symm).symm

/-- Where entries meet, the names of one map are the first of those of the other. -/
theorem Meets.steps {job other : Job} (meets : job.Meets other) :
    Path.steps job.map <+: Path.steps other.map ∨ Path.steps other.map <+: Path.steps job.map := by
  simp only [Meets, place_eq] at meets
  rcases meets with above | beyond
  · exact List.prefix_or_prefix_of_prefix ((List.prefix_append _ _).trans above)
      (List.prefix_append _ _)
  · exact List.prefix_or_prefix_of_prefix (List.prefix_append _ _)
      ((List.prefix_append _ _).trans beyond)

end Job

namespace Operation

/-- Operations on tiles of other maps, after any operations, change nothing of what a cache tells of
the tiles of a map. -/
def Isolates (atlas : Atlas) (cache : Cache) (world : World) : Prop :=
  ∀ (earlier later : List Errand) (job : Job),
    (∀ errand ∈ earlier ++ later, errand.job.tile.OnGrid) → job.map ∈ atlas.names →
    job.tile.OnGrid → (∀ errand ∈ later, errand.job.map ≠ job.map) →
    ∀ source, cache.answer source (.ofJob job) ((earlier ++ later).foldl (Errand.on atlas) world) =
      cache.answer source (.ofJob job) (earlier.foldl (Errand.on atlas) world)

section Isolates

variable {atlas : Atlas} {cache : Cache} {holds : Table String Bytes → Tree → Prop} {world : World}

theorem holds_after {errands : List Errand} (given : atlas.cache = some cache)
    (preserves : ∀ errand ∈ errands, errand.job.map ∈ atlas.names →
      cache.Preserves errand.source holds (.ofJob errand.job))
    (kept : holds world.store world.files) :
    holds (errands.foldl (Errand.on atlas) world).store
      (errands.foldl (Errand.on atlas) world).files := by
  induction errands generalizing world with
  | nil => exact kept
  | cons errand errands ih =>
      refine ih (fun other member => preserves other (List.mem_cons_of_mem _ member)) ?_
      unfold Errand.on
      cases made : Operation.of atlas errand.options errand.activity with
      | error error => exact kept
      | ok operation =>
          have left := preserves_of given made (preserves errand List.mem_cons_self)
          exact left errand.cancelled world kept

end Isolates

section Memory

variable {maxZoom : Option Nat} {job other : Job}

theorem preserves_memory (source : Map → Tile → SourceReply) (different : job ≠ other)
    (content : Option Bytes) :
    (Cache.memory maxZoom).Preserves source (fun store _ => store.find? other.slot = content)
      (.ofJob job) := by
  have apart : other.slot ≠ job.slot := fun same => different (Job.slot_injective same.symm)
  refine ⟨fun world kept => kept, fun bytes world kept => ?_, fun world kept => ?_⟩
  · cases keeps : Cache.keeps maxZoom (Cache.Key.ofJob job).tile.level with
    | true =>
        rw [Cache.memory_set_on keeps]
        exact (Table.find?_put _ _ _ _).trans ((if_neg apart).trans kept)
    | false =>
        rw [Cache.memory_set_on_of_deep keeps]
        exact kept
  · rw [Cache.memory_purge_on]
    exact (Table.find?_erase _ _ _).trans ((if_neg apart).trans kept)

theorem isolates_memory {atlas : Atlas} (given : atlas.cache = some (.memory maxZoom))
    (world : World) : Isolates atlas (.memory maxZoom) world := by
  intro earlier later job _ _ _ others source
  have same : ((earlier ++ later).foldl (Errand.on atlas) world).store.find? job.slot =
      (earlier.foldl (Errand.on atlas) world).store.find? job.slot := by
    rw [List.foldl_append]
    refine holds_after given (fun errand member _ => preserves_memory _ ?_ _) rfl
    rintro rfl
    exact others errand member rfl
  exact congrArg Except.ok same

end Memory

section Directory

variable {root : Path} {maxZoom : Option Nat} {names : List String} {job other : Job}

/-- No entry that is kept for a map is one of another map, or on the way to one, or beyond one. -/
def Separate (names : List String) (maxZoom : Option Nat) : Prop :=
  ∀ job other : Job, job.map ∈ names → other.map ∈ names → job.map ≠ other.map →
    job.tile.OnGrid → other.tile.OnGrid → Cache.keeps maxZoom job.tile.level = true →
    ¬ job.Meets other

/-- The places of the entries that are kept. -/
def Kept (names : List String) (maxZoom : Option Nat) (place : Location) : Prop :=
  ∃ job : Job, job.map ∈ names ∧ job.tile.OnGrid ∧
    Cache.keeps maxZoom job.tile.level = true ∧ job.place = place

theorem Separate.clear (separate : Separate names maxZoom) (known : job.map ∈ names)
    (onGrid : job.tile.OnGrid) : Clear (Kept names maxZoom) job.place := by
  have same {other : Job} (knownOther : other.map ∈ names) (onGridOther : other.tile.OnGrid)
      (kept : Cache.keeps maxZoom other.tile.level = true) (meets : other.Meets job) :
      other.place = job.place := by
    by_cases different : other.map = job.map
    · exact meets.eq_of_map different
    · exact absurd meets (separate other job knownOther known different onGridOther onGrid kept)
  constructor
  · rintro _ ⟨other, knownOther, onGridOther, kept, rfl⟩ above
    exact same knownOther onGridOther kept (.inl above)
  · rintro _ ⟨other, knownOther, onGridOther, kept, rfl⟩ beyond
    exact same knownOther onGridOther kept (.inr beyond)

theorem Separate.spread (separate : Separate names maxZoom) : Spread (Kept names maxZoom) := by
  rintro _ other ⟨job, known, onGrid, -, rfl⟩ listed above
  exact ((separate.clear known onGrid).below other listed above).symm

/-- A cache in a directory has content at some of the places that are kept, and at chosen ones it has
what it had before. -/
def Filled (names : List String) (root : Path) (maxZoom : Option Nat) (floor : Location)
    (spared : Location → Prop) (before : Location → Option Bytes) (files : Tree) : Prop :=
  ∃ content, Cache.Stocked root floor (Kept names maxZoom) content files ∧
    ∀ place, spared place → content place = before place

theorem descends_ofJob (descend : ∀ name ∈ names, Path.Descends name) (known : job.map ∈ names) :
    (Cache.Key.ofJob job).Descends :=
  ⟨descend job.map known, nofun⟩

theorem preserves_directory {floor : Location} {spared : Location → Prop}
    {before : Location → Option Bytes} (source : Map → Tile → SourceReply)
    (separate : Separate names maxZoom) (descend : ∀ name ∈ names, Path.Descends name)
    (known : job.map ∈ names) (onGrid : job.tile.OnGrid)
    (aside : spared job.place → ¬ Kept names maxZoom job.place) :
    (Cache.directory root maxZoom).Preserves source
      (fun _ files => Filled names root maxZoom floor spared before files) (.ofJob job) := by
  have descends := descends_ofJob descend known
  have clear := separate.clear known onGrid
  refine ⟨fun world filled => ?_, fun bytes world filled => ?_, fun world filled => ?_⟩
  · rw [Cache.Stocked.get_on_snd]
    exact filled
  · obtain ⟨content, stocked, same⟩ := filled
    cases keeps : Cache.keeps maxZoom (Cache.Key.ofJob job).tile.level with
    | false =>
        rw [Cache.Stocked.set_on_of_deep keeps]
        exact ⟨content, stocked, same⟩
    | true =>
        have listed : Kept names maxZoom job.place := ⟨job, known, onGrid, keeps, rfl⟩
        have unlisted : ¬ Kept names maxZoom (Cache.Key.ofJob job).spare := by
          rintro ⟨other, -, -, -, same⟩
          exact Cache.Key.spare_ne_place _ _ same.symm
        obtain ⟨result, files, performed, ⟨-, after⟩ | ⟨-, after⟩⟩ :=
          Cache.Stocked.set_on source bytes stocked separate.spread descends keeps listed unlisted
        · rw [performed]
          refine ⟨_, after, fun place spares => ?_⟩
          rw [Function.update_of_ne, same place spares]
          rintro rfl
          exact aside spares listed
        · rw [performed]
          exact ⟨content, after, same⟩
  · obtain ⟨content, stocked, same⟩ := filled
    obtain ⟨files, performed, after⟩ :=
      Cache.Stocked.purge_on source maxZoom stocked separate.spread descends clear
    rw [performed]
    refine ⟨_, after, fun place spares => ?_⟩
    rw [← same place spares]
    by_cases reached : place = job.place
    · subst reached
      have missing : content job.place = none := by
        by_contra cached
        exact aside spares (stocked.listed cached)
      exact (Function.update_self _ _ _).trans missing.symm
    · exact Function.update_of_ne reached _ _

variable {atlas : Atlas} {world : World}
  (given : atlas.cache = some (.directory root maxZoom))
  (descend : ∀ name ∈ atlas.names, Path.Descends name)
include given descend

theorem filled_after {errands : List Errand} {floor : Location} {spared : Location → Prop}
    {before : Location → Option Bytes} (separate : Separate atlas.names maxZoom)
    (onGrid : ∀ errand ∈ errands, errand.job.tile.OnGrid)
    (aside : ∀ errand ∈ errands, errand.job.map ∈ atlas.names → spared errand.job.place →
      ¬ Kept atlas.names maxZoom errand.job.place)
    (filled : Filled atlas.names root maxZoom floor spared before world.files) :
    Filled atlas.names root maxZoom floor spared before
      (errands.foldl (Errand.on atlas) world).files :=
  @holds_after _ _ (fun _ files => Filled atlas.names root maxZoom floor spared before files) _ _ given
    (fun errand member mapped => preserves_directory _ separate descend mapped (onGrid errand member)
      (aside errand member mapped)) filled

section Empty

variable (fresh : Cache.EmptyRoot root world.files)
include fresh

theorem isolates_of_separate (separate : Separate atlas.names maxZoom) :
    Isolates atlas (.directory root maxZoom) world := by
  intro earlier later job onGrid known onGridJob others source
  have onGridEarlier : ∀ errand ∈ earlier, errand.job.tile.OnGrid :=
    fun errand member => onGrid errand (List.mem_append_left _ member)
  have onGridLater : ∀ errand ∈ later, errand.job.tile.OnGrid :=
    fun errand member => onGrid errand (List.mem_append_right _ member)
  obtain ⟨floor, stocked⟩ := fresh.exists_stocked (Kept atlas.names maxZoom)
  have empty : Filled atlas.names root maxZoom floor (fun _ => False) (fun _ => none) world.files :=
    ⟨_, stocked, nofun⟩
  obtain ⟨before, stockedBefore, -⟩ :=
    filled_after given descend separate onGridEarlier (fun _ _ _ => nofun) empty
  have aside : ∀ errand ∈ later, errand.job.map ∈ atlas.names → errand.job.place = job.place →
      ¬ Kept atlas.names maxZoom errand.job.place := by
    rintro errand member mapped same ⟨kept, knownKept, onGridKept, keeps, place⟩
    -- An entry that is kept at the place of both jobs would be one of both maps.
    have map {other : Job} (known : other.map ∈ atlas.names) (onGrid : other.tile.OnGrid)
        (reached : kept.place = other.place) : kept.map = other.map := by
      by_contra different
      refine separate kept other knownKept known different onGridKept onGrid keeps (.inl ?_)
      exact reached ▸ List.prefix_rfl
    have mapJob := map known onGridJob (place.trans same)
    exact others errand member ((map mapped (onGridLater errand member) place).symm.trans mapJob)
  obtain ⟨after, stockedAfter, same⟩ : Filled atlas.names root maxZoom floor (· = job.place) before
      ((earlier ++ later).foldl (Errand.on atlas) world).files := by
    rw [List.foldl_append]
    exact filled_after given descend separate onGridLater aside ⟨before, stockedBefore, fun _ _ => rfl⟩
  have told {content : Location → Option Bytes} {world : World}
      (stocked : Cache.Stocked root floor (Kept atlas.names maxZoom) content world.files) :
      Cache.answer source (.directory root maxZoom) (.ofJob job) world = .ok (content job.place) :=
    congrArg Prod.fst (stocked.get_on (descends_ofJob descend known) (separate.clear known onGridJob))
  rw [told stockedAfter, told stockedBefore, same job.place rfl]

/-- Seeding the tile of a job anew, with a source that answers at once. -/
def storing (job : Job) : Errand where
  activity := .seed
  options := { overwrite := true }
  job
  source _ _ := { answer := .now (.ok []) }

omit descend fresh in
theorem files_storing (known : job.map ∈ atlas.names) :
    ∃ fetched : World, fetched.files = world.files ∧
      (Errand.on atlas world (storing job)).files =
        (((Cache.directory root maxZoom).set (.ofJob job) []).on (storing job).source
          fetched).2.files := by
  obtain ⟨map, found⟩ := Atlas.mem_names_iff.mp known
  have performed : Errand.on atlas world (storing job) =
      ((seed atlas (.directory root maxZoom) { overwrite := true } job).on (storing job).source false
        world).2 := by
    simp only [Errand.on, storing, of_seed given]
  have rendering : seedTile atlas (.directory root maxZoom) true job =
      atlas.render (map.atLevel job.tile.level) job.tile := by
    unfold seedTile
    rw [found]
    rfl
  obtain ⟨-, log, same⟩ := @seed_on (storing job).source false world atlas (.directory root maxZoom) job
    { overwrite := true }
  rw [performed, same, rendering, Atlas.render_on given, Atlas.fetch_on]
  have key : ({ map := (map.atLevel job.tile.level).name, tile := job.tile } : Cache.Key) =
      .ofJob job := by
    rw [Map.name_atLevel, Atlas.name_of_map? found, Cache.Key.ofJob]
  simp only [key]
  let asked : Effect := .fetch (map.atLevel job.tile.level) job.tile
  exact ⟨(world.perform (storing job).source asked).2, rfl, rfl⟩

theorem separate_of_isolates (isolates : Isolates atlas (.directory root maxZoom) world) :
    Separate atlas.names maxZoom := by
  intro job other known knownOther different onGrid onGridOther kept meets
  have descends := descends_ofJob descend knownOther
  have before {source : Map → Tile → SourceReply} :
      Cache.answer source (.directory root maxZoom) (.ofJob other) world = .ok none := by
    obtain ⟨floor, stocked⟩ := fresh.exists_stocked fun _ => False
    exact congrArg Prod.fst (stocked.get_on descends ⟨nofun, nofun⟩)
  -- Where the entries meet, the tile that is stored for one of them is seen or is in the way.
  obtain ⟨floor, stocked⟩ := fresh.exists_stocked (· = job.place)
  obtain ⟨fetched, same, stores⟩ : ∃ fetched : World, fetched.files = world.files ∧ _ :=
    files_storing given known
  rw [← same] at stocked
  have alone : Spread (· = job.place) := fun _ _ first second _ => first.trans second.symm
  obtain ⟨result, files, performed, ⟨-, after⟩ | ⟨⟨place, rfl, above⟩, -⟩⟩ :=
    Cache.Stocked.set_on (storing job).source [] stocked alone (descends_ofJob descend known) kept rfl
      (Cache.Key.spare_ne_place _ _)
  · have stored : Cache.Stocked root floor (· = job.place) (Function.update (fun _ => none) job.place
        (some [])) (Errand.on atlas world (storing job)).files := by
      rw [stores, performed]
      exact after
    have cached : Function.update (fun _ => none) job.place (some ([] : Bytes)) job.place ≠ none := by
      simp
    have changed := isolates [] [storing job] other (by simpa [storing] using onGrid) knownOther
      onGridOther (by simpa [storing] using different) (storing job).source
    exact stored.answer_ne_none descends cached meets (changed.trans before)
  · -- A sibling is not on the way to the entry beside it.
    have ends := above.eq_of_length (by simp [Cache.Key.spare, Job.place, Cache.Key.place])
    exact Cache.Key.spare_ne_place _ _ ends

end Empty

end Directory

/-- With a cache in memory the maps of an accepted atlas leave each other's tiles alone, whatever their
names are. With one in an empty directory and names that do not lead out of it they do so exactly if
no kept entry of one map meets an entry of another. They do so in particular if no name leads to where
another one leads or to something on the way there. -/
theorem isolates_iff_separate {maps : List Map} {cache : Cache} {atlas : Atlas} {world : World}
    (accepted : Atlas.ofMaps maps (some cache) = .ok atlas) :
    (∀ maxZoom, cache = .memory maxZoom → Isolates atlas cache world) ∧
    ∀ root maxZoom, cache = .directory root maxZoom → Cache.EmptyRoot root world.files →
      (∀ name ∈ atlas.names, Path.Descends name) →
        (Isolates atlas cache world ↔ Separate atlas.names maxZoom) ∧
        ((∀ name ∈ atlas.names, ∀ other ∈ atlas.names, name ≠ other →
            ¬ Path.steps name <+: Path.steps other) →
          Isolates atlas cache world) := by
  have given : atlas.cache = some cache := by
    unfold Atlas.ofMaps at accepted
    split at accepted <;> cases accepted
    rfl
  constructor
  · rintro maxZoom rfl
    exact isolates_memory given world
  · rintro root maxZoom rfl fresh descend
    have sufficient := isolates_of_separate given descend fresh
    refine ⟨⟨separate_of_isolates given descend fresh, sufficient⟩, fun parted => ?_⟩
    refine sufficient fun job other known knownOther different _ _ _ meets => ?_
    rcases meets.steps with first | last
    · exact parted _ known _ knownOther different first
    · exact parted _ knownOther _ known different.symm last

/-- Two maps below one directory of a cache. -/
def pairedAtlas : Atlas :=
  ⟨[{ name := "roads/day" }, { name := "roads/./night" }], some (.directory "tiles" none)⟩

theorem paired_maps_isolated :
    Atlas.ofMaps pairedAtlas.maps (some (.directory "tiles" none)) = .ok pairedAtlas ∧
      Isolates pairedAtlas (.directory "tiles" none) {} := by
  have accepted : Atlas.ofMaps pairedAtlas.maps (some (.directory "tiles" none)) =
      .ok pairedAtlas := rfl
  obtain ⟨-, inDirectory⟩ := isolates_iff_separate accepted
  refine ⟨accepted, (inDirectory "tiles" none rfl Cache.emptyRoot_tiles ?_).2 ?_⟩
  · intro name member
    have listed : name = "roads/day" ∨ name = "roads/./night" := by
      simpa [pairedAtlas, Atlas.names] using member
    rcases listed with rfl | rfl <;> exact ⟨by decide, by decide, by decide⟩
  · decide

/-- Two maps whose different names lead to one directory. -/
def dottedAtlas : Atlas := ⟨[{ name := "a" }, { name := "./a" }], some (.directory "tiles" none)⟩

/-- A tile that is seeded for one of the maps is found for the other, so they are not isolated. -/
theorem dotted_map_sees_tile_of_other :
    Atlas.ofMaps dottedAtlas.maps (some (.directory "tiles" none)) = .ok dottedAtlas ∧
      Cache.EmptyRoot "tiles" ({} : World).files ∧
      Cache.answer (storing ⟨"a", ⟨0, 0, 0⟩⟩).source (.directory "tiles" none)
        (.ofJob ⟨"./a", ⟨0, 0, 0⟩⟩) {} = .ok none ∧
      Cache.answer (storing ⟨"a", ⟨0, 0, 0⟩⟩).source (.directory "tiles" none)
        (.ofJob ⟨"./a", ⟨0, 0, 0⟩⟩) (Errand.on dottedAtlas {} (storing ⟨"a", ⟨0, 0, 0⟩⟩)) =
        .ok (some []) ∧
      ¬ Isolates dottedAtlas (.directory "tiles" none) {} := by
  have before : Cache.answer (storing ⟨"a", ⟨0, 0, 0⟩⟩).source (.directory "tiles" none)
      (.ofJob ⟨"./a", ⟨0, 0, 0⟩⟩) {} = .ok none := by decide +kernel
  have after : Cache.answer (storing ⟨"a", ⟨0, 0, 0⟩⟩).source (.directory "tiles" none)
      (.ofJob ⟨"./a", ⟨0, 0, 0⟩⟩) (Errand.on dottedAtlas {} (storing ⟨"a", ⟨0, 0, 0⟩⟩)) =
      .ok (some []) := by decide +kernel
  refine ⟨rfl, Cache.emptyRoot_tiles, before, after, fun isolates => ?_⟩
  have same := isolates [] [storing ⟨"a", ⟨0, 0, 0⟩⟩] ⟨"./a", ⟨0, 0, 0⟩⟩ (by decide) (by decide)
    (by decide) (by decide) (storing ⟨"a", ⟨0, 0, 0⟩⟩).source
  have changed := after.symm.trans (same.trans before)
  cases changed

end Operation

end TilePyramid
