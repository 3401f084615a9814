import TilePyramid.Proofs.Stream.Lines
import TilePyramid.Proofs.Text.Encoding
import TilePyramid.Proofs.Tile.Family
import TilePyramid.Proofs.Tile.Names

/-!
# A named tile and its line

To name a tile and to list its name alone is the same work. The stream of the named tile goes through
it map by map, that of the list tile by tile, and each has every tile for every map once. Main
statements: `Job.perm_crossed`, `TileList.readFrom_nameOf` and
`named_tile_is_the_work_of_its_line`.
-/

set_option autoImplicit false

namespace TilePyramid

/-! ## The tiles that a named tile stands for -/

theorem Tile.length_tiles_family (tile : Tile) (level : Nat) :
    (tile.family level).tiles.length = 4 ^ (level - tile.level) := by
  by_cases above : level ≤ tile.level
  · rw [tiles_family_of_le above, List.length_singleton, Nat.sub_eq_zero_of_le above, Nat.pow_zero]
  · rw [Block.length_tiles, size_family (Nat.lt_of_not_le above)]

theorem Tile.level_family (tile : Tile) (level : Nat) : (tile.family level).level = level := by
  unfold family
  split <;> rfl

namespace Expansion

theorem nodup_tiles (expansion : Expansion) (tile : Tile) : (expansion.tiles tile).Nodup := by
  rw [tiles_eq]
  split
  · exact List.nodup_singleton tile
  · exact (Block.pairwise_lt_flatMap_tiles tile.level_family
      expansion.zooms.pairwise_lt_levels).imp Tile.ne_of_lt

/-- How many tiles a named tile of a level stands for. -/
def count (expansion : Expansion) (level : Nat) : Nat :=
  if expansion.isExplicit then 1
  else (expansion.zooms.levels.map fun zoom => 4 ^ (zoom - level)).sum

theorem length_tiles (expansion : Expansion) (tile : Tile) :
    (expansion.tiles tile).length = expansion.count tile.level := by
  unfold count
  split
  · next explicit => rw [tiles_of_isExplicit explicit, List.length_singleton]
  · next explicit =>
    simp only [tiles, blocks, if_neg explicit, List.flatMap_map, List.length_flatMap,
      tile.length_tiles_family]

end Expansion

/-! ## Two ways through tiles and maps -/

namespace Job

/-- The jobs of tiles for maps, all of a map before those of the next. -/
def byMap (targets : List String) (tiles : List Tile) : List Job :=
  targets.flatMap fun map => tiles.map fun tile => ⟨map, tile⟩

/-- The jobs of tiles for maps, all of a tile before those of the next. -/
def byTile (targets : List String) (tiles : List Tile) : List Job :=
  tiles.flatMap fun tile => targets.map fun map => ⟨map, tile⟩

variable {targets : List String} {tiles : List Tile} {job : Job}

theorem mem_byMap : job ∈ byMap targets tiles ↔ job.map ∈ targets ∧ job.tile ∈ tiles := by
  simp only [byMap, List.mem_flatMap, List.mem_map]
  constructor
  · rintro ⟨map, target, tile, listed, rfl⟩
    exact ⟨target, listed⟩
  · rintro ⟨target, listed⟩
    exact ⟨_, target, _, listed, rfl⟩

theorem mem_byTile : job ∈ byTile targets tiles ↔ job.map ∈ targets ∧ job.tile ∈ tiles := by
  simp only [byTile, List.mem_flatMap, List.mem_map]
  constructor
  · rintro ⟨tile, listed, map, target, rfl⟩
    exact ⟨target, listed⟩
  · rintro ⟨target, listed⟩
    exact ⟨_, listed, _, target, rfl⟩

/-- Two lists without repetition are crossed without repetition. -/
theorem nodup_crossed {α β : Type} {outer : List α} {inner : List β} {pair : α → β → Job}
    (apart : ∀ {a b a' b'}, pair a b = pair a' b' → a = a' ∧ b = b') (first : outer.Nodup)
    (second : inner.Nodup) : (outer.flatMap fun a => inner.map (pair a)).Nodup := by
  refine List.nodup_flatMap.mpr ⟨fun a _ => second.map fun _ _ same => (apart same).2, ?_⟩
  refine first.imp fun different job ofFirst ofSecond => different ?_
  obtain ⟨_, _, rfl⟩ := List.mem_map.mp ofFirst
  obtain ⟨_, _, same⟩ := List.mem_map.mp ofSecond
  exact (apart same).1.symm

theorem nodup_byMap (distinct : targets.Nodup) (once : tiles.Nodup) :
    (byMap targets tiles).Nodup :=
  nodup_crossed (fun same => Job.mk.inj same) distinct once

theorem nodup_byTile (distinct : targets.Nodup) (once : tiles.Nodup) :
    (byTile targets tiles).Nodup :=
  nodup_crossed (fun same => (Job.mk.inj same).symm) once distinct

theorem perm_crossed (distinct : targets.Nodup) (once : tiles.Nodup) :
    (byMap targets tiles).Perm (byTile targets tiles) :=
  (List.perm_ext_iff_of_nodup (nodup_byMap distinct once) (nodup_byTile distinct once)).mpr
    fun _ => mem_byMap.trans mem_byTile.symm

theorem length_byMap (targets : List String) (tiles : List Tile) :
    (byMap targets tiles).length = targets.length * tiles.length := by
  simp [byMap, List.length_flatMap, List.map_const']

theorem byMap_singleton (map : String) (tiles : List Tile) :
    byMap [map] tiles = byTile [map] tiles := by
  simp [byMap, byTile, List.map_eq_flatMap]

end Job

/-! ## The line of a tile -/

namespace TileList

variable {tile : Tile} {format : NameFormat} {ending : List Char}

/-- The bytes of the name of a tile, with what ends the line. -/
def ofName (format : NameFormat) (tile : Tile) (ending : List Char) : TileList :=
  ofBytes (Text.Utf8.encode (String.ofList (format.nameOf tile ++ ending)))

theorem lines_ofName (unbroken : format.separator ≠ '\n') (ends : ending = [] ∨ ending = ['\n']) :
    (ofName format tile ending).lines =
      [Text.Utf8.encode (String.ofList (format.nameOf tile ++ ending))] := by
  obtain ⟨c, inside, -⟩ := format.exists_solid_nameOf tile
  refine Text.lines_encode (List.ne_nil_of_mem inside) (fun member => ?_) ends
  obtain separates | digit := NameFormat.mem_nameOf member
  · exact unbroken separates.symm
  · cases digit

/-- The one line of a tile's name is read as that tile. -/
theorem readFrom_nameOf (onGrid : tile.OnGrid) (shallow : tile.level ≤ maxZoom)
    (unbroken : format.separator ≠ '\n') (ends : ending = [] ∨ ending = ['\n']) :
    readFrom format .finished 0 (ofName format tile ending).lines = ([tile], none) := by
  have blank : ∀ c ∈ ending, Text.isBlank c = true := by
    obtain rfl | rfl := ends
    · nofun
    · simp [Text.isBlank]
  have read := format.readTile_nameOf onGrid shallow (List.forall_mem_nil _) blank
  rw [List.nil_append] at read
  have name :
      IsName format (Text.Utf8.encode (String.ofList (format.nameOf tile ++ ending))) tile := by
    obtain ⟨c, inside, solid⟩ := format.exists_solid_nameOf tile
    exact ⟨_, Text.Utf8.decodeFrom_encode _, ⟨c, List.mem_append_left _ inside, solid⟩, read⟩
  simp only [lines_ofName unbroken ends, readFrom, name.readLine_eq]

/-- The list with the name of a tile gives its jobs tile by tile. -/
theorem gives_ofName (onGrid : tile.OnGrid) (shallow : tile.level ≤ maxZoom)
    (unbroken : format.separator ≠ '\n') (ends : ending = [] ∨ ending = ['\n'])
    (expansion : Expansion) (targets : List String) :
    ((ofName format tile ending).generate format expansion targets).Gives
      ((Job.byTile targets (expansion.tiles tile)).map .job) none := by
  have gives := @gives_generateFrom .finished nofun format expansion targets 0
    (ofName format tile ending).lines
  rw [readFrom_nameOf onGrid shallow unbroken ends] at gives
  change Generator.Gives (generateFrom format expansion targets .finished 0 _) _ none
  simpa [Job.byTile, List.map_flatMap, Function.comp_def] using gives

end TileList

/-- A named tile gives its jobs map by map. -/
theorem Generator.gives_byMap (tile : Tile) (expansion : Expansion) (targets : List String) :
    Gives (ofTile tile expansion targets) ((Job.byMap targets (expansion.tiles tile)).map .job)
      none := by
  simpa [Job.byMap, List.map_flatMap, Function.comp_def] using gives_ofTile tile expansion targets

namespace Session

/-- The stream of a named tile, read to its end, has the same jobs as that of the list with its name
alone. -/
theorem named_tile_is_the_work_of_its_line {given tile : Tile} (accepted : given.check = .ok tile)
    (shallow : tile.level ≤ maxZoom) (expansion : Expansion) {targets : List String}
    (some : targets ≠ []) (distinct : targets.Nodup) (format : NameFormat)
    (unbroken : format.separator ≠ '\n') {ending : List Char}
    (ends : ending = [] ∨ ending = ['\n']) :
    ∃ named, Generator.ofTile? tile expansion targets = .ok named ∧
      (∃ events last, ReadOut named events last) ∧
      (∃ events last, ReadOut
        ((TileList.ofName format tile ending).generate format expansion targets) events last) ∧
      ∀ namedEvents namedLast listEvents listLast, ReadOut named namedEvents namedLast →
        ReadOut ((TileList.ofName format tile ending).generate format expansion targets)
          listEvents listLast →
        ∃ namedJobs listJobs : List Job,
          namedEvents.flatMap Event.receivedItems = namedJobs.map .job ∧
          listEvents.flatMap Event.receivedItems = listJobs.map .job ∧
          namedJobs.Perm listJobs ∧ (targets.length = 1 → namedJobs = listJobs) ∧
          namedJobs.Nodup ∧ listJobs.Nodup ∧
          namedJobs.length = targets.length * expansion.count tile.level ∧
          listJobs.length = targets.length * expansion.count tile.level ∧
          namedLast.heldError = none ∧ listLast.heldError = none := by
  obtain ⟨rfl, onGrid⟩ := Tile.check_eq_ok_iff.mp accepted
  have namedGives := Generator.gives_byMap tile expansion targets
  have listGives := TileList.gives_ofName onGrid shallow unbroken ends expansion targets
  refine ⟨_, if_neg some, ?_, ?_, ?_⟩
  · obtain ⟨events, last, out, -⟩ := exists_readOut namedGives.waits
    exact ⟨events, last, out⟩
  · obtain ⟨events, last, out, -⟩ := exists_readOut listGives.waits
    exact ⟨events, last, out⟩
  intro namedEvents namedLast listEvents listLast namedOut listOut
  have once := expansion.nodup_tiles tile
  have perm := Job.perm_crossed distinct once
  have length : (Job.byMap targets (expansion.tiles tile)).length =
      targets.length * expansion.count tile.level := by
    rw [Job.length_byMap, expansion.length_tiles]
  refine ⟨Job.byMap targets (expansion.tiles tile), Job.byTile targets (expansion.tiles tile),
    namedOut.received_eq.trans namedGives.offers_eq, listOut.received_eq.trans listGives.offers_eq,
    perm, fun single => ?_, Job.nodup_byMap distinct once, Job.nodup_byTile distinct once, length,
    perm.length_eq ▸ length, namedOut.heldError_eq.trans namedGives.failure?_eq,
    listOut.heldError_eq.trans listGives.failure?_eq⟩
  obtain ⟨map, rfl⟩ := List.length_eq_one_iff.mp single
  exact Job.byMap_singleton map _

/-- A tile of the first level, with its ancestor and its four children, for two maps. -/
theorem quarter_is_twelve_jobs_either_way :
    ∃ named namedEvents namedLast listEvents listLast,
      Generator.ofTile? ⟨1, 1, 0⟩ ⟨false, .between 0 2 (by decide) (by decide)⟩ ["a", "b"] =
        .ok named ∧
      ReadOut named namedEvents namedLast ∧
      ReadOut ((TileList.ofName ⟨'_', .xyz, rfl⟩ ⟨1, 1, 0⟩ ['\n']).generate ⟨'_', .xyz, rfl⟩
        ⟨false, .between 0 2 (by decide) (by decide)⟩ ["a", "b"]) listEvents listLast ∧
      ∃ namedJobs listJobs : List Job,
        namedEvents.flatMap Event.receivedItems = namedJobs.map .job ∧
        listEvents.flatMap Event.receivedItems = listJobs.map .job ∧
        namedJobs.Perm listJobs ∧ namedJobs.length = 12 := by
  obtain ⟨named, made, ⟨_, _, namedOut⟩, ⟨_, _, listOut⟩, same⟩ :=
    named_tile_is_the_work_of_its_line
      (show Tile.check ⟨1, 1, 0⟩ = .ok ⟨1, 1, 0⟩ by decide) (by decide)
      ⟨false, .between 0 2 (by decide) (by decide)⟩ (show ["a", "b"] ≠ [] by decide) (by decide)
      ⟨'_', .xyz, rfl⟩ (by decide) (show ['\n'] = [] ∨ ['\n'] = ['\n'] by decide)
  obtain ⟨namedJobs, listJobs, ofName, ofList, perm, -, -, -, length, -⟩ :=
    same _ _ _ _ namedOut listOut
  exact ⟨named, _, _, _, _, made, namedOut, listOut, namedJobs, listJobs, ofName, ofList, perm,
    length⟩

end Session

end TilePyramid
