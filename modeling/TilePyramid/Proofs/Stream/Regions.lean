import TilePyramid.Proofs.Stream.Readout
import TilePyramid.Proofs.Tile.Words

/-!
# The tiles of a region

The stream of a region gives its tiles in their order, each once: at every level the rectangle
between the tiles of two corners, whichever of them lies further west or north. Main statement:
`region_is_enumerated_level_by_level`.
-/

set_option autoImplicit false

namespace TilePyramid

theorem Tile.lt_iff {left right : Tile} : left < right ↔
    left.level < right.level ∨ left.level = right.level ∧
      (left.x < right.x ∨ left.x = right.x ∧ left.y < right.y) := Iff.rfl

theorem Tile.ne_of_lt {left right : Tile} (before : left < right) : left ≠ right := by
  intro same
  rw [same, lt_iff] at before
  omega

namespace Block

/-- A block is listed in the order of its tiles. -/
theorem pairwise_lt_tiles (block : Block) : block.tiles.Pairwise (· < ·) := by
  rw [tiles, List.pairwise_flatMap]
  constructor
  · intro x _
    have ascending : (List.range' block.top block.height).Pairwise (· < ·) :=
      List.pairwise_lt_range'
    rw [column, List.pairwise_map]
    exact ascending.imp fun lower => .inr ⟨rfl, .inr ⟨rfl, lower⟩⟩
  · have ascending : (List.range' block.left block.width).Pairwise (· < ·) :=
      List.pairwise_lt_range'
    apply ascending.imp
    intro left right lower first inLeft second inRight
    obtain ⟨_, _, rfl⟩ := List.mem_map.mp inLeft
    obtain ⟨_, _, rfl⟩ := List.mem_map.mp inRight
    exact .inr ⟨rfl, .inl lower⟩

variable {blocks : Nat → Block} {levels : List Nat}

/-- Blocks of ascending levels are listed in the order of their tiles. -/
theorem pairwise_lt_flatMap_tiles (leveled : ∀ level, (blocks level).level = level)
    (ascending : levels.Pairwise (· < ·)) :
    (levels.flatMap fun level => (blocks level).tiles).Pairwise (· < ·) := by
  rw [List.pairwise_flatMap]
  constructor
  · intro level _
    exact (blocks level).pairwise_lt_tiles
  · apply ascending.imp
    intro upper lower deeper first inUpper second inLower
    have firstLevel : first.level = upper := (mem_tiles.mp inUpper).1.trans (leveled upper)
    have secondLevel : second.level = lower := (mem_tiles.mp inLower).1.trans (leveled lower)
    exact .inl (by rwa [firstLevel, secondLevel])

theorem mem_flatMap_tiles_iff (leveled : ∀ level, (blocks level).level = level) {tile : Tile} :
    tile ∈ (levels.flatMap fun level => (blocks level).tiles) ↔
      tile.level ∈ levels ∧ (blocks tile.level).Holds tile := by
  rw [List.mem_flatMap]
  constructor
  · intro found
    obtain ⟨level, member, listed⟩ := found
    have held : (blocks level).Holds tile := mem_tiles.mp listed
    have same : tile.level = level := held.1.trans (leveled level)
    rw [same]
    exact ⟨member, held⟩
  · intro found
    obtain ⟨member, held⟩ := found
    exact ⟨tile.level, member, mem_tiles.mpr held⟩

/-- Of the tiles of blocks of ascending levels, those of one level are those of its block. -/
theorem countP_level_flatMap_tiles (leveled : ∀ level, (blocks level).level = level)
    (ascending : levels.Pairwise (· < ·)) {level : Nat} (member : level ∈ levels) :
    (levels.flatMap fun level => (blocks level).tiles).countP (fun tile => tile.level = level) =
      (blocks level).size := by
  have listed := (pairwise_lt_flatMap_tiles leveled ascending).imp Tile.ne_of_lt
  have ofLevel := (blocks level).pairwise_lt_tiles.imp Tile.ne_of_lt
  rw [List.countP_eq_length_filter, ← length_tiles]
  refine ((List.perm_ext_iff_of_nodup (listed.filter _) ofLevel).mpr fun tile => ?_).length_eq
  rw [List.mem_filter, mem_flatMap_tiles_iff leveled, mem_tiles, decide_eq_true_eq]
  constructor
  · intro found
    obtain ⟨⟨-, held⟩, same⟩ := found
    rwa [same] at held
  · intro held
    have same : tile.level = level := held.1.trans (leveled level)
    rw [same]
    exact ⟨⟨member, held⟩, rfl⟩

end Block

namespace Mercator

theorem onGrid_tileAt (longitude latitude : Float) {level : Nat} (shallow : level ≤ maxLevel) :
    (tileAt longitude latitude level).OnGrid :=
  ⟨shallow, index_le level _, index_le level _⟩

/-- A region is covered by the block between the tiles of its corners. -/
theorem cover_eq_between (bounds : Bounds) (level : Nat) :
    cover bounds level = Block.between (tileAt bounds.west bounds.south level)
      (tileAt bounds.east bounds.north level) := rfl

theorem between?_eq_cover (bounds : Bounds) {level : Nat} (shallow : level ≤ maxLevel) :
    Block.between? (tileAt bounds.west bounds.south level)
        (tileAt bounds.east bounds.north level) = some (cover bounds level) :=
  Block.between?_eq rfl (onGrid_tileAt _ _ shallow) (onGrid_tileAt _ _ shallow)

theorem onGrid_cover (bounds : Bounds) {level : Nat} (shallow : level ≤ maxLevel) :
    (cover bounds level).OnGrid := by
  rw [cover_eq_between]
  exact Block.onGrid_between rfl (onGrid_tileAt _ _ shallow) (onGrid_tileAt _ _ shallow)

end Mercator

theorem ZoomRange.le_maxLevel {zooms : ZoomRange} {level : Nat} (member : level ∈ zooms.levels) :
    level ≤ maxLevel := by
  cases zooms with
  | empty => cases member
  | between low high ordered shallow =>
      have most : level ≤ high := (mem_levels_between.mp member).2
      have zoom : maxZoom ≤ maxLevel := by decide
      omega

namespace Session

/-- A stream of a region that is read to its end gives, in ascending order, the tiles that lie
between the tiles of its corners at each level of the range. They are as many as the count of the
level tells, and no number on the way to them leaves its machine word. -/
theorem region_is_enumerated_level_by_level (bounds : Bounds) (zooms : ZoomRange) :
    (∃ events last, ReadOut (.ofBounds bounds zooms) events last ∧
      (start (.ofBounds bounds zooms) false).takeAll =
        (events.flatMap Event.receivedItems, last)) ∧
    (∀ events last, ReadOut (.ofBounds bounds zooms) events last →
      last.heldError = none ∧
      ∃ tiles : List Tile, events.flatMap Event.receivedItems = tiles.map .tile ∧
        tiles.Pairwise (· < ·) ∧
        (∀ tile, tile ∈ tiles ↔ tile.level ∈ zooms.levels ∧
          let first := Mercator.tileAt bounds.west bounds.south tile.level
          let second := Mercator.tileAt bounds.east bounds.north tile.level
          min first.x second.x ≤ tile.x ∧ tile.x ≤ max first.x second.x ∧
            min first.y second.y ≤ tile.y ∧ tile.y ≤ max first.y second.y) ∧
        (∀ tile ∈ tiles, tile.check = .ok tile) ∧
        ∀ level ∈ zooms.levels,
          ((Block.between? (Mercator.tileAt bounds.west bounds.south level)
              (Mercator.tileAt bounds.east bounds.north level)).bind Block.count?) =
            some (tiles.countP fun tile => tile.level = level)) ∧
    ∀ first second : Tile, first.OnGrid → second.OnGrid → second.level = first.level →
      ∃ block, Block.between? first second = some block ∧ block = Block.between first second ∧
        block.count? = some block.size ∧ block.listed? = some block.tiles := by
  have gives := Generator.gives_ofBounds bounds zooms
  refine ⟨exists_readOut gives.waits, ?_, ?_⟩
  · intro events last out
    have ascending := zooms.pairwise_lt_levels
    refine ⟨out.heldError_eq.trans gives.failure?_eq,
      zooms.levels.flatMap fun level => (Mercator.cover bounds level).tiles, ?_, ?_, ?_, ?_, ?_⟩
    · rw [out.received_eq, gives.offers_eq, List.map_flatMap]
    · exact Block.pairwise_lt_flatMap_tiles (fun _ => rfl) ascending
    · intro tile
      rw [Block.mem_flatMap_tiles_iff fun _ => rfl]
      exact and_congr_right fun _ => and_iff_right rfl
    · intro tile member
      obtain ⟨level, held⟩ := (Block.mem_flatMap_tiles_iff fun _ => rfl).mp member
      have shallow : tile.level ≤ maxLevel := zooms.le_maxLevel level
      obtain ⟨-, -, -, right, bottom⟩ := Mercator.onGrid_cover bounds shallow
      obtain ⟨-, -, beforeRight, -, beforeBottom⟩ := held
      exact Tile.check_eq_ok_iff.mpr
        ⟨rfl, shallow, beforeRight.trans right, beforeBottom.trans bottom⟩
    · intro level member
      have shallow : level ≤ maxLevel := zooms.le_maxLevel member
      rw [Block.countP_level_flatMap_tiles (fun _ => rfl) ascending member,
        Mercator.between?_eq_cover bounds shallow]
      exact Block.count?_eq (Mercator.onGrid_cover bounds shallow)
  · intro first second firstOn secondOn same
    have onGrid := Block.onGrid_between same firstOn secondOn
    exact ⟨_, Block.between?_eq same firstOn secondOn, rfl, Block.count?_eq onGrid,
      Block.listed?_eq onGrid⟩

/-- At level 0 the whole world is one tile, and the largest block of the pyramid, which reaches over
the whole grid of level 31, is still counted in 64 bits. -/
theorem world_is_one_tile_at_level_zero :
    (∃ events last,
      ReadOut (.ofBounds .world (.between 0 0 (Nat.le_refl 0) (Nat.zero_le _))) events last ∧
      last.heldError = none ∧ .tile ⟨0, 0, 0⟩ ∈ events.flatMap Event.receivedItems) ∧
    (Block.between ⟨31, 2147483647, 0⟩ ⟨31, 0, 2147483647⟩).count? = some (2147483648 * 2147483648) := by
  obtain ⟨⟨events, last, out, -⟩, complete, words⟩ := region_is_enumerated_level_by_level .world
    (.between 0 0 (Nat.le_refl 0) (Nat.zero_le _))
  obtain ⟨clean, tiles, received, -, listed, -⟩ := complete events last out
  constructor
  · refine ⟨events, last, out, clean, ?_⟩
    rw [received, List.mem_map]
    refine ⟨⟨0, 0, 0⟩, (listed _).mpr ⟨by decide, ?_⟩, rfl⟩
    obtain ⟨-, west, south⟩ := Mercator.onGrid_tileAt Bounds.world.west Bounds.world.south
      (Nat.zero_le maxLevel)
    exact ⟨(Nat.min_le_left _ _).trans west, Nat.zero_le _, (Nat.min_le_left _ _).trans south,
      Nat.zero_le _⟩
  · obtain ⟨_, -, rfl, count, -⟩ :=
      words ⟨31, 2147483647, 0⟩ ⟨31, 0, 2147483647⟩ (by decide) (by decide) rfl
    exact count

end Session

end TilePyramid
