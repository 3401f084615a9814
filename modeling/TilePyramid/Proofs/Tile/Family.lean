import TilePyramid.Proofs.Stream.Regions

/-!
# Relatives of tiles

The relatives of a tile at a deeper level are the tiles whose ancestor it is, and ancestors of
ancestors are ancestors. So the tiles of a level divide every deeper level among them. In machine
words no relative is lost: even the end of a range of indices, which lies one beyond the grid, fits.
Main statements: `mem_family_iff`, `family_lists_relatives` and `families_compose`.
-/

set_option autoImplicit false

namespace TilePyramid

/-! ## Words -/

namespace Word

/-- The number shifted to the left within its word, if no bit is lost. -/
def shiftLeft? (bits number steps : Nat) : Option Nat :=
  if steps < bits then fit? bits (number <<< steps) else none

/-- The number shifted to the right within its word. -/
def shiftRight? (bits number steps : Nat) : Option Nat :=
  if steps < bits then some (number >>> steps) else none

/-- So many indices from one on. Also the index after the last one is computed. -/
def advance? : (count index : Nat) → Option (List Nat)
  | 0, _ => some []
  | count + 1, index => do
      let next ← add? 32 index 1
      let others ← advance? count next
      return index :: others

/-- The indices from one to another that is not included. -/
def before? (low high : Nat) : Option (List Nat) := advance? (high - low) low

theorem advance?_eq {count index : Nat} (fits : index + count < 2 ^ 32) :
    advance? count index = some (List.range' index count) := by
  induction count generalizing index with
  | zero => rfl
  | succ count ih =>
      have next : add? 32 index 1 = some (index + 1) := add?_eq (by omega)
      have others : advance? count (index + 1) = some (List.range' (index + 1) count) :=
        ih (by omega)
      simp only [advance?, next, others, Option.bind_eq_bind, Option.bind_some]
      rfl

theorem before?_eq {low count : Nat} (fits : low + count < 2 ^ 32) :
    before? low (low + count) = some (List.range' low count) := by
  rw [before?, Nat.add_sub_cancel_left, advance?_eq fits]

end Word

namespace Tile

/-! ## Ancestors -/

theorem onGrid_iff {tile : Tile} : tile.OnGrid ↔
    tile.level ≤ maxLevel ∧ tile.x < 2 ^ tile.level ∧ tile.y < 2 ^ tile.level := by
  have positive : 0 < 2 ^ tile.level := Nat.two_pow_pos tile.level
  have last : lastIndex tile.level = 2 ^ tile.level - 1 := rfl
  rw [OnGrid, last]
  omega

theorem ancestor_self (tile : Tile) : tile.ancestor tile.level = tile := by
  simp [ancestor]

/-- The ancestor of an ancestor is an ancestor. -/
theorem ancestor_ancestor {tile : Tile} {upper lower : Nat} (ordered : upper ≤ lower)
    (above : lower ≤ tile.level) : (tile.ancestor lower).ancestor upper = tile.ancestor upper := by
  have steps : tile.level - lower + (lower - upper) = tile.level - upper := by omega
  simp only [ancestor, Nat.pow_eq, Nat.div_div_eq_div_mul, ← Nat.pow_add, steps]

/-- A tile is on the grid exactly if its ancestors are. -/
theorem onGrid_ancestor_iff {tile : Tile} {level : Nat} (above : level ≤ tile.level)
    (shallow : tile.level ≤ maxLevel) : (tile.ancestor level).OnGrid ↔ tile.OnGrid := by
  have positive : 0 < 2 ^ (tile.level - level) := Nat.two_pow_pos _
  have whole : 2 ^ level * 2 ^ (tile.level - level) = 2 ^ tile.level := by
    rw [← Nat.pow_add, Nat.add_sub_of_le above]
  simp only [onGrid_iff, ancestor, Nat.pow_eq, Nat.div_lt_iff_lt_mul positive, whole]
  exact and_congr_left fun _ => iff_of_true (above.trans shallow) shallow

/-! ## Families -/

theorem tiles_family_of_le {tile : Tile} {level : Nat} (above : level ≤ tile.level) :
    (tile.family level).tiles = [tile.ancestor level] := by
  rw [family, if_pos above, Block.tiles_single]

/-- The relatives of a tile at a level below it are the tiles of the level that it is an ancestor
of. -/
theorem mem_family_iff {tile other : Tile} {level : Nat} (below : tile.level ≤ level) :
    other ∈ (tile.family level).tiles ↔ other.level = level ∧ other.ancestor tile.level = tile := by
  obtain ⟨top, x, y⟩ := tile
  obtain same | deeper : level = top ∨ top < level := by dsimp only at below; omega
  · subst same
    rw [tiles_family_of_le (Nat.le_refl _), ancestor_self, List.mem_singleton]
    constructor
    · rintro rfl
      exact ⟨rfl, ancestor_self _⟩
    · rintro ⟨rfl, isTile⟩
      exact (ancestor_self other).symm.trans isTile
  · have positive : 0 < 2 ^ (level - top) := Nat.two_pow_pos _
    rw [family, if_neg (by simpa using deeper), Block.mem_tiles]
    simp only [descendants, Block.Holds, Nat.pow_eq]
    refine and_congr_right fun same => ?_
    simp only [ancestor, Nat.pow_eq, same, Tile.mk.injEq, true_and, Nat.div_eq_iff positive]
    omega

theorem nodup_family (tile : Tile) (level : Nat) : (tile.family level).tiles.Nodup :=
  (tile.family level).pairwise_lt_tiles.imp ne_of_lt

section Deeper

variable {tile : Tile} {level : Nat} (deeper : tile.level < level)
include deeper

theorem family_of_lt : tile.family level = tile.descendants level := if_neg (by omega)

theorem height_family : (tile.family level).height = 2 ^ (level - tile.level) := by
  have positive : 0 < 2 ^ (level - tile.level) := Nat.two_pow_pos _
  simp only [family_of_lt deeper, descendants, Block.height, Nat.pow_eq]
  omega

theorem width_family : (tile.family level).width = 2 ^ (level - tile.level) := by
  have positive : 0 < 2 ^ (level - tile.level) := Nat.two_pow_pos _
  simp only [family_of_lt deeper, descendants, Block.width, Nat.pow_eq]
  omega

theorem size_family : (tile.family level).size = 4 ^ (level - tile.level) := by
  rw [Block.size, width_family deeper, height_family deeper, ← Nat.mul_pow]

theorem tileAt_family (position : Nat) : (tile.family level).tileAt position =
    ⟨level, (tile.x <<< (level - tile.level)) + position / 2 ^ (level - tile.level),
      (tile.y <<< (level - tile.level)) + position % 2 ^ (level - tile.level)⟩ := by
  rw [Block.tileAt, height_family deeper, family_of_lt deeper, Nat.shiftLeft_eq, Nat.shiftLeft_eq]
  rfl

end Deeper

/-! ## Families in machine words -/

/-- The relatives of a tile with indices of 32 bits. -/
def familyWords? (tile : Tile) (level : Nat) : Option (List Tile) :=
  if level ≤ tile.level then do
    let x ← Word.shiftRight? 32 tile.x (tile.level - level)
    let y ← Word.shiftRight? 32 tile.y (tile.level - level)
    return [⟨level, x, y⟩]
  else do
    let size ← Word.shiftOne? 32 (level - tile.level)
    let left ← Word.shiftLeft? 32 tile.x (level - tile.level)
    let top ← Word.shiftLeft? 32 tile.y (level - tile.level)
    let right ← Word.add? 32 left size
    let bottom ← Word.add? 32 top size
    let columns ← Word.before? left right
    let rows ← Word.before? top bottom
    return columns.flatMap fun x => rows.map fun y => ⟨level, x, y⟩

/-- The end of the range of indices that a column or row of a tile becomes is on the grid, or one
beyond it. -/
theorem shiftLeft_add_le {index level steps : Nat} (inside : index < 2 ^ level)
    (shallow : level + steps ≤ maxLevel) : index <<< steps + 2 ^ steps ≤ 2 ^ maxLevel := by
  calc
    index <<< steps + 2 ^ steps = (index + 1) * 2 ^ steps := by
      rw [Nat.shiftLeft_eq, Nat.add_one_mul]
    _ ≤ 2 ^ level * 2 ^ steps := Nat.mul_le_mul_right _ inside
    _ = 2 ^ (level + steps) := (Nat.pow_add 2 level steps).symm
    _ ≤ 2 ^ maxLevel := Nat.pow_le_pow_right (by decide) shallow

theorem axisWords_eq {index steps : Nat} (within : steps < 32)
    (fits : index <<< steps + 2 ^ steps ≤ 2 ^ maxLevel) :
    Word.shiftLeft? 32 index steps = some (index <<< steps) ∧
      Word.add? 32 (index <<< steps) (2 ^ steps) = some (index <<< steps + 2 ^ steps) ∧
      Word.before? (index <<< steps) (index <<< steps + 2 ^ steps) =
        some (List.range' (index <<< steps) (2 ^ steps)) := by
  have inWord : index <<< steps + 2 ^ steps < 2 ^ 32 := Nat.lt_of_le_of_lt fits (by decide)
  refine ⟨?_, Word.add?_eq inWord, Word.before?_eq inWord⟩
  have shifted : index <<< steps < 2 ^ 32 := Nat.lt_of_le_of_lt (Nat.le_add_right _ _) inWord
  rw [Word.shiftLeft?, if_pos within, Word.fit?_eq shifted]

theorem tiles_family_of_lt {tile : Tile} {level : Nat} (deeper : tile.level < level) :
    (tile.family level).tiles =
      (List.range' (tile.x <<< (level - tile.level)) (2 ^ (level - tile.level))).flatMap fun x =>
        (List.range' (tile.y <<< (level - tile.level)) (2 ^ (level - tile.level))).map fun y =>
          ⟨level, x, y⟩ := by
  have columns : (tile.family level).column = fun x =>
      (List.range' (tile.family level).top (tile.family level).height).map fun y =>
        ⟨(tile.family level).level, x, y⟩ := rfl
  rw [Block.tiles, columns, width_family deeper, height_family deeper, family_of_lt deeper]
  simp only [descendants, Nat.pow_eq, Nat.shiftLeft_eq]

theorem familyWords?_eq {tile : Tile} {level : Nat} (onGrid : tile.OnGrid)
    (shallow : level ≤ maxLevel) : tile.familyWords? level = some (tile.family level).tiles := by
  obtain ⟨depth, x, y⟩ := onGrid_iff.mp onGrid
  have deepest : maxLevel = 31 := rfl
  unfold familyWords?
  split
  · next above =>
    have within : tile.level - level < 32 := by omega
    simp only [Word.shiftRight?, if_pos within, Option.bind_eq_bind, Option.bind_some,
      Nat.shiftRight_eq_div_pow, tiles_family_of_le above]
    rfl
  · next above =>
    have deeper : tile.level < level := Nat.lt_of_not_le above
    have within : level - tile.level < 32 := by omega
    have most : tile.level + (level - tile.level) ≤ maxLevel := by omega
    obtain ⟨left, right, columns⟩ := axisWords_eq within (shiftLeft_add_le x most)
    obtain ⟨top, bottom, rows⟩ := axisWords_eq within (shiftLeft_add_le y most)
    simp only [Word.shiftOne?_eq within, left, top, right, bottom, columns, rows,
      Option.bind_eq_bind, Option.bind_some, tiles_family_of_lt deeper]
    rfl

/-- The relatives of a tile at a level above it are one tile, on the grid. At a deeper level they
are the tiles of the grid whose relative the tile is, each once and in ascending order, and their
indices are known by their position. No number on the way to them leaves its machine word. -/
theorem family_lists_relatives {given tile : Tile} {level : Nat} (accepted : given.check = .ok tile)
    (shallow : level ≤ maxLevel) :
    tile.family? level = .ok (tile.family level) ∧
    tile.familyWords? level = some (tile.family level).tiles ∧
    (level ≤ tile.level → ∃ relative : Tile, relative.OnGrid ∧
      relative = ⟨level, tile.x >>> (tile.level - level), tile.y >>> (tile.level - level)⟩ ∧
      (tile.family level).tiles = [relative]) ∧
    (tile.level < level →
      (∀ other : Tile, other ∈ (tile.family level).tiles ↔
        other.level = level ∧ other.OnGrid ∧ (other.family tile.level).tiles = [tile]) ∧
      (tile.family level).tiles.Nodup ∧
      (tile.family level).tiles.Pairwise (· < ·) ∧
      (tile.family level).tiles.length = 4 ^ (level - tile.level) ∧
      ∀ position < 4 ^ (level - tile.level), (tile.family level).tiles[position]? =
        some ⟨level, (tile.x <<< (level - tile.level)) + position / 2 ^ (level - tile.level),
          (tile.y <<< (level - tile.level)) + position % 2 ^ (level - tile.level)⟩) := by
  obtain ⟨rfl, onGrid⟩ := check_eq_ok_iff.mp accepted
  refine ⟨?_, familyWords?_eq onGrid shallow, fun above => ?_, fun deeper => ?_⟩
  · rw [family?, checkLevel_eq_ok_iff.mpr shallow]
    rfl
  · refine ⟨tile.ancestor level, (onGrid_ancestor_iff above onGrid.1).mpr onGrid, ?_,
      tiles_family_of_le above⟩
    simp only [ancestor, Nat.pow_eq, Nat.shiftRight_eq_div_pow]
  · refine ⟨fun other => ?_, nodup_family tile level, Block.pairwise_lt_tiles _, ?_, ?_⟩
    · rw [mem_family_iff deeper.le]
      refine and_congr_right fun same => ?_
      subst same
      rw [tiles_family_of_le deeper.le, List.singleton_inj]
      refine (and_iff_right_of_imp fun related => ?_).symm
      exact (onGrid_ancestor_iff deeper.le shallow).mp (related ▸ onGrid)
    · rw [Block.length_tiles, size_family deeper]
    · intro position inside
      rw [← size_family deeper] at inside
      rw [← Block.map_tileAt_range, List.getElem?_map, List.getElem?_range inside, Option.map_some,
        tileAt_family deeper]

/-- The last tile of the grid of level 30 has the last four tiles of the deepest level as relatives,
and the end of their indices, which is `2 ^ 31`, is still a word. -/
theorem last_tile_has_four_relatives :
    (Tile.mk 30 1073741823 1073741823).check = .ok ⟨30, 1073741823, 1073741823⟩ ∧ 31 ≤ maxLevel ∧
      (Tile.mk 30 1073741823 1073741823).familyWords? 31 =
        some ((Tile.mk 30 1073741823 1073741823).family 31).tiles ∧
      ((Tile.mk 30 1073741823 1073741823).family 31).tiles[3]? =
        some ⟨31, 2147483647, 2147483647⟩ := by
  have accepted : (Tile.mk 30 1073741823 1073741823).check = .ok ⟨30, 1073741823, 1073741823⟩ :=
    check_eq_ok_iff.mpr ⟨rfl, by decide⟩
  obtain ⟨-, words, -, deeper⟩ := @family_lists_relatives _ _ 31 accepted (by decide)
  obtain ⟨-, -, -, -, placed⟩ := deeper (by decide)
  exact ⟨accepted, by decide, words, placed 3 (by decide)⟩

/-! ## Families of families -/

section Families

variable {tile : Tile} {upper lower : Nat}

theorem flatMap_family_of_le (ordered : upper ≤ lower) (above : lower ≤ tile.level) :
    ((tile.family lower).tiles.flatMap fun member => (member.family upper).tiles) =
      (tile.family upper).tiles := by
  have reached : (tile.ancestor lower).level = lower := rfl
  rw [tiles_family_of_le above, List.flatMap_singleton, tiles_family_of_le (ordered.trans above),
    tiles_family_of_le (reached ▸ ordered), ancestor_ancestor ordered above]

/-- Tiles of one level that have a relative in common at a deeper level are the same. -/
theorem disjoint_families {first second : Tile} {level : Nat} (firstBelow : first.level ≤ level)
    (same : first.level = second.level) (different : first ≠ second) :
    List.Disjoint (first.family level).tiles (second.family level).tiles := by
  intro member ofFirst ofSecond
  obtain ⟨-, isFirst⟩ := (mem_family_iff firstBelow).mp ofFirst
  obtain ⟨-, isSecond⟩ := (mem_family_iff (same ▸ firstBelow)).mp ofSecond
  rw [same] at isFirst
  exact different (isFirst.symm.trans isSecond)

theorem mem_flatMap_family_iff {other : Tile} (below : tile.level ≤ upper)
    (ordered : upper ≤ lower) :
    other ∈ ((tile.family upper).tiles.flatMap fun member => (member.family lower).tiles) ↔
      other ∈ (tile.family lower).tiles := by
  rw [List.mem_flatMap, mem_family_iff (below.trans ordered)]
  constructor
  · rintro ⟨member, related, found⟩
    obtain ⟨rfl, isTile⟩ := (mem_family_iff below).mp related
    obtain ⟨level, isMember⟩ := (mem_family_iff ordered).mp found
    refine ⟨level, ?_⟩
    rw [← ancestor_ancestor below (level ▸ ordered), isMember, isTile]
  · rintro ⟨level, isTile⟩
    have above : upper ≤ other.level := level ▸ ordered
    refine ⟨other.ancestor upper, (mem_family_iff below).mpr ⟨rfl, ?_⟩, ?_⟩
    · rw [ancestor_ancestor below above, isTile]
    · exact (mem_family_iff ordered).mpr ⟨level, rfl⟩

theorem nodup_flatMap_family (below : tile.level ≤ upper) (ordered : upper ≤ lower) :
    ((tile.family upper).tiles.flatMap fun member => (member.family lower).tiles).Nodup := by
  refine List.nodup_flatMap.mpr ⟨fun member _ => nodup_family member lower, ?_⟩
  refine (nodup_family tile upper).imp_of_mem fun {first second} isFirst isSecond different => ?_
  obtain ⟨firstLevel, -⟩ := (mem_family_iff below).mp isFirst
  obtain ⟨secondLevel, -⟩ := (mem_family_iff below).mp isSecond
  exact disjoint_families (firstLevel ▸ ordered) (firstLevel.trans secondLevel.symm) different

end Families

/-- The relatives of relatives at a further level are the relatives at that level: above a tile the
ancestor of its ancestor, and below it the same tiles in some order. The relatives of the tiles of
one level divide each deeper level among them. -/
theorem families_compose :
    (∀ {given tile : Tile} {upper lower : Nat}, given.check = .ok tile → upper ≤ lower →
      lower ≤ maxLevel →
      (lower ≤ tile.level →
        ((tile.family lower).tiles.flatMap fun member => (member.family upper).tiles) =
          (tile.family upper).tiles) ∧
      (tile.level ≤ upper →
        ((tile.family upper).tiles.flatMap fun member => (member.family lower).tiles).Perm
          (tile.family lower).tiles)) ∧
    ∀ {level lower : Nat}, level ≤ lower → lower ≤ maxLevel →
      (∀ first second : Tile, first.OnGrid → second.OnGrid → first.level = level →
        second.level = level → first ≠ second →
        List.Disjoint (first.family lower).tiles (second.family lower).tiles) ∧
      ∀ other : Tile, other.level = lower ∧ other.OnGrid ↔
        ∃ tile : Tile, tile.level = level ∧ tile.OnGrid ∧ other ∈ (tile.family lower).tiles := by
  refine ⟨fun {given tile upper lower} _ ordered _ => ⟨flatMap_family_of_le ordered, ?_⟩,
    fun {level lower} ordered shallow => ⟨?_, fun other => ?_⟩⟩
  · intro below
    refine (List.perm_ext_iff_of_nodup (nodup_flatMap_family below ordered)
      (nodup_family tile lower)).mpr fun other => mem_flatMap_family_iff below ordered
  · intro first second _ _ firstLevel secondLevel different
    exact disjoint_families (firstLevel ▸ ordered) (firstLevel.trans secondLevel.symm) different
  · constructor
    · rintro ⟨rfl, onGrid⟩
      refine ⟨other.ancestor level, rfl, (onGrid_ancestor_iff ordered shallow).mpr onGrid, ?_⟩
      exact (mem_family_iff ordered).mpr ⟨rfl, rfl⟩
    · rintro ⟨tile, rfl, onGrid, related⟩
      obtain ⟨rfl, isTile⟩ := (mem_family_iff ordered).mp related
      exact ⟨rfl, (onGrid_ancestor_iff ordered shallow).mp (isTile ▸ onGrid)⟩

/-- The tiles of the deepest level within a quarter of the world, by way of level 3. There are too
many of them to list. -/
theorem quarter_divides_into_sixteen :
    (Tile.mk 1 1 0).check = .ok ⟨1, 1, 0⟩ ∧
      (((Tile.mk 1 1 0).family 3).tiles.flatMap fun member => (member.family 31).tiles).Perm
        ((Tile.mk 1 1 0).family 31).tiles ∧
      (((Tile.mk 1 1 0).family 1).tiles.flatMap fun member => (member.family 0).tiles) =
        ((Tile.mk 1 1 0).family 0).tiles ∧
      List.Disjoint ((Tile.mk 1 1 0).family 31).tiles ((Tile.mk 1 0 0).family 31).tiles := by
  obtain ⟨composes, divides⟩ := families_compose
  have accepted : (Tile.mk 1 1 0).check = .ok ⟨1, 1, 0⟩ := check_eq_ok_iff.mpr ⟨rfl, by decide⟩
  obtain ⟨-, downwards⟩ := @composes _ _ 3 31 accepted (by decide) (by decide)
  obtain ⟨upwards, -⟩ := @composes _ _ 0 1 accepted (by decide) (by decide)
  obtain ⟨apart, -⟩ := @divides 1 31 (by decide) (by decide)
  refine ⟨accepted, downwards (by decide), upwards (by decide), ?_⟩
  exact apart ⟨1, 1, 0⟩ ⟨1, 0, 0⟩ (by decide) (by decide) rfl rfl (by decide)

end Tile

end TilePyramid
