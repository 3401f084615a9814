/-!
# Tiles

A tile is a node of a quadtree over the square map of the world: level `n` cuts the square into
`2 ^ n` columns, numbered from west to east, and as many rows, numbered from north to south. The
tiles related to a tile, and those that cover a region, form blocks.
-/

set_option autoImplicit false

namespace TilePyramid

/-- A tile by its level, column and row. -/
structure Tile where
  level : Nat
  x : Nat
  y : Nat
deriving DecidableEq

/-- The deepest level of the pyramid. -/
def maxLevel : Nat := 31

/-- The deepest level that tile names and options may ask for. -/
def maxZoom : Nat := 22

/-- The largest column and row of a level. -/
def lastIndex (level : Nat) : Nat := Nat.pow 2 level - 1

namespace Tile

/-- The tile is a node of the pyramid. -/
def OnGrid (tile : Tile) : Prop :=
  tile.level ≤ maxLevel ∧ tile.x ≤ lastIndex tile.level ∧ tile.y ≤ lastIndex tile.level

instance (tile : Tile) : Decidable tile.OnGrid :=
  inferInstanceAs (Decidable (_ ∧ _))

def text (tile : Tile) : String := s!"{tile.level}/{tile.x}/{tile.y}"

/-- The text that names the parts. -/
def description (tile : Tile) : String := s!"Tile({tile.level}, [{tile.x}, {tile.y}])"

/-- Tiles are ordered by level, then column, then row. -/
def before (left right : Tile) : Prop :=
  left.level < right.level ∨ left.level = right.level ∧
    (left.x < right.x ∨ left.x = right.x ∧ left.y < right.y)

instance : LT Tile := ⟨before⟩

instance (left right : Tile) : Decidable (left < right) :=
  inferInstanceAs (Decidable (_ ∨ _ ∧ (_ ∨ _ ∧ _)))

def sort (tiles : List Tile) : List Tile :=
  tiles.mergeSort fun left right => decide (¬ right < left)

/-- Why numbers name no tile, or a level is none of the pyramid. -/
inductive Fault where
  | tooDeep (level : Nat)
  | offGrid (tile : Tile)
deriving DecidableEq

def Fault.message : Fault → String
  | .tooDeep level => s!"level ({level}) must be <= {maxLevel}"
  | .offGrid tile =>
      s!"{tile.text} is outside of the grid, x and y must be <= {lastIndex tile.level}"

def checkLevel (level : Nat) : Except Fault Unit :=
  if maxLevel < level then .error (.tooDeep level) else .ok ()

/-- The tile with the given numbers, if it is on the grid. -/
def check (tile : Tile) : Except Fault Tile := do
  checkLevel tile.level
  if lastIndex tile.level < tile.x ∨ lastIndex tile.level < tile.y then .error (.offGrid tile)
  else .ok tile

def lastIndex? (level : Nat) : Except Fault Nat := do
  checkLevel level
  return lastIndex level

theorem checkLevel_eq_ok_iff {level : Nat} : checkLevel level = .ok () ↔ level ≤ maxLevel := by
  unfold checkLevel
  by_cases deep : maxLevel < level
  · simp only [if_pos deep, reduceCtorEq, false_iff]
    exact Nat.not_le.2 deep
  · simp only [if_neg deep, true_iff]
    exact Nat.not_lt.1 deep

/-- The check accepts exactly the tiles on the grid, and returns them unchanged. -/
theorem check_eq_ok_iff {tile result : Tile} :
    tile.check = .ok result ↔ result = tile ∧ tile.OnGrid := by
  unfold check checkLevel OnGrid
  by_cases deep : maxLevel < tile.level
  · simp only [if_pos deep, bind, Except.bind, reduceCtorEq, false_iff]
    exact fun accepted => absurd accepted.2.1 (Nat.not_le.2 deep)
  · by_cases off : lastIndex tile.level < tile.x ∨ lastIndex tile.level < tile.y
    · simp only [if_neg deep, if_pos off, bind, Except.bind, reduceCtorEq, false_iff]
      intro accepted
      have onGrid := accepted.2
      omega
    · simp only [if_neg deep, if_neg off, bind, Except.bind, Except.ok.injEq]
      constructor
      · intro same
        exact ⟨same.symm, by omega⟩
      · intro same
        exact same.1.symm

end Tile

/-!
## Blocks of tiles

A block is a rectangle of tiles of one level, with both ends included. The tiles related to a tile
form a block, and so do the tiles that cover a region. A block is enumerated column by column; its
tiles can be computed by their position, so that a large block need not be listed.

Main statements: the listing holds each position once, in their order, and has the size of the block.
-/

/-- The tiles of a level from column `left` to `right` and from row `top` to `bottom`. -/
structure Block where
  level : Nat
  left : Nat
  top : Nat
  right : Nat
  bottom : Nat
deriving DecidableEq

namespace Block

def width (block : Block) : Nat := block.right + 1 - block.left

def height (block : Block) : Nat := block.bottom + 1 - block.top

def size (block : Block) : Nat := block.width * block.height

/-- The tile at a position below the size: columns ascend, and rows within a column. -/
def tileAt (block : Block) (position : Nat) : Tile :=
  ⟨block.level, block.left + position / block.height, block.top + position % block.height⟩

def column (block : Block) (x : Nat) : List Tile :=
  (List.range' block.top block.height).map fun y => ⟨block.level, x, y⟩

/-- All tiles, column by column. -/
def tiles (block : Block) : List Tile :=
  (List.range' block.left block.width).flatMap block.column

/-- The first `count` tiles after the first `skip` ones. -/
def slice (block : Block) (skip count : Nat) : List Tile :=
  (List.range' skip (min count (block.size - skip))).map block.tileAt

def Holds (block : Block) (tile : Tile) : Prop :=
  tile.level = block.level ∧ block.left ≤ tile.x ∧ tile.x ≤ block.right ∧
    block.top ≤ tile.y ∧ tile.y ≤ block.bottom

def single (tile : Tile) : Block := ⟨tile.level, tile.x, tile.y, tile.x, tile.y⟩

@[simp] theorem mem_tiles {block : Block} {tile : Tile} :
    tile ∈ block.tiles ↔ block.Holds tile := by
  simp only [tiles, column, List.mem_flatMap, List.mem_map, List.mem_range'_1, Holds, width, height]
  constructor
  · rintro ⟨x, ⟨_, _⟩, y, ⟨_, _⟩, rfl⟩
    refine ⟨rfl, ?_, ?_, ?_, ?_⟩ <;> dsimp only <;> omega
  · rintro ⟨level, _, _, _, _⟩
    refine ⟨tile.x, by omega, tile.y, by omega, ?_⟩
    cases tile
    simp_all

@[simp] theorem length_tiles (block : Block) : block.tiles.length = block.size := by
  simp [tiles, column, List.length_flatMap, size, List.map_const']

@[simp] theorem tiles_single (tile : Tile) : (single tile).tiles = [tile] := by
  simp [tiles, single, width, height, column]

theorem tileAt_add {block : Block} {column row : Nat} (inside : row < block.height) :
    block.tileAt (column * block.height + row) =
      ⟨block.level, block.left + column, block.top + row⟩ := by
  have positive : 0 < block.height := by omega
  simp [tileAt, Nat.mul_comm column, Nat.mul_add_div positive, Nat.div_eq_of_lt inside,
    Nat.mod_eq_of_lt inside]

/-- The positions below the size are those of all tiles, in their order. -/
theorem map_tileAt_range (block : Block) :
    (List.range block.size).map block.tileAt = block.tiles := by
  have columns (count : Nat) : (List.range (count * block.height)).map block.tileAt =
      (List.range' block.left count).flatMap block.column := by
    induction count with
    | zero => simp
    | succ count ih =>
        have next : ((List.range block.height).map (count * block.height + ·)).map block.tileAt =
            block.column (block.left + count) := by
          rw [column, List.range'_eq_map_range, List.map_map, List.map_map]
          refine List.map_congr_left fun row inside => ?_
          exact tileAt_add (List.mem_range.mp inside)
        rw [Nat.succ_mul, List.range_add, List.map_append, ih, next, List.range'_concat]
        simp
  exact columns block.width

end Block

namespace Tile

/-- The ancestor of a tile at a level above it. -/
def ancestor (tile : Tile) (level : Nat) : Tile :=
  let steps := tile.level - level
  ⟨level, tile.x / Nat.pow 2 steps, tile.y / Nat.pow 2 steps⟩

/-- The tiles of a level that lie within a tile above it. -/
def descendants (tile : Tile) (level : Nat) : Block :=
  let size := Nat.pow 2 (level - tile.level)
  ⟨level, tile.x * size, tile.y * size, tile.x * size + (size - 1), tile.y * size + (size - 1)⟩

/-- The tiles of a level that are related to a tile: its ancestor or itself, or its descendants. -/
def family (tile : Tile) (level : Nat) : Block :=
  if level ≤ tile.level then Block.single (tile.ancestor level) else tile.descendants level

/-- The tiles related to a tile at a level of the pyramid. -/
def family? (tile : Tile) (level : Nat) : Except Fault Block := do
  checkLevel level
  return tile.family level

end Tile

end TilePyramid
