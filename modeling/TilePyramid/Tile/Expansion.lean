import TilePyramid.Tile

/-!
# Zoom ranges and expansion

The levels that a run works on, and the tiles that a named tile stands for at these levels.
-/

set_option autoImplicit false

/-!
## Zoom ranges

The levels that a run works on: none, or all from one level to another.
-/

namespace TilePyramid

/-- No levels, or all from `low` to `high`. -/
inductive ZoomRange where
  | empty
  | between (low high : Nat) (ordered : low ≤ high) (shallow : high ≤ maxZoom)
deriving DecidableEq

namespace ZoomRange

/-- The range between two levels that are in order and not too deep. -/
def ofBounds? (low high : Nat) : Option ZoomRange :=
  if bounds : low ≤ high ∧ high ≤ maxZoom then some (.between low high bounds.1 bounds.2) else none

def levels : ZoomRange → List Nat
  | .empty => []
  | .between low high _ _ => List.range' low (high + 1 - low)

/-- The range has no levels. -/
def isEmpty : ZoomRange → Bool
  | .empty => true
  | .between .. => false

def text (range : ZoomRange) : String :=
  "[" ++ String.intercalate ", " (range.levels.map toString) ++ "]"

theorem mem_levels_between {low high level : Nat} {ordered : low ≤ high}
    {shallow : high ≤ maxZoom} :
    level ∈ (ZoomRange.between low high ordered shallow).levels ↔ low ≤ level ∧ level ≤ high := by
  simp only [levels, List.mem_range'_1]
  omega

theorem pairwise_lt_levels (range : ZoomRange) : range.levels.Pairwise (· < ·) := by
  cases range with
  | empty => exact List.Pairwise.nil
  | between low high => exact List.pairwise_lt_range'

theorem isEmpty_iff {range : ZoomRange} : range.isEmpty = true ↔ range.levels = [] := by
  cases range with
  | empty => simp [isEmpty, levels]
  | between low high ordered =>
      simp only [isEmpty, levels, Bool.false_eq_true, false_iff, List.range'_eq_nil_iff]
      omega

end ZoomRange

/-!
## Expansion of named tiles

A named tile stands for itself, or for its relatives at every level of a zoom range: its ancestors
at lower levels and all of its descendants at higher ones.
-/

/-- How a named tile becomes the tiles to work on. -/
structure Expansion where
  explicit : Bool := false
  zooms : ZoomRange := .empty
deriving DecidableEq

namespace Expansion

/-- The named tile stands for itself. -/
def isExplicit (expansion : Expansion) : Bool := expansion.explicit || expansion.zooms.isEmpty

/-- The blocks of tiles that a named tile stands for, in the order of their levels. -/
def blocks (expansion : Expansion) (tile : Tile) : List Block :=
  if expansion.isExplicit then [Block.single tile] else expansion.zooms.levels.map tile.family

def tiles (expansion : Expansion) (tile : Tile) : List Tile :=
  (expansion.blocks tile).flatMap Block.tiles

theorem tiles_of_isExplicit {expansion : Expansion} (explicit : expansion.isExplicit = true)
    (tile : Tile) : expansion.tiles tile = [tile] := by
  simp [tiles, blocks, explicit]

end Expansion

end TilePyramid
