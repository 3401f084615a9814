import Mathlib
import TilePyramid.Tile

/-!
# Blocks in machine words

Rows and columns are held in 32 bits and counts in 64. Here the corners of a block, its size and its
tiles are computed in such words, and nothing comes out as soon as one step leaves its word. Between
corners on the grid of any level of the pyramid this never happens, and the result is the block that
is computed with unbounded numbers. Main statements: `Block.between?_eq`, `Block.count?_eq` and
`Block.listed?_eq`.
-/

set_option autoImplicit false

namespace TilePyramid

namespace Word

/-- The number, if it fits into a word of so many bits. -/
def fit? (bits number : Nat) : Option Nat := if number < 2 ^ bits then some number else none

def add? (bits left right : Nat) : Option Nat := fit? bits (left + right)

def mul? (bits left right : Nat) : Option Nat := fit? bits (left * right)

def sub? (left right : Nat) : Option Nat := if right ≤ left then some (left - right) else none

/-- A one that is shifted to the left within its word. -/
def shiftOne? (bits steps : Nat) : Option Nat := if steps < bits then some (2 ^ steps) else none

variable {bits left right number steps : Nat}

theorem fit?_eq (fits : number < 2 ^ bits) : fit? bits number = some number := if_pos fits

theorem add?_eq (fits : left + right < 2 ^ bits) : add? bits left right = some (left + right) :=
  fit?_eq fits

theorem mul?_eq (fits : left * right < 2 ^ bits) : mul? bits left right = some (left * right) :=
  fit?_eq fits

theorem sub?_eq (ordered : right ≤ left) : sub? left right = some (left - right) := if_pos ordered

theorem shiftOne?_eq (within : steps < bits) : shiftOne? bits steps = some (2 ^ steps) := if_pos within

/-- The index and those that follow it, each found by adding one to the last. -/
def ascend? : (steps index : Nat) → Option (List Nat)
  | 0, index => some [index]
  | steps + 1, index => do
      let next ← add? 32 index 1
      let others ← ascend? steps next
      return index :: others

/-- The indices from one to another, both included. -/
def upTo? (low high : Nat) : Option (List Nat) :=
  if low ≤ high then ascend? (high - low) low else some []

theorem ascend?_eq {steps index : Nat} (fits : index + steps < 2 ^ 32) :
    ascend? steps index = some (List.range' index (steps + 1)) := by
  induction steps generalizing index with
  | zero => rfl
  | succ steps ih =>
      have next : add? 32 index 1 = some (index + 1) := add?_eq (by omega)
      have others : ascend? steps (index + 1) = some (List.range' (index + 1) (steps + 1)) :=
        ih (by omega)
      simp only [ascend?, next, others, Option.bind_eq_bind, Option.bind_some]
      rfl

theorem upTo?_eq {low high : Nat} (ordered : low ≤ high) (fits : high < 2 ^ 32) :
    upTo? low high = some (List.range' low (high + 1 - low)) := by
  have steps : high + 1 - low = high - low + 1 := by omega
  rw [upTo?, if_pos ordered, ascend?_eq (by omega), steps]

end Word

/-- The largest index of a level, computed in 64 bits and then kept in 32. -/
def lastIndexWord? (level : Nat) : Option Nat := do
  let count ← Word.shiftOne? 64 level
  let last ← Word.sub? count 1
  Word.fit? 32 last

theorem lastIndex_lt {level : Nat} (shallow : level ≤ maxLevel) : lastIndex level < 2 ^ 31 := by
  have grows : 2 ^ level ≤ 2 ^ maxLevel := Nat.pow_le_pow_right (by decide) shallow
  have positive : 0 < 2 ^ level := Nat.two_pow_pos level
  have deepest : 2 ^ maxLevel = 2 ^ 31 := rfl
  show 2 ^ level - 1 < 2 ^ 31
  omega

theorem lastIndexWord?_eq {level : Nat} (shallow : level ≤ maxLevel) :
    lastIndexWord? level = some (lastIndex level) := by
  have small : lastIndex level < 2 ^ 31 := lastIndex_lt shallow
  have within : level < 64 := Nat.lt_of_le_of_lt shallow (by decide)
  have fits : lastIndex level < 2 ^ 32 := by omega
  have counted : Word.sub? (2 ^ level) 1 = some (lastIndex level) :=
    Word.sub?_eq (Nat.two_pow_pos level)
  simp only [lastIndexWord?, Word.shiftOne?_eq within, counted, Word.fit?_eq fits,
    Option.bind_eq_bind, Option.bind_some]

namespace Block

/-- The block between two corners of one level, whatever their order. -/
def between (first second : Tile) : Block where
  level := first.level
  left := min first.x second.x
  top := min first.y second.y
  right := max first.x second.x
  bottom := max first.y second.y

/-- The same block in machine words, where its far ends are held to the grid. -/
def between? (first second : Tile) : Option Block := do
  let last ← lastIndexWord? first.level
  return {
    level := first.level
    left := min first.x second.x
    top := min first.y second.y
    right := min (max first.x second.x) last
    bottom := min (max first.y second.y) last }

/-- The size of a block: its width and height in 32 bits each, and their product in 64. -/
def count? (block : Block) : Option Nat := do
  let columns ← Word.sub? block.right block.left
  let width ← Word.add? 32 columns 1
  let rows ← Word.sub? block.bottom block.top
  let height ← Word.add? 32 rows 1
  Word.mul? 64 width height

/-- The tiles of a block, column by column, with indices of 32 bits. -/
def listed? (block : Block) : Option (List Tile) := do
  let columns ← Word.upTo? block.left block.right
  let rows ← Word.upTo? block.top block.bottom
  return columns.flatMap fun x => rows.map fun y => ⟨block.level, x, y⟩

/-- A block that is not empty and lies on the grid of a level of the pyramid. -/
structure OnGrid (block : Block) : Prop where
  shallow : block.level ≤ maxLevel
  columns : block.left ≤ block.right
  rows : block.top ≤ block.bottom
  right_le : block.right ≤ lastIndex block.level
  bottom_le : block.bottom ≤ lastIndex block.level

theorem onGrid_between {first second : Tile} (same : second.level = first.level)
    (firstOn : first.OnGrid) (secondOn : second.OnGrid) : (between first second).OnGrid := by
  obtain ⟨shallow, firstX, firstY⟩ := firstOn
  obtain ⟨-, secondX, secondY⟩ := secondOn
  rw [same] at secondX secondY
  exact ⟨shallow, min_le_max, min_le_max, max_le firstX secondX, max_le firstY secondY⟩

theorem between?_eq {first second : Tile} (same : second.level = first.level)
    (firstOn : first.OnGrid) (secondOn : second.OnGrid) :
    between? first second = some (between first second) := by
  have onGrid := onGrid_between same firstOn secondOn
  have last : lastIndexWord? first.level = some (lastIndex first.level) :=
    lastIndexWord?_eq onGrid.shallow
  have right : max first.x second.x ≤ lastIndex first.level := onGrid.right_le
  have bottom : max first.y second.y ≤ lastIndex first.level := onGrid.bottom_le
  simp only [between?, last, Option.bind_eq_bind, Option.bind_some, min_eq_left right,
    min_eq_left bottom]
  rfl

theorem count?_eq {block : Block} (onGrid : block.OnGrid) : block.count? = some block.size := by
  obtain ⟨shallow, columns, rows, right, bottom⟩ := onGrid
  have small : lastIndex block.level < 2 ^ 31 := lastIndex_lt shallow
  have width : block.right - block.left + 1 = block.width := (Nat.sub_add_comm columns).symm
  have height : block.bottom - block.top + 1 = block.height := (Nat.sub_add_comm rows).symm
  have narrow : block.width ≤ 2 ^ 31 := by omega
  have low : block.height ≤ 2 ^ 31 := by omega
  have few : block.width * block.height ≤ 2 ^ 31 * 2 ^ 31 := Nat.mul_le_mul narrow low
  have widthWord : Word.add? 32 (block.right - block.left) 1 = some block.width := by
    rw [Word.add?_eq (by omega), width]
  have heightWord : Word.add? 32 (block.bottom - block.top) 1 = some block.height := by
    rw [Word.add?_eq (by omega), height]
  have sizeWord : Word.mul? 64 block.width block.height = some block.size :=
    Word.mul?_eq (by omega)
  simp only [count?, Word.sub?_eq columns, Word.sub?_eq rows, widthWord, heightWord, sizeWord,
    Option.bind_eq_bind, Option.bind_some]

theorem listed?_eq {block : Block} (onGrid : block.OnGrid) : block.listed? = some block.tiles := by
  obtain ⟨shallow, columns, rows, right, bottom⟩ := onGrid
  have small : lastIndex block.level < 2 ^ 31 := lastIndex_lt shallow
  have columnWords := Word.upTo?_eq columns (by omega)
  have rowWords := Word.upTo?_eq rows (by omega)
  simp only [listed?, columnWords, rowWords, Option.bind_eq_bind, Option.bind_some]
  rfl

end Block

end TilePyramid
