import TilePyramid.Proofs.Stream.Regions

/-!
# The order of the corners of a region

A region is given by two opposite corners. Any two opposite corners of it give the same blocks and
the same stream of tiles, although their projections are other tiles. Main statement:
`opposite_corners_give_one_region`.
-/

set_option autoImplicit false

namespace TilePyramid

/-- The second region lies between the same meridians and parallels, of which some are named in the
other order. -/
inductive Bounds.Reordered (bounds : Bounds) : Bounds → Prop where
  | meridians : Reordered bounds { bounds with west := bounds.east, east := bounds.west }
  | parallels : Reordered bounds { bounds with south := bounds.north, north := bounds.south }
  | both : Reordered bounds ⟨bounds.east, bounds.north, bounds.west, bounds.south⟩

namespace Block

variable {first second : Tile}

theorem between_comm (same : second.level = first.level) :
    between second first = between first second := by
  simp only [between, same, Nat.min_comm, Nat.max_comm]

/-- The two other corners of a block, one in the column of the first, one in that of the second. -/
theorem between_mixed (first second : Tile) :
    between ⟨first.level, second.x, first.y⟩ ⟨second.level, first.x, second.y⟩ =
      between first second := by
  simp only [between, Nat.min_comm, Nat.max_comm]

end Block

variable {bounds other : Bounds}

namespace Mercator

-- The column of a projected corner comes from its meridian and the row from its parallel, so that
-- exchanging one of them projects to the other two corners of the block.
theorem cover_eq_of_reordered (reordered : bounds.Reordered other) (level : Nat) :
    cover other level = cover bounds level := by
  let first := tileAt bounds.west bounds.south level
  let second := tileAt bounds.east bounds.north level
  rw [cover_eq_between, cover_eq_between bounds]
  cases reordered with
  | meridians => exact Block.between_mixed first second
  | parallels =>
      have swapped := @Block.between_comm ⟨level, second.x, first.y⟩ ⟨level, first.x, second.y⟩ rfl
      exact swapped.trans (Block.between_mixed first second)
  | both => exact Block.between_comm rfl

theorem cover?_eq_ok (bounds : Bounds) {level : Nat} (shallow : level ≤ maxLevel) :
    cover? bounds level = .ok (cover bounds level) := by
  simp only [cover?, Tile.checkLevel_eq_ok_iff.mpr shallow]
  rfl

/-- The first level is one tile, which covers every region. -/
theorem cover_zero (bounds : Bounds) : cover bounds 0 = Block.single ⟨0, 0, 0⟩ := by
  have first (position : Float) : index 0 position = 0 := Nat.le_zero.mp (index_le 0 position)
  simp only [cover, column, row, first, Nat.min_self, Nat.max_self, Block.single]

end Mercator

/-- A generator asks for nothing of its region but the blocks of its levels. -/
theorem Generator.ofBounds_eq_of_reordered (reordered : bounds.Reordered other)
    (zooms : ZoomRange) : ofBounds other zooms = ofBounds bounds zooms := by
  simp only [ofBounds, Mercator.cover_eq_of_reordered reordered]

namespace Session

/-- Any two opposite corners of a region give the same block at every level, in machine words as in
unbounded numbers, and the same tiles in the same order from every stream that is read to its
end. -/
theorem opposite_corners_give_one_region (reordered : bounds.Reordered other) (zooms : ZoomRange) :
    (∀ level ≤ maxLevel, ∃ block,
      Mercator.cover? bounds level = .ok block ∧ Mercator.cover? other level = .ok block ∧
      Block.between? (Mercator.tileAt bounds.west bounds.south level)
        (Mercator.tileAt bounds.east bounds.north level) = some block ∧
      Block.between? (Mercator.tileAt other.west other.south level)
        (Mercator.tileAt other.east other.north level) = some block) ∧
    (∀ region : Bounds, ∃ events last, ReadOut (.ofBounds region zooms) events last) ∧
    ∀ events last otherEvents otherLast,
      ReadOut (.ofBounds bounds zooms) events last →
      ReadOut (.ofBounds other zooms) otherEvents otherLast →
      otherEvents.flatMap Event.receivedItems = events.flatMap Event.receivedItems ∧
        events.flatMap Event.receivedItems =
          (zooms.levels.flatMap fun level => (Mercator.cover bounds level).tiles).map .tile ∧
        last.heldError = none ∧ otherLast.heldError = none := by
  refine ⟨?_, ?_, ?_⟩
  · intro level shallow
    have words := Mercator.between?_eq_cover other shallow
    have checked := Mercator.cover?_eq_ok other shallow
    rw [Mercator.cover_eq_of_reordered reordered] at words checked
    exact ⟨Mercator.cover bounds level, Mercator.cover?_eq_ok bounds shallow, checked,
      Mercator.between?_eq_cover bounds shallow, words⟩
  · intro region
    obtain ⟨events, last, out, -⟩ := exists_readOut (Generator.gives_ofBounds region zooms).waits
    exact ⟨events, last, out⟩
  · intro events last otherEvents otherLast out otherOut
    rw [Generator.ofBounds_eq_of_reordered reordered] at otherOut
    have gives := Generator.gives_ofBounds bounds zooms
    refine ⟨otherOut.received_eq.trans out.received_eq.symm, ?_, ?_, ?_⟩
    · rw [out.received_eq, gives.offers_eq, List.map_flatMap]
    · exact out.heldError_eq.trans gives.failure?_eq
    · exact otherOut.heldError_eq.trans gives.failure?_eq

theorem world_from_its_north_east_is_one_tile :
    Bounds.world.Reordered ⟨180.0, 85.0511, -180.0, -85.0511⟩ ∧
    ∃ events last, ReadOut (.ofBounds ⟨180.0, 85.0511, -180.0, -85.0511⟩
        (.between 0 0 (Nat.le_refl 0) (Nat.zero_le _))) events last ∧
      events.flatMap Event.receivedItems = [.tile ⟨0, 0, 0⟩] := by
  have reordered : Bounds.world.Reordered ⟨180.0, 85.0511, -180.0, -85.0511⟩ := .both
  obtain ⟨-, readable, alike⟩ := opposite_corners_give_one_region reordered
    (.between 0 0 (Nat.le_refl 0) (Nat.zero_le _))
  obtain ⟨events, last, out⟩ := readable Bounds.world
  obtain ⟨otherEvents, otherLast, otherOut⟩ := readable ⟨180.0, 85.0511, -180.0, -85.0511⟩
  obtain ⟨same, received, -⟩ := alike _ _ _ _ out otherOut
  refine ⟨reordered, otherEvents, otherLast, otherOut, ?_⟩
  rw [same, received]
  simp [ZoomRange.levels, Mercator.cover_zero]

end Session

end TilePyramid
