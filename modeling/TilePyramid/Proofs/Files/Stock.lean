import Mathlib.Logic.Function.Basic
import TilePyramid.Proofs.Files.Descent

/-!
# Files kept below a directory

Below a directory, content is kept at listed places, none of which is on the way to another. Nothing
else is there but directories on the way to listed places. Main statements: `Stocks.grows` and
`Stocks.update`.
-/

set_option autoImplicit false

namespace TilePyramid.Files

open Text.Utf8 (Bytes)

/-- No listed place is on the way to another. -/
def Spread (places : Location → Prop) : Prop :=
  ∀ place other, places place → places other → place <+: other → place = other

/-- No other listed place is on the way to a place, or beyond it. -/
structure Clear (places : Location → Prop) (place : Location) : Prop where
  above : ∀ other, places other → other <+: place → other = place
  below : ∀ other, places other → place <+: other → other = place

theorem Spread.clear {places : Location → Prop} {place : Location} (spread : Spread places)
    (listed : places place) : Clear places place where
  above other listedOther := spread other place listedOther listed
  below other listedOther beyond := (spread place other listed listedOther beyond).symm

namespace Tree

/-- What lies below a directory: content at listed places, and directories on the way to them. -/
structure Stocks (tree : Tree) (floor : Location) (places : Location → Prop)
    (content : Location → Option Bytes) : Prop where
  files : ∀ place bytes,
    tree.node? (floor ++ place) = some (.file bytes) ↔ content place = some bytes
  listed : ∀ place, content place ≠ none → places place
  directories : ∀ place, place ≠ [] → tree.node? (floor ++ place) = some .directory →
    ∃ other, places other ∧ place <+: other ∧ place ≠ other
  closed : ∀ place, content place ≠ none → ∀ front, front <+: place → front ≠ place →
    tree.node? (floor ++ front) = some .directory

namespace Stocks

variable {tree next : Tree} {floor place front : Location} {places : Location → Prop}
  {content : Location → Option Bytes} {name : String}

theorem of_empty (nothing : ∀ place, place ≠ [] → tree.node? (floor ++ place) = none)
    (directory : tree.node? floor = some .directory) : tree.Stocks floor places fun _ => none where
  files place bytes := by
    by_cases ends : place = []
    · simp [ends, directory]
    · simp [nothing place ends]
  listed _ cached := absurd rfl cached
  directories place inside found := by
    rw [nothing place inside] at found
    cases found
  closed _ cached := absurd rfl cached

/-- A clear place holds its content, or nothing. -/
theorem node?_of_clear (stocks : tree.Stocks floor places content) (clear : Clear places place)
    (inside : place ≠ []) : tree.node? (floor ++ place) = (content place).map .file := by
  cases found : tree.node? (floor ++ place) with
  | none =>
      cases held : content place with
      | none => rfl
      | some bytes =>
          rw [(stocks.files place bytes).mpr held] at found
          cases found
  | some node =>
      cases node with
      | file bytes =>
          rw [(stocks.files place bytes).mp found]
          rfl
      | directory =>
          obtain ⟨other, listed, beyond, different⟩ := stocks.directories place inside found
          exact absurd (clear.below other listed beyond).symm different

theorem content_eq_none_of_front (stocks : tree.Stocks floor places content)
    (clear : Clear places (front ++ [name])) {place : Location} (passed : place <+: front) :
    content place = none := by
  by_contra cached
  have reached := clear.above place (stocks.listed place cached) (passed.trans (List.prefix_append _ _))
  have length := passed.length_le
  simp only [reached, List.length_append, List.length_singleton] at length
  omega

theorem passable (stocks : tree.Stocks floor places content)
    (clear : Clear places (front ++ [name])) : tree.Passable floor front := by
  rintro _ ⟨place, passed, rfl⟩ bytes found
  have held := (stocks.files place bytes).mp found
  rw [stocks.content_eq_none_of_front clear passed] at held
  cases held

theorem grows (stocks : tree.Stocks floor places content) (spread : Spread places)
    (listed : places (front ++ [name])) (grown : tree.Grows floor front next) :
    next.Stocks floor places content := by
  have elsewhere {place : Location} (aside : ¬ place <+: front) :
      next.node? (floor ++ place) = tree.node? (floor ++ place) := by
    refine grown.elsewhere _ ?_
    rintro ⟨other, passed, same⟩
    exact aside (List.append_cancel_left same ▸ passed)
  refine ⟨fun place bytes => ?_, stocks.listed, fun place inside found => ?_, ?_⟩
  · by_cases passed : place <+: front
    · rw [grown.made _ ⟨place, passed, rfl⟩,
        stocks.content_eq_none_of_front (spread.clear listed) passed]
      simp
    · rw [elsewhere passed]
      exact stocks.files place bytes
  · by_cases passed : place <+: front
    · refine ⟨front ++ [name], listed, passed.trans (List.prefix_append _ _), ?_⟩
      rintro rfl
      have length := passed.length_le
      simp only [List.length_append, List.length_singleton] at length
      omega
    · rw [elsewhere passed] at found
      exact stocks.directories place inside found
  · intro place cached above passed other
    exact grown.directoriesIn.kept _ (stocks.closed place cached above passed other)

/-- The content of one place may be changed, if there are directories on the way to it. -/
theorem update {held : Option Bytes} (stocks : tree.Stocks floor places content)
    (spread : Spread places) (listed : places place) (inside : place ≠ [])
    (way : held ≠ none → ∀ front, front <+: place → front ≠ place →
      tree.node? (floor ++ front) = some .directory)
    (entry : next.node? (floor ++ place) = held.map .file)
    (elsewhere : ∀ other, other ≠ place →
      next.node? (floor ++ other) = tree.node? (floor ++ other)) :
    next.Stocks floor places (Function.update content place held) := by
  have unlike {other : Location} (different : other ≠ place) :
      Function.update content place held other = content other :=
    Function.update_of_ne different _ _
  refine ⟨fun other bytes => ?_, fun other cached => ?_, fun other some found => ?_, ?_⟩
  · by_cases same : other = place
    · subst same
      rw [entry, Function.update_self]
      cases held <;> simp
    · rw [elsewhere other same, unlike same]
      exact stocks.files other bytes
  · by_cases same : other = place
    · rwa [same]
    · rw [unlike same] at cached
      exact stocks.listed other cached
  · by_cases same : other = place
    · rw [same, entry] at found
      cases held <;> cases found
    · rw [elsewhere other same] at found
      exact stocks.directories other some found
  · intro other cached front passed different
    -- The place itself is on the way to no other one.
    have aside : front ≠ place := by
      rintro rfl
      by_cases same : other = front
      · exact different same.symm
      · rw [unlike same] at cached
        exact different (spread front other listed (stocks.listed other cached) passed)
    rw [elsewhere front aside]
    by_cases same : other = place
    · subst same
      rw [Function.update_self] at cached
      exact way cached front passed different
    · rw [unlike same] at cached
      exact stocks.closed other cached front passed different

end Stocks

end Tree

end TilePyramid.Files
