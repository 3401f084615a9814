import TilePyramid.World

/-!
# Worlds whose source obeys a law

A source may answer differently each time it is asked, answer late or never, and cancel the run. What
a world admits is everything that it can do with such a source, as long as the answers that come obey
a law, and with any clock.
-/

set_option autoImplicit false

namespace TilePyramid

open Text.Utf8 (Bytes)

/-- What an answer brings, if it comes. -/
def SourceAnswer.result? : SourceAnswer → Option (Except Report Bytes)
  | .now result | .later result => some result
  | .never => none

/-- What a source may bring for the tiles of maps. -/
abbrev SourceLaw := Map → Tile → Except Report Bytes → Prop

/-- What comes depends only on the map and the tile. -/
def SourceLaw.fixed (source : Map → Tile → Except Report Bytes) : SourceLaw :=
  fun map tile result => result = source map tile

/-- Content that comes depends only on the map and the tile, but any request may fail. -/
def SourceLaw.steady (data : Map → Tile → Bytes) : SourceLaw :=
  fun map tile result => ∀ content, result = .ok content → content = data map tile

/-- Whatever a source brings obeys the law. -/
def SourceLaw.Obeyed (law : SourceLaw) (source : Map → Tile → SourceReply) : Prop :=
  ∀ map tile result, (source map tile).answer.result? = some result → law map tile result

/-- Rules by which a source fails, cancels or hangs do not make it bring other content. -/
theorem steady_ruledSource {rules : List SourceRule}
    (honest : ∀ rule ∈ rules, ∀ content, rule.action ≠ .answer content) :
    (SourceLaw.steady usualContent).Obeyed (ruledSource rules) := by
  intro map tile result brought content ok
  subst ok
  simp only [ruledSource] at brought
  split at brought
  · cases brought
    rfl
  · next rule found =>
    have member := List.mem_of_find?_eq_some found
    cases action : rule.action with
    | fail report => simp [action, SourceAnswer.result?] at brought
    | answer other => exact absurd action (honest rule member other)
    | cancel =>
        simp only [action, SourceAnswer.result?, Option.some.injEq, Except.ok.injEq] at brought
        exact brought.symm
    | cancelAndHang => simp [action, SourceAnswer.result?] at brought

/-- Without rules a source always brings the usual content. -/
theorem fixed_ruledSource :
    (SourceLaw.fixed fun map tile => .ok (usualContent map tile)).Obeyed (ruledSource []) :=
  fun _ _ _ brought => (Option.some.inj brought).symm

namespace World

/-- How a world may reply to an effect, and the world after it. -/
inductive Admits (law : SourceLaw) :
    (effect : Effect) → World → effect.Reply → World → Prop where
  | performed {world : World} {source : Map → Tile → SourceReply} {effect : Effect}
      (obeyed : law.Obeyed source) :
      Admits law effect world (world.perform source effect).1 (world.perform source effect).2
  | ticked {world : World} {time : Nat} : Admits law .clock world time world

namespace Admits

variable {law : SourceLaw} {world after : World}

theorem of_perform {source : Map → Tile → SourceReply} {effect : Effect} {reply : effect.Reply}
    (obeyed : law.Obeyed source) (same : world.perform source effect = (reply, after)) :
    Admits law effect world reply after := by
  have admits : Admits law effect world (world.perform source effect).1
      (world.perform source effect).2 := performed obeyed
  rwa [same] at admits

theorem lookup {slot : String} {content : Option Bytes}
    (admits : Admits law (.lookup slot) world content after) :
    content = world.store.find? slot ∧ after = world := by
  cases admits
  exact ⟨rfl, rfl⟩

theorem store {slot : String} {content : Bytes} {reply : Unit}
    (admits : Admits law (.store slot content) world reply after) :
    after = { world with store := world.store.put slot content } := by
  cases admits
  rfl

theorem discard {slot : String} {reply : Unit} (admits : Admits law (.discard slot) world reply after) :
    after = { world with store := world.store.erase slot } := by
  cases admits
  rfl

theorem fetch {map : Map} {tile : Tile} {reply : SourceReply}
    (admits : Admits law (.fetch map tile) world reply after) :
    (∀ result, reply.answer.result? = some result → law map tile result) ∧
      after = { world with fetches := ⟨map.name, tile⟩ :: world.fetches } := by
  cases admits with
  | performed obeyed => exact ⟨obeyed map tile, rfl⟩

theorem log {entry : LogEntry} {reply : Unit} (admits : Admits law (.log entry) world reply after) :
    after = { world with log := entry :: world.log } := by
  cases admits
  rfl

theorem eq_of_clock {time : Nat} (admits : Admits law .clock world time after) : after = world := by
  cases admits <;> rfl

end Admits

end World

end TilePyramid
