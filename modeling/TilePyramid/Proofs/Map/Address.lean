import TilePyramid.Map.Address
import TilePyramid.Proofs.Text.Grammar
import TilePyramid.Proofs.Text.Marks

/-!
# What an address is made of

The name of the map is put into the template first, and what then stands there is filled in together:
level, column, row and layers are never read again. So only a name can be taken for a part of the
template, which is so exactly if it makes marks there. Main statements: `filled_fillIn` and
`address_is_filled_in_around_the_name`.
-/

set_option autoImplicit false

namespace TilePyramid

namespace Map

variable {map : Map} {tile : Tile}

/-- The joined names of the layers that a map has. -/
def joinedLayers (map : Map) : List Char := (String.intercalate "," map.layerNames).toList

/-- The values of the marks that are replaced after the one for the map. -/
def laterValues (map : Map) (tile : Tile) : List (List Char × List Char) :=
  [(mark "z", Nat.toDigits 10 tile.level), (mark "x", Nat.toDigits 10 tile.x),
    (mark "y", Nat.toDigits 10 tile.y), (mark "layers", map.joinedLayers)]

/-- The marks that are replaced after the one for the map. -/
def laterMarks : List (List Char) := [mark "z", mark "x", mark "y", mark "layers"]

theorem areMarks_markValues (map : Map) (tile : Tile) : Text.AreMarks (map.markValues tile) where
  marked := by
    have isMark (word : String) (plain : '\x7b' ∉ word.toList ∧ '\x7d' ∉ word.toList) :
        Text.IsMark (mark word) := ⟨word.toList, rfl, plain⟩
    simp only [markValues, List.forall_mem_cons]
    refine ⟨isMark _ ?_, isMark _ ?_, isMark _ ?_, isMark _ ?_, isMark _ ?_, nofun⟩ <;> decide
  distinct := by
    show (mark "map" :: laterMarks).Nodup
    decide

theorem areMarks_laterValues (map : Map) (tile : Tile) : Text.AreMarks (map.laterValues tile) :=
  (map.areMarks_markValues tile).tail

/-! ## Numbers make no marks -/

/-- The digits of a number cannot become a part of a mark without digits. -/
theorem isInert_toDigits {number : Nat} {mark : List Char}
    (lettered : ∀ c ∈ mark, c.isDigit = false) : Text.IsInert (Nat.toDigits 10 number) mark where
  unopened inside := absurd (Text.isDigit_of_mem_toDigits inside) (by decide)
  unclosed inside := absurd (Text.isDigit_of_mem_toDigits inside) (by decide)
  foreign := by
    obtain ⟨c, inside⟩ := List.exists_mem_of_ne_nil _ (Nat.toDigits_ne_nil (n := number) (b := 10))
    refine ⟨c, inside, fun listed => ?_⟩
    exact Bool.noConfusion ((Text.isDigit_of_mem_toDigits inside).symm.trans (lettered c listed))

/-- Each value but the last, which is no longer followed by others, is a number. -/
theorem inert_laterValues (map : Map) (tile : Tile) :
    (map.laterValues tile).Pairwise fun earlier later => Text.IsInert earlier.2 later.1 := by
  have lettered : ∀ mark ∈ laterMarks, ∀ c ∈ mark, c.isDigit = false := by simp [laterMarks, mark]
  have inert (number : Nat) (entry : List Char × List Char) (listed : entry ∈ map.laterValues tile) :
      Text.IsInert (Nat.toDigits 10 number) entry.1 :=
    isInert_toDigits (lettered _ (List.mem_map_of_mem listed))
  refine .cons (fun entry later => inert _ _ (.tail _ later)) ?_
  refine .cons (fun entry later => inert _ _ (.tail _ (.tail _ later))) ?_
  refine .cons (fun entry later => inert _ _ (.tail _ (.tail _ (.tail _ later)))) ?_
  exact List.pairwise_singleton _ _

/-! ## The address -/

/-- The template with the name of the map put in. -/
def withName (map : Map) (template : String) : List Char :=
  Text.replaceAll (mark "map") map.name.toList template.toList

theorem filled_withName (map : Map) (tile : Tile) (template : String) :
    Text.Filled [(mark "map", map.name.toList)] template.toList (map.withName template) :=
  Text.filled_replaceAll ((map.areMarks_markValues tile).marked _ List.mem_cons_self) _ _

theorem fillIn_markValues (map : Map) (tile : Tile) (template : String) :
    fillIn template.toList (map.markValues tile) =
      fillIn (map.withName template) (map.laterValues tile) := rfl

/-- What stands in the template with the name put in is filled in together. -/
theorem filled_fillIn (map : Map) (tile : Tile) (template : String) :
    Text.Filled (map.laterValues tile) (map.withName template)
      (fillIn template.toList (map.markValues tile)) := by
  rw [fillIn_markValues]
  exact Text.filled_foldl (map.areMarks_laterValues tile) (map.inert_laterValues tile) _

theorem addressOf_eq_ok {template : String} (given : map.source = some template) :
    map.addressOf tile = .ok (String.ofList (fillIn template.toList (map.markValues tile))) := by
  rw [addressOf, given]

theorem notMem_joinedLayers {c : Char} (other : c ≠ ',')
    (free : ∀ name ∈ map.layerNames, c ∉ name.toList) : c ∉ map.joinedLayers := by
  unfold joinedLayers
  generalize map.layerNames = names at free
  induction names with
  | nil => exact List.not_mem_nil
  | cons name names ih =>
      rw [List.forall_mem_cons] at free
      cases names with
      | nil => simpa using free.1
      | cons next names =>
          rw [String.intercalate_cons_cons]
          simpa [other, free.1] using ih free.2

theorem unopened_laterValues (map : Map) (tile : Tile)
    (plain : ∀ name ∈ map.layerNames, '\x7b' ∉ name.toList) :
    ∀ entry ∈ map.laterValues tile, '\x7b' ∉ entry.2 := by
  have digits (number : Nat) : '\x7b' ∉ Nat.toDigits 10 number := fun inside =>
    absurd (Text.isDigit_of_mem_toDigits inside) (by decide)
  simp only [laterValues, List.forall_mem_cons]
  exact ⟨digits _, digits _, digits _, notMem_joinedLayers (by decide) plain, nofun⟩

/-- The address of a tile is the template with the name of the map put in, and then with the level,
column, row and layers put in together for the marks that stand there. It is what filling in all five
together gives if the name makes no marks, so if it cannot become a part of one, and only then where
no layer has an opening brace in its name. -/
theorem address_is_filled_in_around_the_name (map : Map) (tile : Tile) :
    (map.source = none → map.addressOf tile = .error map.noSource) ∧
    ∀ template, map.source = some template → ∃ named together address,
      Text.Filled [(mark "map", map.name.toList)] template.toList named ∧
      Text.Filled (map.laterValues tile) named address ∧
      map.addressOf tile = .ok (String.ofList address) ∧
      (∀ filled, Text.Filled (map.markValues tile) template.toList filled ↔ filled = together) ∧
      ((∀ mark ∈ laterMarks, Text.IsInert map.name.toList mark) → address = together) ∧
      (Text.occurrences laterMarks named = Text.occurrences laterMarks template.toList →
        address = together) ∧
      ((∀ name ∈ map.layerNames, '\x7b' ∉ name.toList) → address = together →
        Text.occurrences laterMarks named = Text.occurrences laterMarks template.toList) := by
  have marks := map.areMarks_markValues tile
  have later := map.areMarks_laterValues tile
  refine ⟨fun missing => addressOf_eq_error_iff.mpr ⟨missing, rfl⟩, fun template given => ?_⟩
  obtain ⟨together, all⟩ := Text.exists_filled marks template.toList
  have around := map.filled_fillIn tile template
  refine ⟨map.withName template, together, _, map.filled_withName tile template, around,
    addressOf_eq_ok given, fun filled => ⟨fun also => also.unique marks all, fun same => same ▸ all⟩,
    fun inert => ?_, fun same => ?_, fun plain same => ?_⟩
  · exact around.unique later (all.ofInert marks fun entry listed =>
      inert _ (List.mem_map_of_mem listed))
  · exact around.unique later (all.ofReplaced marks same)
  · have plainValues := map.unopened_laterValues tile plain
    exact (all.ofReplaced_iff marks plainValues).mp (same ▸ around)

/-- A template with all the marks. -/
def sampleTemplate : String :=
  "https://tiles.example.org/\x7bmap\x7d/\x7bz\x7d/\x7bx\x7d/\x7by\x7d.pbf?layers=\x7blayers\x7d"

def sampleMap : Map where
  name := "osm"
  source := some sampleTemplate
  layers := [{ name := "land" }, { name := "roads" }]

/-- The name has a letter that no other mark has. -/
theorem sample_address_is_filled_in_at_once :
    sampleMap.addressOf ⟨14, 300, 781⟩ =
        .ok "https://tiles.example.org/osm/14/300/781.pbf?layers=land,roads" ∧
      Text.Filled (sampleMap.markValues ⟨14, 300, 781⟩) sampleTemplate.toList
        "https://tiles.example.org/osm/14/300/781.pbf?layers=land,roads".toList := by
  obtain ⟨-, filledIn⟩ := address_is_filled_in_around_the_name sampleMap ⟨14, 300, 781⟩
  obtain ⟨_, together, address, -, -, told, all, inert, -⟩ := filledIn sampleTemplate rfl
  have same : address = together := inert fun mark listed =>
    ⟨by decide, by decide, 'm', by decide, by revert mark; decide⟩
  have written : sampleMap.addressOf ⟨14, 300, 781⟩ =
      .ok "https://tiles.example.org/osm/14/300/781.pbf?layers=land,roads" := by decide
  refine ⟨written, (all _).mpr ?_⟩
  rw [← same, ← Except.ok.inj (told.symm.trans written), String.toList_ofList]

/-- The name of a map is put in, and then taken for a mark of the template. -/
theorem name_in_braces_is_filled_in_again :
    ¬ ∀ (map : Map) (tile : Tile) (template : String), map.source = some template →
      ∃ filled, Text.Filled (map.markValues tile) template.toList filled ∧
        map.addressOf tile = .ok (String.ofList filled) := by
  intro once
  let braced : Map := { name := "\x7bz\x7d", source := some "\x7bmap\x7d" }
  obtain ⟨filled, atOnce, told⟩ := once braced ⟨5, 1, 2⟩ "\x7bmap\x7d" rfl
  have known : (mark "map", braced.name.toList) ∈ braced.markValues ⟨5, 1, 2⟩ := List.mem_cons_self
  have named : Text.Filled (braced.markValues ⟨5, 1, 2⟩) (mark "map" ++ [])
      (braced.name.toList ++ []) := .mark known .nothing
  rw [atOnce.unique (braced.areMarks_markValues _) named] at told
  exact absurd told (by decide)

/-- So is a mark that a name without braces makes with braces of the template. -/
example : addressOf { name := "z", source := some "\x7b\x7bmap\x7d\x7d" } ⟨5, 1, 2⟩ = .ok "5" := by
  decide

end Map

end TilePyramid
