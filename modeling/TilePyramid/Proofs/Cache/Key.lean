import TilePyramid.Cache
import TilePyramid.Proofs.Files.Path

/-!
# Texts of keys

The text of the key of a job tells the job: its last three names are the numerals of the tile, and
what stands before them is the name of the map, whatever it contains. The text of the key of a layer
is that of a whole map as well, whose name is made of both names. Main statements:
`Job.slot_injective` and `Key.text_eq_iff`.
-/

set_option autoImplicit false

namespace TilePyramid

/-- The text under which a cache in memory keeps the tile of a job. -/
def Job.slot (job : Job) : String := (Cache.Key.ofJob job).text

open Files.Path (names names_append)

theorem Files.Path.names_injective {path other : Files.Path} (same : names path = names other) :
    path = other := by
  have fields : Text.fields '/' path.toList = Text.fields '/' other.toList :=
    (List.map_inj_right fun _ _ => String.ofList_inj.mp).mp same
  rw [← String.toList_inj, ← Text.joined_fields '/' path.toList, fields, Text.joined_fields]

/-- The numerals of a tile tell the tile. -/
theorem Tile.numerals_injective {tile other : Tile}
    (same : [toString tile.level, toString tile.x, toString tile.y] =
      [toString other.level, toString other.x, toString other.y]) : tile = other := by
  obtain ⟨level, x, y⟩ := tile
  obtain ⟨otherLevel, otherX, otherY⟩ := other
  simp only [List.cons.injEq, and_true] at same
  obtain ⟨levels, columns, rows⟩ := same
  rw [Files.Path.toString_injective levels, Files.Path.toString_injective columns,
    Files.Path.toString_injective rows]

namespace Job

theorem names_slot (job : Job) : names job.slot =
    names job.map ++ [toString job.tile.level, toString job.tile.x, toString job.tile.y] := by
  have undivided (number : Nat) : '/' ∉ (toString number).toList :=
    (Files.Path.ordinary_toString number).undivided
  have text : job.slot = job.map ++ "/" ++ toString job.tile.level ++ "/" ++
      toString job.tile.x ++ "/" ++ toString job.tile.y := by
    simp [slot, Cache.Key.text, Cache.Key.parts, Cache.Key.ofJob, String.intercalate_cons_cons,
      String.append_assoc]
  rw [text, names_append (undivided _), names_append (undivided _), names_append (undivided _)]
  simp

/-- Different jobs have different texts. -/
theorem slot_injective {job other : Job} (same : job.slot = other.slot) : job = other := by
  have split := congrArg names same
  rw [names_slot, names_slot] at split
  obtain ⟨front, numerals⟩ := List.append_inj' split rfl
  obtain ⟨map, tile⟩ := job
  obtain ⟨otherMap, otherTile⟩ := other
  obtain rfl : map = otherMap := Files.Path.names_injective front
  obtain rfl : tile = otherTile := Tile.numerals_injective numerals
  rfl

end Job

namespace Cache.Key

theorem parts_injective {key other : Key} (same : key.parts = other.parts) : key = other := by
  obtain ⟨names, numerals⟩ := List.append_inj' same rfl
  obtain ⟨map, layer, tile⟩ := key
  obtain ⟨otherMap, otherLayer, otherTile⟩ := other
  obtain ⟨rfl, layers⟩ := List.cons.inj names
  obtain rfl : layer = otherLayer := by cases layer <;> cases otherLayer <;> simp_all
  obtain rfl : tile = otherTile := Tile.numerals_injective numerals
  rfl

/-- The key of a whole map that has the same text. -/
def whole (key : Key) : Key :=
  { map := String.intercalate "/" (key.map :: key.layer.toList), tile := key.tile }

theorem text_whole (key : Key) : key.whole.text = key.text := by
  obtain ⟨map, _ | layer, tile⟩ := key <;>
    simp [whole, text, parts, String.intercalate_cons_cons, String.append_assoc]

/-- The text of a key tells no more than that of the whole map. -/
theorem text_eq_iff {key other : Key} : key.text = other.text ↔ key.whole = other.whole := by
  constructor
  · intro same
    have slots : Job.slot ⟨key.whole.map, key.tile⟩ = Job.slot ⟨other.whole.map, other.tile⟩ :=
      key.text_whole.trans (same.trans other.text_whole.symm)
    obtain ⟨maps, tiles⟩ := Job.mk.injEq .. ▸ Job.slot_injective slots
    rw [whole, whole, tiles]
    exact congrArg (Key.mk · none other.tile) maps
  · intro same
    rw [← key.text_whole, same, other.text_whole]

theorem tile_eq_of_whole {key other : Key} (same : key.whole = other.whole) :
    key.tile = other.tile := by
  have tiles : key.whole.tile = other.whole.tile := by rw [same]
  exact tiles

/-- Each name of the key is a single one. -/
def Undivided (key : Key) : Prop := ∀ name ∈ key.map :: key.layer.toList, '/' ∉ name.toList

theorem eq_of_undivided {key other : Key} (single : key.Undivided) (singleOther : other.Undivided)
    (same : key.whole = other.whole) : key = other := by
  have names : Files.Path.names key.whole.map = Files.Path.names other.whole.map :=
    congrArg (Files.Path.names ∘ Key.map) same
  rw [whole, whole, Files.Path.names_intercalate single,
    Files.Path.names_intercalate singleOther] at names
  refine parts_injective ?_
  rw [parts, parts, names, tile_eq_of_whole same]

theorem whole_of_layer_none {key : Key} (plain : key.layer = none) : key.whole = key := by
  obtain ⟨map, layer, tile⟩ := key
  obtain rfl : layer = none := plain
  simp [whole]

theorem eq_of_layer_none {key other : Key} (plain : key.layer = none)
    (plainOther : other.layer = none) (same : key.whole = other.whole) : key = other := by
  rwa [whole_of_layer_none plain, whole_of_layer_none plainOther] at same

/-- A key has the slot of a job if it is that of the same whole map and tile. -/
theorem text_eq_slot_iff {key : Key} {job : Job} :
    key.text = job.slot ↔ key.whole = .ofJob job := by
  have plain : (ofJob job).whole = .ofJob job := whole_of_layer_none rfl
  rw [Job.slot, text_eq_iff, plain]

end Cache.Key

end TilePyramid
