import Mathlib.Data.Set.Finite.Basic
import TilePyramid.Proofs.Cache.Agreement

/-!
# Slots of a cache in memory

A cache in memory keeps content under the texts of keys, and the text of a key is that of a whole
map as well: the map that is named like the map and the layer of the key together. Keys of different
names can therefore share a slot. The answers are those of a table by keys exactly for keys in use
that do not. Main statement: `memory_answers_by_key_iff`.
-/

set_option autoImplicit false

namespace TilePyramid

open Text.Utf8 (Bytes)

theorem Table.mem_keys_iff {κ ν : Type} [DecidableEq κ] {table : Table κ ν} {key : κ} :
    key ∈ table.entries.map Prod.fst ↔ table.find? key ≠ none := by
  simp [Table.find?]

namespace Cache

/-- The call for the whole map whose key has the same text. -/
def Call.whole : Call → Call
  | .get key => .get key.whole
  | .set key content => .set key.whole content
  | .purge key => .purge key.whole

/-- The world after calls one after the other. -/
def worldAfter (source : Map → Tile → SourceReply) (cache : Cache) (calls : List Call)
    (world : World) : World :=
  calls.foldl (fun world call => (call.on source cache world).2) world

/-- The table of the contents of keys that calls leave, if there was none. -/
def tableAfter (maxZoom : Option Nat) (calls : List Call) : Key → Option Bytes :=
  calls.foldl (Call.change maxZoom) fun _ => none

section Memory

variable {source : Map → Tile → SourceReply} {maxZoom : Option Nat} {used : Key → Prop}
  {table : Key → Option Bytes} {world : World}

theorem Call.whole_on (call : Call) :
    call.whole.on source (memory maxZoom) world = call.on source (memory maxZoom) world := by
  cases call with
  | get key => rw [Call.whole, Call.on, Call.on, memory_get_on, memory_get_on, Key.text_whole]
  | set key content =>
      rw [Call.whole, Call.on, Call.on]
      cases kept : keeps maxZoom key.tile.level with
      | true =>
          have keptWhole : keeps maxZoom key.whole.tile.level = true := kept
          rw [memory_set_on kept, memory_set_on keptWhole, Key.text_whole]
      | false =>
          have deepWhole : keeps maxZoom key.whole.tile.level = false := kept
          rw [memory_set_on_of_deep kept, memory_set_on_of_deep deepWhole]
  | purge key =>
      rw [Call.whole, Call.on, Call.on, memory_purge_on, memory_purge_on, Key.text_whole]

/-- Keys in use that have a slot together are the same, or content for them is not kept. -/
def Apart (maxZoom : Option Nat) (used : Key → Prop) : Prop :=
  ∀ key other, used key → used other → keeps maxZoom key.tile.level = true →
    key.whole = other.whole → key = other

/-- The store has the contents of a table, each in the slot of its key. -/
structure Slotted (maxZoom : Option Nat) (used : Key → Prop) (table : Key → Option Bytes)
    (store : Table String Bytes) : Prop where
  distinct : store.Distinct
  recorded : ∀ key, used key → store.find? key.text = table key
  stored : ∀ key, table key ≠ none → used key ∧ keeps maxZoom key.tile.level = true
  named : ∀ slot, store.find? slot ≠ none → ∃ key, table key ≠ none ∧ key.text = slot

theorem slotted_empty : Slotted maxZoom used (fun _ => none) .empty where
  distinct := Table.distinct_empty
  recorded _ _ := rfl
  stored _ found := absurd rfl found
  named _ found := absurd rfl found

namespace Slotted

variable {store : Table String Bytes} {key : Key}

/-- A key in use has the slot of another one to itself, or nothing is kept for it. -/
theorem eq_or_none (slotted : Slotted maxZoom used table store) (apart : Apart maxZoom used)
    (inUse : used key) {other : Key} (otherInUse : used other) (same : other.text = key.text) :
    other = key ∨ table other = none := by
  by_cases held : table other = none
  · exact .inr held
  · exact .inl (apart other key otherInUse inUse (slotted.stored other held).2 (Key.text_eq_iff.mp same))

theorem put (slotted : Slotted maxZoom used table store) (apart : Apart maxZoom used)
    (inUse : used key) (kept : keeps maxZoom key.tile.level = true) (content : Bytes) :
    Slotted maxZoom used (Function.update table key (some content))
      (store.put key.text content) where
  distinct := slotted.distinct.put _ _
  recorded other otherInUse := by
    rw [Table.find?_put]
    by_cases same : other = key
    · simp [same]
    · have texts : other.text ≠ key.text := fun texts =>
        same (apart key other inUse otherInUse kept (Key.text_eq_iff.mp texts.symm)).symm
      rw [if_neg texts, Function.update_of_ne same, slotted.recorded other otherInUse]
  stored other held := by
    by_cases same : other = key
    · exact same ▸ ⟨inUse, kept⟩
    · rw [Function.update_of_ne same] at held
      exact slotted.stored other held
  named slot found := by
    by_cases same : slot = key.text
    · exact ⟨key, by simp, same.symm⟩
    · rw [Table.find?_put, if_neg same] at found
      obtain ⟨other, held, rfl⟩ := slotted.named slot found
      refine ⟨other, ?_, rfl⟩
      rwa [Function.update_of_ne fun keys => same (congrArg Key.text keys)]

theorem erase (slotted : Slotted maxZoom used table store) (apart : Apart maxZoom used)
    (inUse : used key) :
    Slotted maxZoom used (Function.update table key none) (store.erase key.text) where
  distinct := slotted.distinct.erase _
  recorded other otherInUse := by
    rw [Table.find?_erase]
    by_cases same : other = key
    · simp [same]
    · rw [Function.update_of_ne same]
      by_cases texts : other.text = key.text
      · rw [if_pos texts]
        exact ((slotted.eq_or_none apart inUse otherInUse texts).resolve_left same).symm
      · rw [if_neg texts, slotted.recorded other otherInUse]
  stored other held := by
    by_cases same : other = key
    · simp [same] at held
    · rw [Function.update_of_ne same] at held
      exact slotted.stored other held
  named slot found := by
    rw [Table.find?_erase] at found
    obtain ⟨different, found⟩ : slot ≠ key.text ∧ store.find? slot ≠ none := by
      simpa using found
    obtain ⟨other, held, rfl⟩ := slotted.named slot found
    refine ⟨other, ?_, rfl⟩
    rwa [Function.update_of_ne fun keys => different (congrArg Key.text keys)]

variable (source) in
theorem step (slotted : Slotted maxZoom used table world.store) (apart : Apart maxZoom used)
    {call : Call} (inUse : used call.key) :
    (call.on source (memory maxZoom) world).1 = .ok (call.reply table) ∧
      Slotted maxZoom used (call.change maxZoom table)
        (call.on source (memory maxZoom) world).2.store := by
  cases call with
  | get key =>
      rw [Call.on, memory_get_on]
      exact ⟨congrArg (Except.ok ∘ Reply.found) (slotted.recorded key inUse), slotted⟩
  | set key content =>
      rw [Call.on, Call.change]
      cases kept : keeps maxZoom key.tile.level with
      | true =>
          rw [memory_set_on kept]
          exact ⟨rfl, slotted.put apart inUse kept content⟩
      | false =>
          rw [memory_set_on_of_deep kept]
          exact ⟨rfl, slotted⟩
  | purge key =>
      rw [Call.on, memory_purge_on]
      exact ⟨rfl, slotted.erase apart inUse⟩

variable (source) in
theorem run (slotted : Slotted maxZoom used table world.store) (apart : Apart maxZoom used)
    {calls : List Call} (inUse : ∀ call ∈ calls, used call.key) :
    answers source (memory maxZoom) calls world = (replies maxZoom calls table).map .ok ∧
      Slotted maxZoom used (calls.foldl (Call.change maxZoom) table)
        (worldAfter source (memory maxZoom) calls world).store := by
  induction calls generalizing table world with
  | nil => exact ⟨rfl, slotted⟩
  | cons call calls ih =>
      obtain ⟨answered, after⟩ := slotted.step source apart (inUse call List.mem_cons_self)
      obtain ⟨later, last⟩ := ih after fun other member => inUse other (List.mem_cons_of_mem _ member)
      refine ⟨?_, last⟩
      rw [answers, replies, List.map_cons, answered, later]

/-- As many slots are taken as keys have content. -/
theorem exists_card_eq_size (slotted : Slotted maxZoom used table store) (apart : Apart maxZoom used) :
    ∃ held : Finset Key, (∀ key, key ∈ held ↔ table key ≠ none) ∧ store.size = held.card := by
  let slots : Finset String := (store.entries.map Prod.fst).toFinset
  have distinguished : Set.InjOn Key.text {key | table key ≠ none} := by
    intro key held other heldOther texts
    obtain ⟨inUse, kept⟩ := slotted.stored key held
    exact apart key other inUse (slotted.stored other heldOther).1 kept (Key.text_eq_iff.mp texts)
  have image : Key.text '' {key | table key ≠ none} = slots := by
    ext slot
    rw [Finset.mem_coe, List.mem_toFinset, Table.mem_keys_iff]
    constructor
    · intro reached
      obtain ⟨key, held, rfl⟩ := reached
      rw [slotted.recorded key (slotted.stored key held).1]
      exact held
    · exact slotted.named slot
  have finite : {key | table key ≠ none}.Finite :=
    Set.Finite.of_finite_image (image ▸ slots.finite_toSet) distinguished
  refine ⟨finite.toFinset, fun key => finite.mem_toFinset, ?_⟩
  have counted : finite.toFinset.image Key.text = slots := by
    rw [← Finset.coe_inj, Finset.coe_image, finite.coe_toFinset, image]
  calc store.size
      = slots.card := by
        rw [List.toFinset_card_of_nodup slotted.distinct, List.length_map, Table.size]
    _ = finite.toFinset.card := by
        rw [← counted, Finset.card_image_of_injOn (by rwa [finite.coe_toFinset])]

end Slotted

/-- For calls with keys in use, a cache in memory that was empty at first is a table by keys. -/
structure AnswersByKey (source : Map → Tile → SourceReply) (maxZoom : Option Nat)
    (used : Key → Prop) (calls : List Call) (world : World) : Prop where
  answers : answers source (memory maxZoom) calls world =
    (replies maxZoom calls fun _ => none).map .ok
  contains : ∀ key, used key →
    isStored (worldAfter source (memory maxZoom) calls world).store key =
      (tableAfter maxZoom calls key).isSome
  size : ∃ held : Finset Key, (∀ key, key ∈ held ↔ tableAfter maxZoom calls key ≠ none) ∧
    (worldAfter source (memory maxZoom) calls world).store.size = held.card

theorem Apart.answersByKey (apart : Apart maxZoom used) {calls : List Call}
    (inUse : ∀ call ∈ calls, used call.key) (emptyStore : world.store = .empty) :
    AnswersByKey source maxZoom used calls world := by
  have first : Slotted maxZoom used (fun _ => none) world.store := emptyStore ▸ slotted_empty
  obtain ⟨answered, last⟩ := first.run source apart inUse
  refine ⟨answered, fun key used => ?_, last.exists_card_eq_size apart⟩
  rw [isStored, last.recorded key used]
  rfl

/-- A key in use tells whether content for another one was stored, if they share a slot. -/
theorem apart_of_answers (byKey : ∀ calls : List Call, (∀ call ∈ calls, used call.key) →
      answers source (memory maxZoom) calls world =
        (replies maxZoom calls fun _ => none).map .ok) : Apart maxZoom used := by
  intro key other inUse otherInUse kept same
  have answered := byKey [.set key [], .get other] (by simp [Call.key, inUse, otherInUse])
  have found : (world.store.put key.text []).find? other.text = some [] := by
    rw [Table.find?_put, if_pos (Key.text_eq_iff.mpr same).symm]
  by_contra different
  simp [answers, replies, Call.on, Call.reply, Call.change, memory_set_on kept, memory_get_on,
    found, kept, Function.update_of_ne (Ne.symm different), Except.map] at answered

theorem answers_whole {calls : List Call} :
    answers source (memory maxZoom) (calls.map Call.whole) world =
      answers source (memory maxZoom) calls world := by
  induction calls generalizing world with
  | nil => rfl
  | cons call calls ih => rw [List.map_cons, answers, answers, Call.whole_on, ih]

theorem worldAfter_whole {calls : List Call} :
    worldAfter source (memory maxZoom) (calls.map Call.whole) world =
      worldAfter source (memory maxZoom) calls world := by
  simp only [worldAfter, List.foldl_map, Call.whole_on]

/-- The cache tells keys apart exactly as far as they are of different whole maps or tiles. It answers
for calls on keys as for calls on the whole maps. It is a table by keys for the keys in use if and
only if no two of them, at a level that is kept, are of one whole map and tile. So it is for the
keys of whole maps, and for those with single names. -/
theorem memory_answers_by_key_iff {source : Map → Tile → SourceReply} {maxZoom : Option Nat} :
    (∀ key other : Key, key.text = other.text ↔ key.whole = other.whole) ∧
    (∀ calls world,
      answers source (memory maxZoom) (calls.map Call.whole) world =
          answers source (memory maxZoom) calls world ∧
        worldAfter source (memory maxZoom) (calls.map Call.whole) world =
          worldAfter source (memory maxZoom) calls world) ∧
    (∀ used : Key → Prop,
      (∀ calls world, (∀ call ∈ calls, used call.key) → world.store = .empty →
          AnswersByKey source maxZoom used calls world) ↔ Apart maxZoom used) ∧
    Apart maxZoom (fun key => key.layer = none) ∧ Apart maxZoom Key.Undivided := by
  refine ⟨fun key other => Key.text_eq_iff,
    fun calls world => ⟨answers_whole, worldAfter_whole⟩,
    fun used => ⟨fun byKey => ?_, fun apart calls world => apart.answersByKey⟩,
    fun key other plain plainOther _ => Key.eq_of_layer_none plain plainOther,
    fun key other single singleOther _ => Key.eq_of_undivided single singleOther⟩
  exact apart_of_answers fun calls inUse => (byKey calls {} inUse rfl).answers

/-- A tile of the layer `0` of a map is stored, and then asked for is that of another map. -/
def sharingCalls : List Call :=
  [.set { map := "a", layer := some "0", tile := ⟨1, 0, 0⟩ } [120],
    .get { map := "a/0", tile := ⟨1, 0, 0⟩ }]

/-- The answer is the tile of the layer, while a table by keys has nothing. -/
theorem layer_shares_slot_of_map :
    answers (ruledSource []) (memory none) sharingCalls {} =
        [.ok .done, .ok (.found (some [120]))] ∧
      replies none sharingCalls (fun _ => none) = [.done, .found none] := by
  decide +kernel

end Memory

end Cache

end TilePyramid
