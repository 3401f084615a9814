import TilePyramid.Proofs.Cache.Key
import TilePyramid.Proofs.Cache.Stock
import TilePyramid.World

/-!
# Caches that answer alike

A cache in memory and one in a directory give the same answers to the same calls, if both are empty
at first and the names in the keys are ordinary and cannot be taken for levels. What they find for a
key is what was stored last for it since it was removed. Main statement:
`directory_and_memory_agree`.
-/

set_option autoImplicit false

namespace TilePyramid.Cache

open Text.Utf8 (Bytes)
open Files (Path Location Tree Spread Clear)

/-- Each name of a key is one ordinary name, and that of its layer is not the numeral of a level. -/
structure Key.Plain (deepest : Nat) (key : Key) : Prop where
  map : Path.Ordinary key.map
  layer : ∀ layer ∈ key.layer, Path.Ordinary layer ∧ ∀ level ≤ deepest, layer ≠ toString level
  level : key.tile.level ≤ deepest

namespace Key.Plain

variable {deepest : Nat} {key other : Key}

theorem ordinary (plain : key.Plain deepest) : ∀ part ∈ key.parts, Path.Ordinary part := by
  intro part member
  simp only [Key.parts, List.cons_append, List.mem_cons, List.mem_append, Option.mem_toList,
    List.not_mem_nil, or_false] at member
  rcases member with rfl | member | rfl | rfl | rfl
  · exact plain.map
  · exact (plain.layer part member).1
  all_goals exact Path.ordinary_toString _

theorem descends (plain : key.Plain deepest) : key.Descends :=
  ⟨plain.map.descends, fun layer member => (plain.layer layer member).1.descends⟩

theorem way_eq (plain : key.Plain deepest) : key.way = key.front := by
  have steps : ∀ part ∈ key.front, Path.steps part = [part] := by
    intro part member
    refine (plain.ordinary part ?_).steps
    rw [Key.parts_eq]
    exact List.mem_append_left _ member
  rw [Key.way, List.flatMap_def, List.map_congr_left steps]
  exact List.flatMap_singleton' key.front

theorem place_eq (plain : key.Plain deepest) : key.place = key.parts := by
  rw [Key.place, plain.way_eq, Key.parts_eq]

/-- A place next to an entry is not on the way to the entry of another key. -/
theorem eq_of_prefix (plain : key.Plain deepest) (plainOther : other.Plain deepest) {name : String}
    (above : key.way ++ [name] <+: other.place) : key.way ++ [name] = other.place := by
  rw [plain.way_eq, plainOther.place_eq] at above ⊢
  cases layer : key.layer with
  | none =>
      cases otherLayer : other.layer with
      | none =>
          refine above.eq_of_length ?_
          simp [Key.front, Key.parts, layer, otherLayer]
      | some name =>
          -- The name of the layer stands where the other key has its level.
          have taken : toString key.tile.level = name := by
            simp only [Key.front, Key.parts, layer, otherLayer, Option.toList_none,
              Option.toList_some, List.nil_append, List.cons_append, List.cons_prefix_cons] at above
            exact above.2.1
          exact absurd taken.symm ((plainOther.layer name otherLayer).2 _ plain.level)
  | some name =>
      cases otherLayer : other.layer with
      | none =>
          have length := above.length_le
          simp [Key.front, Key.parts, layer, otherLayer] at length
      | some name =>
          refine above.eq_of_length ?_
          simp [Key.front, Key.parts, layer, otherLayer]

end Key.Plain

section Plain

variable {deepest : Nat} {key other : Key}

theorem eq_of_place (plain : key.Plain deepest) (plainOther : other.Plain deepest)
    (same : key.place = other.place) : key = other := by
  rw [plain.place_eq, plainOther.place_eq] at same
  exact Key.parts_injective same

theorem eq_of_text (plain : key.Plain deepest) (plainOther : other.Plain deepest)
    (same : key.text = other.text) : key = other := by
  have named {key : Key} (plain : key.Plain deepest) : Path.names key.text = key.parts :=
    Path.names_intercalate fun part member => (plain.ordinary part member).undivided
  refine Key.parts_injective ?_
  rw [← named plain, ← named plainOther, same]

/-- The places of the keys in use. -/
def PlainPlace (deepest : Nat) (place : Location) : Prop :=
  ∃ key : Key, key.Plain deepest ∧ key.place = place

theorem spread_plainPlace : Spread (PlainPlace deepest) := by
  rintro _ _ ⟨key, plain, rfl⟩ ⟨other, plainOther, rfl⟩ above
  exact plain.eq_of_prefix plainOther above

/-- The sibling of an entry is not on the way to any entry. -/
theorem not_prefix_of_spare (plain : key.Plain deepest) {place : Location}
    (listed : PlainPlace deepest place) : ¬ key.spare <+: place := by
  obtain ⟨other, plainOther, rfl⟩ := listed
  intro above
  exact key.spare_ne_place other (plain.eq_of_prefix plainOther above)

end Plain

inductive Call where
  | get (key : Key)
  | set (key : Key) (content : Bytes)
  | purge (key : Key)
deriving DecidableEq

/-- What a call is answered with unless it fails. -/
inductive Reply where
  | found (content : Option Bytes)
  | done
deriving DecidableEq

namespace Call

def key : Call → Key
  | get key | set key _ | purge key => key

/-- The answer of a cache to a call, and the world after it. -/
def on (source : Map → Tile → SourceReply) (cache : Cache) (world : World) :
    Call → Except Report Reply × World
  | get key => ((cache.get key).on source world).map (Except.map .found) id
  | set key content => ((cache.set key content).on source world).map (Except.map fun _ => .done) id
  | purge key => ((cache.purge key).on source world).map (Except.map fun _ => .done) id

/-- A table of the contents of keys after a call. -/
def change (maxZoom : Option Nat) (table : Key → Option Bytes) : Call → Key → Option Bytes
  | get _ => table
  | set key content =>
      if keeps maxZoom key.tile.level then Function.update table key (some content) else table
  | purge key => Function.update table key none

def reply (table : Key → Option Bytes) : Call → Reply
  | get key => .found (table key)
  | set _ _ | purge _ => .done

end Call

/-- The answers of a cache to calls one after the other. -/
def answers (source : Map → Tile → SourceReply) (cache : Cache) :
    List Call → World → List (Except Report Reply)
  | [], _ => []
  | call :: calls, world =>
      (call.on source cache world).1 :: answers source cache calls (call.on source cache world).2

def replies (maxZoom : Option Nat) : List Call → (Key → Option Bytes) → List Reply
  | [], _ => []
  | call :: calls, table => call.reply table :: replies maxZoom calls (call.change maxZoom table)

section Answers

variable {source : Map → Tile → SourceReply} {maxZoom : Option Nat} {deepest : Nat}
  {calls : List Call} {world : World} {table : Key → Option Bytes}

/-- The store of a cache in memory has the contents of a table. -/
def Recorded (deepest : Nat) (table : Key → Option Bytes) (world : World) : Prop :=
  ∀ key : Key, key.Plain deepest → world.store.find? key.text = table key

theorem Recorded.update {key : Key} {held : Option Bytes} {after : World}
    (recorded : Recorded deepest table world) (plain : key.Plain deepest)
    (changed : ∀ slot, after.store.find? slot =
      if slot = key.text then held else world.store.find? slot) :
    Recorded deepest (Function.update table key held) after := by
  intro other plainOther
  rw [changed]
  by_cases same : other = key
  · simp [same]
  · rw [if_neg fun texts => same (eq_of_text plainOther plain texts), Function.update_of_ne same]
    exact recorded other plainOther

theorem Recorded.step {call : Call} (recorded : Recorded deepest table world)
    (plain : call.key.Plain deepest) :
    (call.on source (memory maxZoom) world).1 = .ok (call.reply table) ∧
      Recorded deepest (call.change maxZoom table) (call.on source (memory maxZoom) world).2 := by
  cases call with
  | get key =>
      rw [Call.on, memory_get_on]
      exact ⟨congrArg (Except.ok ∘ Reply.found) (recorded key plain), recorded⟩
  | set key content =>
      simp only [Call.on, Call.change, Call.key] at plain ⊢
      cases kept : keeps maxZoom key.tile.level with
      | true =>
          rw [memory_set_on kept]
          exact ⟨rfl, recorded.update plain fun slot => Table.find?_put _ _ _ _⟩
      | false =>
          rw [memory_set_on_of_deep kept]
          exact ⟨rfl, recorded⟩
  | purge key =>
      rw [Call.on, memory_purge_on]
      exact ⟨rfl, recorded.update plain fun slot => Table.find?_erase _ _ _⟩

/-- The files of a cache in a directory have the contents of a table. -/
structure Filed (deepest : Nat) (root : Path) (floor : Location) (table : Key → Option Bytes)
    (world : World) (content : Location → Option Bytes) : Prop where
  stocked : Stocked root floor (PlainPlace deepest) content world.files
  tells : ∀ key : Key, key.Plain deepest → content key.place = table key

variable {root : Path} {floor : Location} {content : Location → Option Bytes}

theorem Filed.update {key : Key} {held : Option Bytes} {files : Tree}
    (filed : Filed deepest root floor table world content) (plain : key.Plain deepest)
    (stocked : Stocked root floor (PlainPlace deepest)
      (Function.update content key.place held) files) :
    Filed deepest root floor (Function.update table key held) { world with files }
      (Function.update content key.place held) := by
  refine ⟨stocked, fun other plainOther => ?_⟩
  by_cases same : other = key
  · simp [same]
  · rw [Function.update_of_ne fun places => same (eq_of_place plainOther plain places),
      Function.update_of_ne same]
    exact filed.tells other plainOther

theorem Filed.step {call : Call} (filed : Filed deepest root floor table world content)
    (plain : call.key.Plain deepest) :
    (call.on source (directory root maxZoom) world).1 = .ok (call.reply table) ∧
      ∃ after, Filed deepest root floor (call.change maxZoom table)
        (call.on source (directory root maxZoom) world).2 after := by
  have listed {key : Key} (plain : key.Plain deepest) : PlainPlace deepest key.place :=
    ⟨key, plain, rfl⟩
  cases call with
  | get key =>
      simp only [Call.key] at plain
      have clear := spread_plainPlace.clear (listed plain)
      rw [Call.on, filed.stocked.get_on plain.descends clear]
      exact ⟨congrArg (Except.ok ∘ Reply.found) (filed.tells key plain), content, filed⟩
  | set key bytes =>
      simp only [Call.on, Call.change, Call.key] at plain ⊢
      cases kept : keeps maxZoom key.tile.level with
      | true =>
          obtain ⟨result, files, same, ⟨rfl, stocked⟩ | ⟨⟨other, place, above⟩, -⟩⟩ :=
            Stocked.set_on source bytes filed.stocked spread_plainPlace plain.descends kept (listed plain)
              fun spare => not_prefix_of_spare plain spare List.prefix_rfl
          · rw [same]
            exact ⟨rfl, _, filed.update plain stocked⟩
          · exact absurd above (not_prefix_of_spare plain place)
      | false =>
          rw [Stocked.set_on_of_deep kept]
          exact ⟨rfl, content, filed⟩
  | purge key =>
      simp only [Call.key] at plain
      obtain ⟨files, same, stocked⟩ := Stocked.purge_on source maxZoom filed.stocked
        spread_plainPlace plain.descends (spread_plainPlace.clear (listed plain))
      rw [Call.on, same]
      exact ⟨rfl, _, filed.update plain stocked⟩

theorem answers_memory (recorded : Recorded deepest table world)
    (plain : ∀ call ∈ calls, call.key.Plain deepest) :
    answers source (memory maxZoom) calls world = (replies maxZoom calls table).map .ok := by
  induction calls generalizing world table with
  | nil => rfl
  | cons call calls ih =>
      obtain ⟨answered, after⟩ := recorded.step (plain call List.mem_cons_self)
      rw [answers, replies, List.map_cons, answered]
      exact congrArg _ (ih after fun other member => plain other (List.mem_cons_of_mem _ member))

theorem answers_directory (filed : Filed deepest root floor table world content)
    (plain : ∀ call ∈ calls, call.key.Plain deepest) :
    answers source (directory root maxZoom) calls world = (replies maxZoom calls table).map .ok := by
  induction calls generalizing world table content with
  | nil => rfl
  | cons call calls ih =>
      obtain ⟨answered, _, after⟩ := filed.step (plain call List.mem_cons_self)
      rw [answers, replies, List.map_cons, answered]
      exact congrArg _ (ih after fun other member => plain other (List.mem_cons_of_mem _ member))

theorem getElem?_replies (earlier : List Call) (call : Call) (later : List Call) :
    (replies maxZoom (earlier ++ call :: later) table)[earlier.length]? =
      some (call.reply (earlier.foldl (Call.change maxZoom) table)) := by
  induction earlier generalizing table with
  | nil => rfl
  | cons first earlier ih => exact ih

end Answers

/-- What calls have left for a key: the content of the last of them that stored some for it, at a level
that is kept, if it was not removed later. -/
def LastSet (maxZoom : Option Nat) (key : Key) (content : Bytes) (calls : List Call) : Prop :=
  ∃ earlier later, calls = earlier ++ .set key content :: later ∧
    keeps maxZoom key.tile.level = true ∧
    ∀ call ∈ later, call ≠ .purge key ∧ ∀ other, call ≠ .set key other

theorem LastSet.keeps {maxZoom : Option Nat} {key : Key} {content : Bytes} {calls : List Call}
    (last : LastSet maxZoom key content calls) : keeps maxZoom key.tile.level = true := by
  obtain ⟨-, -, -, kept, -⟩ := last
  exact kept

theorem lastSet_append {maxZoom : Option Nat} {key : Key} {content : Bytes} {calls : List Call}
    {last : Call} : LastSet maxZoom key content (calls ++ [last]) ↔
      last = .set key content ∧ keeps maxZoom key.tile.level = true ∨
      LastSet maxZoom key content calls ∧ last ≠ .purge key ∧ ∀ other, last ≠ .set key other := by
  constructor
  · rintro ⟨earlier, later, same, kept, spared⟩
    rcases List.eq_nil_or_concat later with rfl | ⟨front, final, rfl⟩
    · exact .inl ⟨(List.append_inj' same rfl).2 |> List.singleton_inj.mp, kept⟩
    · rw [List.concat_eq_append] at same spared
      obtain ⟨whole, ends⟩ := List.append_inj' (same.trans (by simp) :
        calls ++ [last] = (earlier ++ .set key content :: front) ++ [final]) rfl
      obtain rfl := List.singleton_inj.mp ends
      refine .inr ⟨⟨earlier, front, whole, kept, fun call member => ?_⟩, ?_⟩
      · exact spared call (List.mem_append_left _ member)
      · exact spared last (by simp)
  · rintro (⟨rfl, kept⟩ | ⟨⟨earlier, later, rfl, kept, spared⟩, sparing⟩)
    · exact ⟨calls, [], rfl, kept, nofun⟩
    · refine ⟨earlier, later ++ [last], by simp, kept, fun call member => ?_⟩
      rcases List.mem_append.mp member with early | isLast
      · exact spared call early
      · rwa [List.mem_singleton.mp isLast]

theorem foldl_change_eq_some_iff {maxZoom : Option Nat} {key : Key} {content : Bytes}
    {calls : List Call} :
    calls.foldl (Call.change maxZoom) (fun _ => none) key = some content ↔
      LastSet maxZoom key content calls := by
  -- The last call decides, so the calls are taken from the end.
  induction calls using List.reverseRecOn with
  | nil => simp [LastSet]
  | append_singleton calls last ih =>
      have kept : calls.foldl (Call.change maxZoom) (fun _ => none) key = some content →
          keeps maxZoom key.tile.level = true := fun there => (ih.mp there).keeps
      rw [List.foldl_append, lastSet_append, ← ih]
      generalize calls.foldl (Call.change maxZoom) (fun _ => none) = table at kept
      cases last with
      | get other => simp [Call.change]
      | set other bytes =>
          by_cases same : other = key
          · subst same
            by_cases keeping : keeps maxZoom other.tile.level = true
            · simp [Call.change, keeping]
            · have missing : table other ≠ some content := fun there => keeping (kept there)
              simp [Call.change, keeping, missing]
          · by_cases keeping : keeps maxZoom other.tile.level = true
            · simp [Call.change, keeping, same, Ne.symm same]
            · simp [Call.change, keeping, same]
      | purge other =>
          by_cases same : other = key
          · simp [Call.change, same]
          · simp [Call.change, same, Ne.symm same]

/-- Both caches, started empty, answer all calls for plain keys in the same way and without an error.
What they find for a key is what was stored last for it, at a level that is kept, unless it was removed
since. -/
theorem directory_and_memory_agree {source : Map → Tile → SourceReply} {maxZoom : Option Nat}
    {deepest : Nat} {root : Path} {calls : List Call} {filed stored : World}
    (plain : ∀ call ∈ calls, call.key.Plain deepest) (emptyRoot : EmptyRoot root filed.files)
    (emptyStore : ∀ slot, stored.store.find? slot = none) :
    answers source (directory root maxZoom) calls filed =
        answers source (memory maxZoom) calls stored ∧
      ∀ earlier call later, calls = earlier ++ call :: later →
        ∃ reply, (answers source (memory maxZoom) calls stored)[earlier.length]? = some (.ok reply) ∧
          (∀ key, call = .get key → ∃ content, reply = .found content ∧
            ∀ bytes, content = some bytes ↔ LastSet maxZoom key bytes earlier) ∧
          ((∀ key, call ≠ .get key) → reply = .done) := by
  obtain ⟨floor, stocked⟩ := emptyRoot.exists_stocked (PlainPlace deepest)
  have inFiles : Filed deepest root floor (fun _ => none) filed fun _ => none :=
    ⟨stocked, fun _ _ => rfl⟩
  have inStore : Recorded deepest (fun _ => none) stored := fun key _ => emptyStore key.text
  refine ⟨?_, ?_⟩
  · rw [answers_directory inFiles plain, answers_memory inStore plain]
  · rintro earlier call later rfl
    refine ⟨call.reply (earlier.foldl (Call.change maxZoom) fun _ => none), ?_, ?_, ?_⟩
    · rw [answers_memory inStore plain, List.getElem?_map, getElem?_replies]
      rfl
    · rintro key rfl
      exact ⟨_, rfl, fun bytes => foldl_change_eq_some_iff⟩
    · intro other
      cases call with
      | get key => exact absurd rfl (other key)
      | set key content => rfl
      | purge key => rfl

/-- A tile of a map and one of a layer of the map, which differ in nothing else. -/
def wholeKey : Key := { map := "a", tile := ⟨1, 0, 1⟩ }

def roadsKey : Key := { map := "a", layer := some "roads", tile := ⟨1, 0, 1⟩ }

def sampleCalls : List Call :=
  [.set wholeKey [1], .set roadsKey [2], .purge wholeKey, .set roadsKey [3], .get wholeKey,
    .get roadsKey]

theorem plain_sampleCalls : ∀ call ∈ sampleCalls, call.key.Plain maxLevel := by
  have whole : wholeKey.Plain maxLevel :=
    ⟨⟨by decide, by decide, by decide, by decide⟩, nofun, by decide⟩
  have roads : roadsKey.Plain maxLevel := by
    refine ⟨⟨by decide, by decide, by decide, by decide⟩, ?_, by decide⟩
    rintro _ ⟨⟩
    refine ⟨⟨by decide, by decide, by decide, by decide⟩, fun level _ same => ?_⟩
    have letter : 'r' ∈ (toString level).toList := by
      rw [← same]
      decide
    exact absurd (Path.isDigit_of_mem_toString letter) (by decide)
  simp [sampleCalls, Call.key, whole, roads]

/-- The caches keep the two tiles apart. -/
theorem agree_on_sampleCalls :
    answers (ruledSource []) (directory "tiles" none) sampleCalls {} =
        answers (ruledSource []) (memory none) sampleCalls {} ∧
      answers (ruledSource []) (memory none) sampleCalls {} =
        [.ok .done, .ok .done, .ok .done, .ok .done, .ok (.found none), .ok (.found (some [3]))] := by
  have emptyStore : ∀ slot, ({} : World).store.find? slot = none := fun _ => rfl
  refine ⟨?_, by decide +kernel⟩
  exact (directory_and_memory_agree plain_sampleCalls emptyRoot_tiles emptyStore).1

end TilePyramid.Cache
