import TilePyramid.Config
import Mathlib.Data.List.Nodup

/-!
# Fields of configurations

An accepted document has known fields only, each given once, at the top, in its maps and in their
layers, and there are no other mappings but the section of the cache. That section ignores what it
does not know: an entry whose key names no field of the cache changes nothing. Main statement:
`accepted_fields_are_known`.
-/

set_option autoImplicit false

namespace TilePyramid.Config

open Yaml (Node)

/-! ## Shapes of documents -/

def IsScalar (node : Node) : Prop := node.text?.isSome = true

/-- A list, or nothing in its place, whose entries are of a shape. -/
def ListOf (shape : Node → Prop) (node : Node) : Prop :=
  ∃ items, node.items? = some items ∧ ∀ item ∈ items, shape item

/-- A mapping, or nothing in its place, whose keys are different declared names, with values of the
shapes that are declared for them. -/
def HasOnly (declared : List (String × (Node → Prop))) (node : Node) : Prop :=
  ∃ pairs, node.pairs? = some pairs ∧ (pairs.map fun pair => pair.1.text?).Nodup ∧
    ∀ pair ∈ pairs, ∃ field ∈ declared, pair.1.text? = some field.1 ∧ field.2 pair.2

def LayerShape : Node → Prop :=
  HasOnly [("name", IsScalar), ("min_zoom", IsScalar), ("max_zoom", IsScalar)]

def MapShape : Node → Prop :=
  HasOnly [("name", IsScalar), ("source", IsScalar), ("layers", ListOf LayerShape)]

/-- The entry of the section of a cache names a field, or nothing that is looked at. -/
def Tolerated (kind : CacheType) (pair : Node × Node) : Prop :=
  isTypeKey pair.1 = false ∧
    ((∃ name ∈ kind.fields, fieldName? kind pair.1 = some (some name) ∧ IsScalar pair.2) ∨
      fieldName? kind pair.1 = some none)

/-- The section of a cache is null, a list of scalars, or a mapping that gives one type and else
entries that are tolerated for it. -/
inductive SectionShape : Node → Prop where
  | scalar {node : Node} : IsScalar node → SectionShape node
  | list {tag : Option String} {items : List Node} :
      (∀ item ∈ items, IsScalar item) → SectionShape (.sequence tag items)
  | entries {tag : Option String} {front back : List (Node × Node)} {key node : Node}
      {kind : CacheType} :
      isTypeKey key = true → cacheType? node = some kind →
      (∀ pair ∈ front ++ back, Tolerated kind pair) →
      SectionShape (.mapping tag (front ++ (key, node) :: back))

def DocumentShape : Node → Prop :=
  HasOnly [("cache", SectionShape), ("maps", ListOf MapShape)]

/-! ## Fields that have to be known -/

section Strict

variable {known : List String} {pairs : List (Node × Node)} {fields : Fields} {name : String}
  {value : Node}

/-- The fields are the pairs, with keys that are different known names. -/
theorem strictFields_eq_some_iff : strictFields known pairs = some fields ↔
    pairs.map (fun pair => (pair.1.text?, pair.2)) =
        fields.map (fun field => (some field.1, field.2)) ∧
      fields.map Prod.fst ⊆ known ∧ (fields.map Prod.fst).Nodup := by
  induction pairs generalizing fields with
  | nil => cases fields <;> simp [strictFields]
  | cons pair rest ih =>
      obtain ⟨key, value⟩ := pair
      have unlisted (name : String) (later : Fields) :
          (later.lookup name).isNone = true ↔ name ∉ later.map Prod.fst := by
        rw [Option.isNone_iff_eq_none, List.lookup_eq_none_iff, List.mem_map]
        constructor
        · intro absent listed
          obtain ⟨field, member, rfl⟩ := listed
          simpa using absent field member
        · intro absent field member
          simpa using fun same => absent ⟨field, member, same.symm⟩
      constructor
      · intro read
        obtain ⟨name, named, read⟩ := Option.bind_eq_some_iff.mp read
        obtain ⟨later, listed, read⟩ := Option.bind_eq_some_iff.mp read
        obtain ⟨same, allKnown, distinct⟩ := ih.mp listed
        split at read
        · next new =>
            rw [Bool.and_eq_true, unlisted, List.contains_iff_mem] at new
            cases read
            simp only [List.map_cons, same, named, List.cons_subset, List.nodup_cons]
            exact ⟨trivial, ⟨new.1, allKnown⟩, new.2, distinct⟩
        · cases read
      · intro described
        obtain ⟨same, allKnown, distinct⟩ := described
        cases fields with
        | nil => cases same
        | cons field later =>
            rw [List.map_cons, List.map_cons] at same
            obtain ⟨first, others⟩ := List.cons.inj same
            obtain ⟨named, rfl⟩ := Prod.mk.inj first
            obtain ⟨isKnown, allKnown⟩ := List.cons_subset.mp allKnown
            obtain ⟨new, distinct⟩ := List.nodup_cons.mp distinct
            have listed := ih.mpr ⟨others, allKnown, distinct⟩
            have accepted : (known.contains field.1 && (later.lookup field.1).isNone) = true := by
              rw [Bool.and_eq_true, unlisted, List.contains_iff_mem]
              exact ⟨isKnown, new⟩
            simp only [strictFields, named, listed, Option.bind_eq_bind, Option.bind_some, accepted,
              ↓reduceIte]

theorem lookup_of_mem (distinct : (fields.map Prod.fst).Nodup) (member : (name, value) ∈ fields) :
    fields.lookup name = some value := by
  obtain ⟨front, back, rfl⟩ := List.append_of_mem member
  refine List.lookup_eq_some_iff.mpr ⟨front, back, rfl, fun field other => ?_⟩
  rw [List.map_append, List.map_cons, List.nodup_append] at distinct
  have different : field.1 ≠ name :=
    distinct.2.2 field.1 (List.mem_map_of_mem other) name List.mem_cons_self
  simpa using different.symm

/-- The value of a field does not matter for which fields there are. -/
theorem strictFields_replace {front back : List (Node × Node)} {key : Node}
    (named : key.text? = some name)
    (read : strictFields known (front ++ (key, value) :: back) = some fields) :
    ∃ first later, fields = first ++ (name, value) :: later ∧
      ∀ other, strictFields known (front ++ (key, other) :: back) =
        some (first ++ (name, other) :: later) := by
  obtain ⟨same, allKnown, distinct⟩ := strictFields_eq_some_iff.mp read
  rw [List.map_append, List.map_cons, named] at same
  obtain ⟨first, rest, whole, before, others⟩ := List.map_eq_append_iff.mp same.symm
  obtain ⟨⟨own, held⟩, later, split, here, after⟩ := List.map_eq_cons_iff.mp others
  obtain ⟨ownName, ownValue⟩ := Prod.mk.inj here
  obtain rfl : own = name := Option.some.inj ownName
  obtain rfl : held = value := ownValue
  subst split
  subst whole
  refine ⟨first, later, rfl, fun other => strictFields_eq_some_iff.mpr ⟨?_, ?_, ?_⟩⟩
  · rw [List.map_append, List.map_cons, named, ← before, ← after, List.map_append, List.map_cons]
  · simpa using allKnown
  · simpa using distinct

/-- Fields that were read are those of a mapping with nothing else in it. -/
theorem HasOnly.of_strictFields {declared : List (String × (Node → Prop))} {node : Node}
    (listed : node.pairs? = some pairs)
    (read : strictFields (declared.map Prod.fst) pairs = some fields)
    (fits : ∀ field ∈ declared, ∀ value, fields.lookup field.1 = some value → field.2 value) :
    HasOnly declared node := by
  obtain ⟨same, allKnown, distinct⟩ := strictFields_eq_some_iff.mp read
  refine ⟨pairs, listed, ?_, fun pair member => ?_⟩
  · have names : pairs.map (fun pair => pair.1.text?) = (fields.map Prod.fst).map some := by
      simpa [List.map_map, Function.comp_def] using congrArg (List.map Prod.fst) same
    rw [names]
    exact distinct.map fun _ _ same => Option.some.inj same
  · have read : (pair.1.text?, pair.2) ∈ fields.map (fun field => (some field.1, field.2)) :=
      same ▸ List.mem_map_of_mem member
    obtain ⟨⟨name, value⟩, isField, given⟩ := List.mem_map.mp read
    obtain ⟨named, rfl⟩ := Prod.mk.inj given
    obtain ⟨field, isDeclared, rfl⟩ := List.mem_map.mp (allKnown (List.mem_map_of_mem isField))
    exact ⟨field, isDeclared, named.symm, fits field isDeclared _ (lookup_of_mem distinct isField)⟩

end Strict

section Values

variable {α : Type} {fields : Fields} {name : String} {node value : Node} {read : Node → Option α}
  {shape : Node → Prop}

theorem isScalar_of_text? {text : String} (found : node.text? = some text) : IsScalar node :=
  Option.isSome_iff_exists.mpr ⟨text, found⟩

theorem isScalar_of_natural? {limit number : Nat} (found : node.natural? limit = some number) :
    IsScalar node := by
  cases node with
  | scalar tag style text => exact isScalar_of_text? rfl
  | sequence tag items => cases found
  | mapping tag pairs => cases found

theorem isScalar_of_meaning? {scalar : Yaml.Scalar} (found : meaning? node = some scalar) :
    IsScalar node := by
  cases node with
  | scalar tag style text => exact isScalar_of_text? rfl
  | sequence tag items => cases found
  | mapping tag pairs => cases found

/-- A node that is present is not changed by asking whether it is. -/
theorem eq_or_isScalar_of_present? {held : Option Node} (present : node.present? = some held) :
    held = some node ∨ IsScalar node := by
  cases node with
  | scalar tag style text => exact .inr (isScalar_of_text? rfl)
  | sequence tag items => exact .inl (Option.some.inj present).symm
  | mapping tag pairs => exact .inl (Option.some.inj present).symm

theorem shape_of_required {result : α} (given : required fields name read = some result)
    (found : fields.lookup name = some value)
    (each : ∀ node result, read node = some result → shape node) : shape value := by
  rw [required, found] at given
  exact each value result given

theorem shape_of_optional {result : Option α} (given : optional fields name read = some result)
    (found : fields.lookup name = some value) (scalar : ∀ node, IsScalar node → shape node)
    (each : ∀ node result, read node = some result → shape node) : shape value := by
  simp only [optional, found] at given
  cases present : value.present? with
  | none => simp [present] at given
  | some held =>
      obtain rfl | isScalar := eq_or_isScalar_of_present? present
      · simp only [present] at given
        obtain ⟨content, given, -⟩ := Option.map_eq_some_iff.mp given
        exact each value content given
      · exact scalar value isScalar

theorem exists_of_mapM {items : List Node} {results : List α} (given : items.mapM read = some results) :
    ∀ item ∈ items, ∃ result, read item = some result := by
  induction items generalizing results with
  | nil => simp
  | cons first rest ih =>
      rw [List.mapM_cons] at given
      obtain ⟨result, held, given⟩ := Option.bind_eq_some_iff.mp given
      obtain ⟨others, given, -⟩ := Option.bind_eq_some_iff.mp given
      exact List.forall_mem_cons.mpr ⟨⟨result, held⟩, ih given⟩

theorem shape_of_listOf {result : List α} (given : listOf fields name read = some result)
    (found : fields.lookup name = some value)
    (each : ∀ node result, read node = some result → shape node) : ListOf shape value := by
  simp only [listOf, found] at given
  obtain ⟨items, listed, given⟩ := Option.bind_eq_some_iff.mp given
  refine ⟨items, listed, fun item member => ?_⟩
  obtain ⟨content, held⟩ := exists_of_mapM given item member
  exact each item content held

end Values

theorem layerShape_of_layer? {node : Node} {layer : Layer} (read : layer? node = some layer) :
    LayerShape node := by
  obtain ⟨pairs, listed, read⟩ := Option.bind_eq_some_iff.mp read
  obtain ⟨fields, given, read⟩ := Option.bind_eq_some_iff.mp read
  obtain ⟨name, named, read⟩ := Option.bind_eq_some_iff.mp read
  obtain ⟨minZoom, from?, read⟩ := Option.bind_eq_some_iff.mp read
  obtain ⟨maxZoom, to?, -⟩ := Option.bind_eq_some_iff.mp read
  refine HasOnly.of_strictFields listed given ?_
  intro field declared value found
  simp only [List.mem_cons, List.not_mem_nil, or_false] at declared
  rcases declared with rfl | rfl | rfl
  · exact shape_of_required named found fun node text => isScalar_of_text?
  · exact shape_of_optional from? found (fun _ => id) fun node number => isScalar_of_natural?
  · exact shape_of_optional to? found (fun _ => id) fun node number => isScalar_of_natural?

theorem mapShape_of_map? {node : Node} {map : Map} (read : map? node = some map) :
    MapShape node := by
  obtain ⟨pairs, listed, read⟩ := Option.bind_eq_some_iff.mp read
  obtain ⟨fields, given, read⟩ := Option.bind_eq_some_iff.mp read
  obtain ⟨name, named, read⟩ := Option.bind_eq_some_iff.mp read
  obtain ⟨source, sourced, read⟩ := Option.bind_eq_some_iff.mp read
  obtain ⟨layers, layered, -⟩ := Option.bind_eq_some_iff.mp read
  refine HasOnly.of_strictFields listed given ?_
  intro field declared value found
  simp only [List.mem_cons, List.not_mem_nil, or_false] at declared
  rcases declared with rfl | rfl | rfl
  · exact shape_of_required named found fun node text => isScalar_of_text?
  · exact shape_of_optional sourced found (fun _ => id) fun node text => isScalar_of_text?
  · exact shape_of_listOf layered found fun node layer => layerShape_of_layer?

/-! ## The section of a cache -/

section Section

variable {kind : CacheType} {fields : Fields} {config : CacheConfig}

theorem mem_fields_of_fieldName? {key : Node} {name : String}
    (named : fieldName? kind key = some (some name)) : name ∈ kind.fields := by
  simp only [fieldName?] at named
  split at named
  · next text meant =>
      split at named
      · next isField =>
          cases named
          exact List.contains_iff_mem.mp isField
      · cases named
  · exact List.mem_of_getElem? (Option.some.inj named)
  · cases named

theorem mem_knownFields {pairs : List (Node × Node)} (read : knownFields kind pairs = some fields)
    {pair : Node × Node} (member : pair ∈ pairs) :
    fieldName? kind pair.1 = some none ∨
      ∃ name, fieldName? kind pair.1 = some (some name) ∧ fields.lookup name = some pair.2 := by
  induction pairs generalizing fields with
  | nil => cases member
  | cons first rest ih =>
      obtain ⟨key, value⟩ := first
      obtain ⟨later, listed, read⟩ := Option.bind_eq_some_iff.mp read
      obtain ⟨named, given, read⟩ := Option.bind_eq_some_iff.mp read
      cases named with
      | none =>
          cases read
          rcases List.mem_cons.mp member with rfl | member
          · exact .inl given
          · exact ih listed member
      | some name =>
          simp only at read
          split at read
          · next new =>
              cases read
              rcases List.mem_cons.mp member with rfl | member
              · exact .inr ⟨name, given, List.lookup_cons_self⟩
              · refine (ih listed member).imp_right fun found => ?_
                obtain ⟨other, named, found⟩ := found
                have different : other ≠ name := by
                  intro same
                  simp [← same, found] at new
                refine ⟨other, named, ?_⟩
                rw [List.lookup_cons, beq_false_of_ne different, found]
          · cases read

theorem isScalar_of_level? {node : Node} {level : Option Nat} (read : level? node = some level) :
    IsScalar node := by
  cases meant : meaning? node with
  | none => simp [level?, meant] at read
  | some scalar => exact isScalar_of_meaning? meant

theorem isScalar_of_path? {node : Node} {path : Files.Path} (read : path? node = some path) :
    IsScalar node := by
  cases meant : meaning? node with
  | none => simp [path?, meant] at read
  | some scalar => exact isScalar_of_meaning? meant

theorem isScalar_of_cacheType? {node : Node} (read : cacheType? node = some kind) :
    IsScalar node := by
  cases text : node.text? with
  | none => simp [cacheType?, text] at read
  | some name => exact isScalar_of_text? text

/-- Every field of the cache is read as a scalar. -/
theorem isScalar_of_cacheOf (read : cacheOf kind fields = some config) {name : String} {value : Node}
    (isField : name ∈ kind.fields) (found : fields.lookup name = some value) : IsScalar value := by
  have level (found : fields.lookup "max_zoom" = some value) : IsScalar value := by
    simp only [cacheOf, found] at read
    obtain ⟨maxZoom, leveled, -⟩ := Option.bind_eq_some_iff.mp read
    exact isScalar_of_level? leveled
  cases kind with
  | memory =>
      obtain rfl : name = "max_zoom" := List.mem_singleton.mp isField
      exact level found
  | directory =>
      simp only [CacheType.fields, List.mem_cons, List.not_mem_nil, or_false] at isField
      rcases isField with rfl | rfl
      · have placed : ∃ path, required fields "path" path? = some path := by
          simp only [cacheOf] at read
          split at read
          all_goals
            obtain ⟨maxZoom, -, read⟩ := Option.bind_eq_some_iff.mp read
            obtain ⟨path, placed, -⟩ := Option.bind_eq_some_iff.mp read
            exact ⟨path, placed⟩
        obtain ⟨path, placed⟩ := placed
        exact shape_of_required placed found fun node path => isScalar_of_path?
      · exact level found

theorem sectionShape_of_cacheOfPairs? {tag : Option String} {pairs : List (Node × Node)}
    (read : cacheOfPairs? pairs = some config) : SectionShape (.mapping tag pairs) := by
  rw [cacheOfPairs?, List.partition_eq_filter_filter] at read
  simp only at read
  split at read
  · cases read
  · split at read
    · cases read
    · split at read
      · next key node single =>
          obtain ⟨kind, typed, given⟩ := Option.bind_eq_some_iff.mp read
          obtain ⟨fields, listed, built⟩ := Option.bind_eq_some_iff.mp given
          obtain ⟨front, back, rfl, before, isType, after⟩ := List.filter_eq_cons_iff.mp single
          refine .entries isType typed fun pair member => ?_
          have other : isTypeKey pair.1 = false := by
            rcases List.mem_append.mp member with member | member
            · simpa using before pair member
            · simpa using List.filter_eq_nil_iff.mp after pair member
          refine ⟨other, ?_⟩
          have isListed : pair ∈ (front ++ (key, node) :: back).filter
              (not ∘ fun pair => isTypeKey pair.1) := by
            simp only [List.mem_append, List.mem_filter, List.mem_cons] at member ⊢
            exact ⟨member.imp_right .inr, by simp [other]⟩
          obtain ignored | ⟨name, named, found⟩ := mem_knownFields listed isListed
          · exact .inr ignored
          · have isField := mem_fields_of_fieldName? named
            exact .inl ⟨name, isField, named, isScalar_of_cacheOf built isField found⟩
      · cases read

theorem sectionShape_of_cacheOfItems? {tag : Option String} {items : List Node}
    (read : cacheOfItems? items = some config) : SectionShape (.sequence tag items) := by
  cases items with
  | nil => cases read
  | cons node values =>
      obtain ⟨kind, typed, read⟩ := Option.bind_eq_some_iff.mp read
      split at read
      · next fits =>
          have distinct : ((kind.fields.zip values).map Prod.fst).Nodup := by
            cases kind <;> rcases values with _ | ⟨first, _ | ⟨second, rest⟩⟩ <;>
              simp [CacheType.fields]
          have whole : (kind.fields.zip values).map Prod.snd = values := List.map_snd_zip fits.2
          refine .list (List.forall_mem_cons.mpr ⟨isScalar_of_cacheType? typed, ?_⟩)
          intro value member
          obtain ⟨⟨name, value⟩, given, rfl⟩ := List.mem_map.mp (whole ▸ member)
          exact isScalar_of_cacheOf read (List.of_mem_zip given).1 (lookup_of_mem distinct given)
      · cases read

theorem sectionShape_of_cache? {node : Node} (read : cache? node = some config) :
    SectionShape node := by
  unfold cache? at read
  split at read
  · cases read
  · cases node with
    | scalar tag style text => cases read
    | sequence tag items => exact sectionShape_of_cacheOfItems? read
    | mapping tag pairs => exact sectionShape_of_cacheOfPairs? read

end Section

theorem documentShape_of_ofNode? {document : Node} {config : Config}
    (accepted : ofNode? document = some config) : DocumentShape document := by
  obtain ⟨pairs, listed, read⟩ := Option.bind_eq_some_iff.mp accepted
  obtain ⟨fields, given, read⟩ := Option.bind_eq_some_iff.mp read
  obtain ⟨cache, cached, read⟩ := Option.bind_eq_some_iff.mp read
  obtain ⟨maps, mapped, -⟩ := Option.bind_eq_some_iff.mp read
  refine HasOnly.of_strictFields listed given ?_
  intro field declared value found
  simp only [List.mem_cons, List.not_mem_nil, or_false] at declared
  rcases declared with rfl | rfl
  · exact shape_of_optional cached found (fun _ => .scalar) fun node config => sectionShape_of_cache?
  · exact shape_of_listOf mapped found fun node map => mapShape_of_map?

/-! ## Entries that are ignored -/

/-- The entry is next to others in the section of a cache, and its key names no field of the cache. -/
def Ignored (others : List (Node × Node)) (pair : Node × Node) : Prop :=
  isTypeKey pair.1 = false ∧ isPlainContent contentDepth pair.1 = true ∧
    isPlainContent contentDepth pair.2 = true ∧
    ∀ kind, (∃ other ∈ others, isTypeKey other.1 = true ∧ cacheType? other.2 = some kind) →
      fieldName? kind pair.1 = some none

section Ignored

variable {kind : CacheType} {front back : List (Node × Node)} {pair : Node × Node}

theorem knownFields_insert (ignored : fieldName? kind pair.1 = some none) :
    knownFields kind (front ++ pair :: back) = knownFields kind (front ++ back) := by
  induction front with
  | nil =>
      obtain ⟨key, value⟩ := pair
      simp only at ignored
      rw [List.nil_append, List.nil_append, knownFields, ignored]
      cases knownFields kind back <;> rfl
  | cons first front ih =>
      obtain ⟨key, value⟩ := first
      rw [List.cons_append, List.cons_append, knownFields, knownFields, ih]

theorem cacheOfPairs?_insert (ignored : Ignored (front ++ back) pair) :
    cacheOfPairs? (front ++ pair :: back) = cacheOfPairs? (front ++ back) := by
  obtain ⟨other, plainKey, plainValue, names⟩ := ignored
  have types : (front ++ pair :: back).filter (fun pair => isTypeKey pair.1) =
      (front ++ back).filter fun pair => isTypeKey pair.1 := by
    simp [other]
  have others : (front ++ pair :: back).filter (not ∘ fun pair => isTypeKey pair.1) =
      front.filter (not ∘ fun pair => isTypeKey pair.1) ++
        pair :: back.filter (not ∘ fun pair => isTypeKey pair.1) := by
    simp [other]
  simp only [cacheOfPairs?, List.partition_eq_filter_filter, types, others]
  simp only [List.filter_append, List.all_append, List.all_cons, plainKey, plainValue,
    Bool.true_and]
  split
  · rfl
  · split
    · rfl
    · split
      · next key node single =>
          cases typed : cacheType? node with
          | none => rfl
          | some kind =>
              have isType : (key, node) ∈ (front ++ back).filter fun pair => isTypeKey pair.1 := by
                rw [List.filter_append, single]
                exact List.mem_singleton_self _
              obtain ⟨member, isType⟩ := List.mem_filter.mp isType
              have ignored := names kind ⟨_, member, isType, typed⟩
              simp only [Option.bind_eq_bind, Option.bind_some, knownFields_insert ignored]
      · rfl

theorem cache?_insert {tag : Option String} (ignored : Ignored (front ++ back) pair) :
    cache? (.mapping tag (front ++ pair :: back)) = cache? (.mapping tag (front ++ back)) := by
  simp only [cache?, cacheOfPairs?_insert ignored]
  rfl

end Ignored

/-- The same document with one more entry in the section of its cache, which is ignored. -/
inductive Pads : Node → Node → Prop where
  | insert {documentTag tag : Option String} {front back before after : List (Node × Node)}
      {key : Node} {pair : Node × Node} :
      key.text? = some "cache" → Ignored (before ++ after) pair →
      Pads (.mapping documentTag (front ++ (key, .mapping tag (before ++ after)) :: back))
        (.mapping documentTag (front ++ (key, .mapping tag (before ++ pair :: after)) :: back))

/-- Only what the section of the cache means is looked at. -/
theorem ofNode?_of_section {documentTag tag : Option String}
    {front back pairs others : List (Node × Node)} {key : Node} {config : Config}
    (named : key.text? = some "cache")
    (same : cache? (.mapping tag others) = cache? (.mapping tag pairs))
    (accepted : ofNode? (.mapping documentTag (front ++ (key, .mapping tag pairs) :: back)) =
      some config) :
    ofNode? (.mapping documentTag (front ++ (key, .mapping tag others) :: back)) = some config := by
  obtain ⟨fields, given, read⟩ := Option.bind_eq_some_iff.mp accepted
  obtain ⟨first, later, whole, replaced⟩ := strictFields_replace named given
  subst whole
  have distinct (node : Node) : ((first ++ ("cache", node) :: later).map Prod.fst).Nodup :=
    (strictFields_eq_some_iff.mp (replaced node)).2.2
  have cache (node : Node) : (first ++ ("cache", node) :: later).lookup "cache" = some node :=
    lookup_of_mem (distinct node) (by simp)
  have maps (node : Node) : (first ++ ("cache", node) :: later).lookup "maps" =
      (first ++ later).lookup "maps" := by
    simp [List.lookup_append, List.lookup_cons]
  have cached : optional (first ++ ("cache", .mapping tag others) :: later) "cache" cache? =
      optional (first ++ ("cache", .mapping tag pairs) :: later) "cache" cache? := by
    simp only [optional, cache, Node.present?, same]
  have mapped : listOf (first ++ ("cache", .mapping tag others) :: later) "maps" map? =
      listOf (first ++ ("cache", .mapping tag pairs) :: later) "maps" map? := by
    simp only [listOf, maps]
  refine Option.bind_eq_some_iff.mpr ⟨_, replaced _, ?_⟩
  rw [cached, mapped]
  exact read

/-- An accepted document has nothing but known fields, up to entries in the section of its cache that
name no field of the cache. One more of these does not change what is read. -/
theorem accepted_fields_are_known {document : Node} {config : Config}
    (accepted : ofNode? document = some config) :
    DocumentShape document ∧ ∀ padded, Pads document padded → ofNode? padded = some config := by
  refine ⟨documentShape_of_ofNode? accepted, ?_⟩
  intro padded pads
  cases pads with
  | insert named ignored => exact ofNode?_of_section named (cache?_insert ignored) accepted

def word (text : String) : Node := .scalar none .plain text

/-- The document of a cache in memory, with further entries in the section of the cache. -/
def memoryDocument (entries : List (Node × Node)) : Node :=
  .mapping none [(word "cache", .mapping none ((word "type", word "memory") :: entries))]

theorem ignored_colour :
    Ignored ([(word "type", word "memory")] ++ []) (word "colour", word "red") := by
  refine ⟨by decide +kernel, by decide +kernel, by decide +kernel, ?_⟩
  intro kind typed
  cases kind <;> decide +kernel

theorem memory_document_is_accepted_padded :
    DocumentShape (memoryDocument []) ∧
      ofNode? (memoryDocument [(word "colour", word "red")]) =
        some { cache := some (.memory none) } := by
  have accepted : ofNode? (memoryDocument []) = some { cache := some (.memory none) } := by
    decide +kernel
  obtain ⟨shape, unchanged⟩ := accepted_fields_are_known accepted
  have pads : Pads
      (.mapping none ([] ++
        (word "cache", .mapping none ([(word "type", word "memory")] ++ [])) :: []))
      (.mapping none ([] ++
        (word "cache", .mapping none ([(word "type", word "memory")] ++
          (word "colour", word "red") :: [])) :: [])) :=
    .insert rfl ignored_colour
  exact ⟨shape, unchanged _ pads⟩

/-- A misspelt field of a cache is ignored. -/
theorem unknown_field_of_cache_is_accepted :
    ofNode? (memoryDocument [(word "colour", word "red")]) =
        some { cache := some (.memory none) } ∧
      ofText? "cache:\n  type: memory\n  colour: red\n" =
        some { cache := some (.memory none) } ∧
      ∀ name ∈ ["type", "path", "max_zoom"], (word "colour").text? ≠ some name := by
  decide +kernel

end TilePyramid.Config
