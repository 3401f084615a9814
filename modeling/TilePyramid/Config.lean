import TilePyramid.Atlas
import TilePyramid.Cache
import TilePyramid.Yaml.Scalar

/-!
# Configurations

A configuration names a cache, if there is one, and the maps. It is written in YAML, and a relative
directory in it starts where its file is.
-/

set_option autoImplicit false

namespace TilePyramid

/-- Where tiles are kept, and down to which level. -/
inductive CacheConfig where
  | memory (maxZoom : Option Nat)
  | directory (path : Files.Path) (maxZoom : Option Nat)
deriving DecidableEq

namespace CacheConfig

/-- A relative directory as seen from a base. -/
def resolve (base : Files.Path) : CacheConfig → CacheConfig
  | .memory maxZoom => .memory maxZoom
  | .directory path maxZoom =>
      .directory (if Files.Path.isAbsolute path then path else Files.Path.join base path) maxZoom

def build : CacheConfig → Cache
  | .memory maxZoom => Cache.memory maxZoom
  | .directory path maxZoom => Cache.directory path maxZoom

end CacheConfig

structure Config where
  cache : Option CacheConfig := none
  maps : List Map := []
deriving DecidableEq

namespace Config

/-- The configuration read from a file: a relative directory starts where the file is. -/
def resolve (config : Config) (file : Files.Path) : Config :=
  match Files.Path.parent? file with
  | some base => { config with cache := config.cache.map (·.resolve base) }
  | none => config

/-- The maps with their cache, unless two maps have one name. -/
def atlas (config : Config) : Except Report Atlas :=
  Atlas.ofMaps config.maps (config.cache.map CacheConfig.build)

/-!
## Reading configurations

A configuration is written in YAML. At the top, in maps and in layers every field has to be one that
is known, and may be given once. The fields of a cache depend on its type; other fields of a cache
are allowed and ignored. A cache may also be written as a list of its type and its fields, and its
fields may be named by their places.
-/

open Text.Utf8 (Bytes)
open Yaml (Node Scalar)

def levelLimit : Nat := 256

abbrev Fields := List (String × Node)

/-- The fields of a mapping, each of which has to be known and given once. -/
def strictFields (known : List String) : List (Node × Node) → Option Fields
  | [] => some []
  | (key, value) :: rest => do
      let name ← key.text?
      let fields ← strictFields known rest
      if known.contains name && (fields.lookup name).isNone then some ((name, value) :: fields)
      else none

/-- Reads a field that may be missing or null. -/
def optional {α : Type} (fields : Fields) (name : String) (read : Node → Option α) :
    Option (Option α) :=
  match fields.lookup name with
  | none => some none
  | some node =>
      match node.present? with
      | none => none
      | some none => some none
      | some (some node) => (read node).map some

def required {α : Type} (fields : Fields) (name : String) (read : Node → Option α) : Option α :=
  (fields.lookup name).bind read

/-- Reads a field that holds a list, by default an empty one. -/
def listOf {α : Type} (fields : Fields) (name : String) (read : Node → Option α) :
    Option (List α) :=
  match fields.lookup name with
  | none => some []
  | some node => node.items?.bind (·.mapM read)

def layer? (node : Node) : Option Layer := do
  let fields ← strictFields ["name", "min_zoom", "max_zoom"] (← node.pairs?)
  return { name := ← required fields "name" Node.text?
           minZoom := ← optional fields "min_zoom" (Node.natural? levelLimit)
           maxZoom := ← optional fields "max_zoom" (Node.natural? levelLimit) }

def map? (node : Node) : Option Map := do
  let fields ← strictFields ["name", "source", "layers"] (← node.pairs?)
  return { name := ← required fields "name" Node.text?
           source := ← optional fields "source" Node.text?
           layers := ← listOf fields "layers" layer? }

/-! ### Caches -/

/-- How deep values in the section of a cache may be nested; a whole document may be nested two
levels deeper. -/
def contentDepth : Nat := 126

/-- The value is nested no deeper than allowed, asks for no type of its own, and its integers have a
place in 64 bits. -/
def isPlainContent : (depth : Nat) → Node → Bool
  | _, .scalar tag style text =>
      !(Node.scalar tag style text).isCustom &&
        (match Scalar.ofScalar? tag style text with
          | none | some .large => false
          | some _ => true)
  | 0, _ => false
  | depth + 1, .sequence tag items =>
      !(Node.sequence tag items).isCustom && items.all (isPlainContent depth)
  | depth + 1, .mapping tag pairs =>
      !(Node.mapping tag pairs).isCustom &&
        pairs.all fun pair => isPlainContent depth pair.1 && isPlainContent depth pair.2

def meaning? : Node → Option Scalar
  | .scalar tag style text => Scalar.ofScalar? tag style text
  | _ => none

def path? (node : Node) : Option Files.Path :=
  match meaning? node with
  | some (.text text) => some text
  | _ => none

/-- Reads a level that may be null. -/
def level? (node : Node) : Option (Option Nat) :=
  match meaning? node with
  | some .null => some none
  | some (.natural value) => if value < levelLimit then some (some value) else none
  | some (.negative 0) => some (some 0)
  | _ => none

inductive CacheType where
  | memory
  | directory
deriving DecidableEq

def cacheType? (node : Node) : Option CacheType :=
  match node.text? with
  | some "memory" => some .memory
  | some "directory" => some .directory
  | _ => none

def CacheType.fields : CacheType → List String
  | .memory => ["max_zoom"]
  | .directory => ["path", "max_zoom"]

/-- The field that a key names, by its name or its place; other names and places are ignored, and
other keys are none. -/
def fieldName? (kind : CacheType) (key : Node) : Option (Option String) :=
  match meaning? key with
  | some (.text text) => some (if kind.fields.contains text then some text else none)
  | some (.natural place) => some kind.fields[place]?
  | _ => none

/-- The known fields of a cache, each of which may be given once. -/
def knownFields (kind : CacheType) : List (Node × Node) → Option Fields
  | [] => some []
  | (key, value) :: rest => do
      let fields ← knownFields kind rest
      match ← fieldName? kind key with
      | none => some fields
      | some name => if (fields.lookup name).isNone then some ((name, value) :: fields) else none

def cacheOf (kind : CacheType) (fields : Fields) : Option CacheConfig := do
  let maxZoom ← match fields.lookup "max_zoom" with
    | none => some none
    | some node => level? node
  match kind with
  | .memory => some (.memory maxZoom)
  | .directory => some (.directory (← required fields "path" path?) maxZoom)

def isTypeKey (key : Node) : Bool :=
  match meaning? key with
  | some (.text text) => text == "type"
  | _ => false

/-- Reads a cache that is written as a mapping. -/
def cacheOfPairs? (pairs : List (Node × Node)) : Option CacheConfig := do
  let (types, others) := pairs.partition fun pair => isTypeKey pair.1
  if !pairs.all (fun pair => isPlainContent contentDepth pair.1) then none
  else if !others.all (fun pair => isPlainContent contentDepth pair.2) then none
  else
    match types with
    | [(_, node)] => do
        let kind ← cacheType? node
        cacheOf kind (← knownFields kind others)
    | _ => none

/-- Reads a cache that is written as a list. -/
def cacheOfItems? (items : List Node) : Option CacheConfig :=
  match items with
  | [] => none
  | node :: values => do
      let kind ← cacheType? node
      if values.all (isPlainContent contentDepth) ∧ values.length ≤ kind.fields.length then
        cacheOf kind (kind.fields.zip values)
      else none

def cache? (node : Node) : Option CacheConfig :=
  if node.isCustom then none
  else
    match node with
    | .mapping _ pairs => cacheOfPairs? pairs
    | .sequence _ items => cacheOfItems? items
    | .scalar .. => none

/-- The configuration that a document holds. -/
def ofNode? (node : Node) : Option Config := do
  let fields ← strictFields ["cache", "maps"] (← node.pairs?)
  return { cache := ← optional fields "cache" cache?
           maps := ← listOf fields "maps" map? }

def ofText? (text : String) : Option Config := (Node.ofText? text.toList).bind ofNode?

/-- The code units of two bytes each; `first` is the weight of the first byte of each. -/
def unitsOf (bigEndian : Bool) : Bytes → Option (List Nat)
  | [] => some []
  | [_] => none
  | a :: b :: rest =>
      let unit := if bigEndian then a.toNat * 256 + b.toNat else b.toNat * 256 + a.toNat
      (unitsOf bigEndian rest).map (unit :: ·)

/-- The text that code units of 16 bits write. -/
def ofUnits : List Nat → Option (List Char)
  | [] => some []
  | unit :: rest =>
      if 0xD800 ≤ unit ∧ unit < 0xDC00 then
        match rest with
        | low :: rest =>
            if 0xDC00 ≤ low ∧ low < 0xE000 then
              (ofUnits rest).map
                (Char.ofNat (0x10000 + (unit - 0xD800) * 0x400 + (low - 0xDC00)) :: ·)
            else none
        | [] => none
      else if 0xDC00 ≤ unit ∧ unit < 0xE000 then none
      else (ofUnits rest).map (Char.ofNat unit :: ·)

/-- The text of a file: UTF-8, or what its first two bytes tell. -/
def decode? : Bytes → Option (List Char)
  | 0xFF :: 0xFE :: rest => (unitsOf false rest).bind ofUnits
  | 0xFE :: 0xFF :: rest => (unitsOf true rest).bind ofUnits
  | bytes =>
      match Text.Utf8.decode bytes with
      | .ok text => some text.toList
      | .error _ => none

/-- The configuration that the content of a file holds. -/
def ofBytes? (bytes : Bytes) : Option Config :=
  (decode? bytes).bind fun text => (Node.ofText? text).bind ofNode?

end Config

end TilePyramid
