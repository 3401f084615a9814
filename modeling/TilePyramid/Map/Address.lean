import TilePyramid.Effect
import TilePyramid.Error
import TilePyramid.Map
import TilePyramid.Text

/-!
# Addresses of tiles

A map's source is a template. The marks for the map, the level, the column, the row and the layers
are replaced one kind after the other, each over the whole text. What comes of fetching an address
is told for a surrounding without a network.
-/

set_option autoImplicit false

namespace TilePyramid

namespace Map

/-- A mark of a template: a name in braces. -/
def mark (name : String) : List Char := '\x7b' :: name.toList ++ ['\x7d']

/-- The values of a template's marks, in the order in which they are filled in. -/
def markValues (map : Map) (tile : Tile) : List (List Char × List Char) :=
  [(mark "map", map.name.toList), (mark "z", Nat.toDigits 10 tile.level),
    (mark "x", Nat.toDigits 10 tile.x), (mark "y", Nat.toDigits 10 tile.y),
    (mark "layers", (String.intercalate "," map.layerNames).toList)]

def fillIn (template : List Char) (values : List (List Char × List Char)) : List Char :=
  values.foldl (fun text value => Text.replaceAll value.1 value.2 text) template

def noSource (map : Map) : Report := .message s!"map ({map.name}) has no source to seed from"

def addressOf (map : Map) (tile : Tile) : Except Report String :=
  match map.source with
  | some template => .ok (String.ofList (fillIn template.toList (map.markValues tile)))
  | none => .error map.noSource

theorem addressOf_eq_error_iff {map : Map} {tile : Tile} {report : Report} :
    map.addressOf tile = .error report ↔ map.source = none ∧ report = map.noSource := by
  unfold addressOf
  split <;> simp_all [eq_comm]

end Map

/-!
## Sources without a network

What comes of fetching a tile where no network can be used. A map without a source, and an address
that names no host, fail in their own way; no other address can be reached.
-/

namespace Address

/-- The scheme of an address in lower case, and what follows the colon after it. -/
def splitScheme (address : List Char) : Option (List Char × List Char) :=
  match address.span (· ≠ ':') with
  | (first :: others, _ :: rest) =>
      if first.isAlpha ∧ others.all fun c => c.isAlphanum || c == '+' || c == '-' || c == '.' then
        some ((first :: others).map Char.toLower, rest)
      else none
  | _ => none

def usableSchemes : List String := ["http", "https"]

/-- The schemes whose addresses have a host, however many slashes stand before it. -/
def hostSchemes : List String := usableSchemes ++ ["ftp", "ws", "wss"]

/-- A slash of an address with a host. -/
def isSlash (c : Char) : Bool := c == '/' || c == '\\'

/-- The host of an address and what follows it. -/
def splitHost (rest : List Char) : List Char × List Char :=
  (rest.dropWhile isSlash).span fun c => !(isSlash c || c == '?' || c == '#')

/-- The address as it is written in reports: a host is followed by a slash. -/
def written (scheme : String) (rest : List Char) : String :=
  if scheme ∈ hostSchemes then
    let (host, path) := splitHost rest
    let root := if path.head?.any isSlash then "" else "/"
    scheme ++ "://" ++ String.ofList host ++ root ++ String.ofList path
  else scheme ++ ":" ++ String.ofList rest

def fault (address : String) : Report :=
  match splitScheme address.toList with
  | none => .within "builder error" (.message "relative URL without a base")
  | some (letters, rest) =>
      let scheme := String.ofList letters
      if scheme ∈ hostSchemes ∧ (splitHost rest).1 = [] then
        .within "builder error" (.message "empty host")
      else if scheme ∈ usableSchemes then
        .message s!"error sending request for url ({written scheme rest})"
      else
        .within s!"builder error for url ({written scheme rest})"
          (.message "URL scheme is not allowed")

end Address

def Map.fetchOffline (map : Map) (tile : Tile) : SourceReply :=
  match map.addressOf tile with
  | .error report => { answer := .now (.error report) }
  | .ok address =>
      { answer := .now (.error (.within s!"fetching '{address}'" (Address.fault address))) }

end TilePyramid
