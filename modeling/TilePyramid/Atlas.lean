import TilePyramid.Cache
import TilePyramid.Program

/-!
# Atlases

An atlas is the maps of a configuration and their cache. It renders a tile of a map into the cache
and removes one from there.
-/

set_option autoImplicit false

namespace TilePyramid

/-- The maps of a configuration in their order, and the cache of their tiles. -/
structure Atlas where
  maps : List Map
  cache : Option Cache

/-- A task that asks the world. -/
abbrev Work (α : Type) := Task Effect Effect.Reply α

/-- A program that asks the world, as a task. -/
def Work.ofAction {α : Type} (action : Action α) : Work α := Task.ofProgram action

def Work.ask (effect : Effect) : Work effect.Reply := Task.perform effect

namespace Atlas

/-- The first map of a list that has the name of one before it. -/
def duplicate? : (seen : List String) → List Map → Option Map
  | _, [] => none
  | seen, map :: rest => if map.name ∈ seen then some map else duplicate? (map.name :: seen) rest

/-- The atlas of maps whose names differ. -/
def ofMaps (maps : List Map) (cache : Option Cache) : Except Report Atlas :=
  match duplicate? [] maps with
  | some map => .error (.message s!"map ({map.name}) is defined more than once")
  | none => .ok { maps, cache }

def names (atlas : Atlas) : List String := atlas.maps.map Map.name

def map? (atlas : Atlas) (name : String) : Except Error Map :=
  match atlas.maps.find? (·.name = name) with
  | some map => .ok map
  | none => .error (.unknownMap name)

/-- The cache, which runs cannot do without. -/
def requireCache (atlas : Atlas) : Except Error Cache :=
  match atlas.cache with
  | some cache => .ok cache
  | none => .error .missingCache

/-- Asks the source for a tile of a map, unless the run is cancelled before it answers. A source
may report a cancellation of its own. -/
def fetch (map : Map) (tile : Tile) : Work (Except Error (List UInt8)) := do
  if ← Task.isCancelled then return .error .canceled
  let reply ← Work.ask (.fetch map tile)
  if reply.cancelsRun then Task.cancel
  match reply.answer with
  | .never =>
      Task.untilCancelled
      return .error .canceled
  | .later result =>
      if ← Task.isCancelled then return .error .canceled
      return classify result
  | .now result => return classify result
where
  /-- The error of the run for what a source reports. -/
  classify (result : Except Report (List UInt8)) : Except Error (List UInt8) :=
    result.mapError fun report =>
      if report.isCanceled then .canceled else .renderFailure report.text

/-- The error of the run for what a cache reports. -/
def cacheError (report : Report) : Error := .cacheFailure report.text

def render (atlas : Atlas) (map : Map) (tile : Tile) : Work (Except Error Unit) := do
  match atlas.requireCache with
  | .error error => return .error error
  | .ok cache =>
    match ← fetch map tile with
    | .error error => return .error error
    | .ok content =>
      let stored ← Work.ofAction (cache.set { map := map.name, tile } content)
      return stored.mapError cacheError

def remove (atlas : Atlas) (map : Map) (tile : Tile) : Work (Except Error Unit) := do
  match atlas.requireCache with
  | .error error => return .error error
  | .ok cache =>
    let removed ← Work.ofAction (cache.purge { map := map.name, tile })
    return removed.mapError cacheError

end Atlas

end TilePyramid
