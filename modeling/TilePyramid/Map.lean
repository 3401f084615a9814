import TilePyramid.Tile

/-!
# Maps

A map has a name, layers that are each active at some levels, and perhaps a template for the
addresses that its tiles are fetched from. A job is one tile of a named map.
-/

set_option autoImplicit false

namespace TilePyramid

/-- A layer of a map, active between its bounds; a missing bound does not limit it. -/
structure Layer where
  name : String
  minZoom : Option Nat := none
  maxZoom : Option Nat := none
deriving DecidableEq

def Layer.isActiveAt (layer : Layer) (level : Nat) : Bool :=
  layer.minZoom.all (· ≤ level) && layer.maxZoom.all (level ≤ ·)

/-- A map with its layers in the order they are drawn. -/
structure Map where
  name : String
  source : Option String := none
  layers : List Layer := []
deriving DecidableEq

namespace Map

def atLevel (map : Map) (level : Nat) : Map :=
  { map with layers := map.layers.filter (·.isActiveAt level) }

def layerNames (map : Map) : List String := map.layers.map Layer.name

@[simp] theorem name_atLevel (map : Map) (level : Nat) : (map.atLevel level).name = map.name := rfl

end Map

/-- One tile of a named map. -/
structure Job where
  map : String
  tile : Tile
deriving DecidableEq

def Job.text (job : Job) : String := s!"map ({job.map}) tile ({job.tile.text})"

/-- A generated piece of work: a tile that is meant for every target map, or a job. -/
inductive Item where
  | tile (bare : Tile)
  | job (given : Job)
deriving DecidableEq

/-- The jobs of an item: a bare tile is crossed with the target maps, a job stands for itself. -/
def Item.jobs (targets : List String) : Item → List Job
  | .tile bare => targets.map (⟨·, bare⟩)
  | .job given => [given]

@[simp] theorem Item.jobs_job (targets : List String) (job : Job) :
    (Item.job job).jobs targets = [job] := rfl

end TilePyramid
