import TilePyramid.Command
import TilePyramid.Text

/-!
# Command lines

A command line leads through places: the program, its cache, an activity, and a tile list or a tile
name. Each place has its options, and the words that lead to the next place. The value of a setting
is looked at when something else of its place comes after it, or when the place ends, so a question
for help is answered unless a mistake was seen before it.
-/

set_option autoImplicit false

namespace TilePyramid.Command

/-- Why a command line is not run. -/
inductive Usage where
  /-- It asks for help or for the version. -/
  | asked
  | wrong
deriving DecidableEq

/-- The status that a program exits with instead of running a command. -/
def Usage.exitCode : Usage → Nat
  | .asked => 0
  | .wrong => 2

/-- Where a command line leads. -/
inductive Place where
  | program
  | cache
  | activity (activity : Activity)
  | list
  | tile
deriving DecidableEq

/-- Options without a value. -/
inductive Switch where
  | help
  | version
  | verbose
  | quiet
  | overwrite
deriving DecidableEq

/-- Options with a value. -/
inductive Setting where
  | config
  | map
  | concurrency
  | logThreshold
  | bounds
  | minZoom
  | maxZoom
  | format
deriving DecidableEq

inductive Choice where
  | switch (switch : Switch)
  | setting (setting : Setting)
deriving DecidableEq

def Choice.name : Choice → String
  | .switch .help => "help"
  | .switch .version => "version"
  | .switch .verbose => "verbose"
  | .switch .quiet => "quiet"
  | .switch .overwrite => "overwrite"
  | .setting .config => "config"
  | .setting .map => "map"
  | .setting .concurrency => "concurrency"
  | .setting .logThreshold => "log-threshold"
  | .setting .bounds => "bounds"
  | .setting .minZoom => "min-zoom"
  | .setting .maxZoom => "max-zoom"
  | .setting .format => "format"

def Choice.letter? : Choice → Option Char
  | .switch .help => some 'h'
  | .switch .version => some 'V'
  | .switch .verbose => some 'v'
  | .switch .quiet => some 'q'
  | .setting .config => some 'c'
  | _ => none

namespace Place

/-- The options that every place has. -/
def common : List Choice := [.switch .help, .switch .verbose, .switch .quiet]

def choices : Place → List Choice
  | .program => .switch .version :: common
  | .cache => common
  | .activity _ =>
      [.setting .config, .setting .map, .setting .concurrency, .switch .overwrite,
        .setting .logThreshold, .setting .bounds, .setting .minZoom, .setting .maxZoom] ++ common
  | .list | .tile => [.setting .format, .setting .minZoom, .setting .maxZoom] ++ common

def byName? (place : Place) (name : String) : Option Choice :=
  place.choices.find? (·.name == name)

def byLetter? (place : Place) (letter : Char) : Option Choice :=
  place.choices.find? (·.letter? == some letter)

def next? : Place → String → Option Place
  | .program, "cache" => some .cache
  | .cache, "seed" => some (.activity .seed)
  | .cache, "purge" => some (.activity .purge)
  | .activity _, "tile-list" => some .list
  | .activity _, "tile-name" => some .tile
  | _, _ => none

/-- The place takes one word: a file name or a tile name. -/
def takesWord : Place → Bool
  | .list | .tile => true
  | _ => false

end Place

structure Given where
  config : Option String := none
  map : Option String := none
  concurrency : Option Nat := none
  logThreshold : Option Nat := none
  bounds : Option String := none
  minZoom : Option Nat := none
  maxZoom : Option Nat := none
  format : Option String := none
  word : Option String := none
  overwrite : Bool := false
  verbose : Nat := 0
  quiet : Nat := 0
deriving DecidableEq

/-- Counts and sizes have 64 bits. -/
def countLimit : Nat := Nat.pow 2 64

/-- The level that a text writes. Levels fit in a byte; a minus sign can only stand before zero. -/
def readLevel : List Char → Option Nat
  | '-' :: '+' :: _ => none
  | '-' :: digits => Text.readNatural 1 digits
  | text => Text.readNatural 256 text

/-- A valid value where none was given before. -/
def firstValue {α : Type} (before value : Option α) : Option (Option α) :=
  match before, value with
  | none, some value => some (some value)
  | _, _ => none

namespace Given

/-- Takes the value of a setting. It can be given once, and it has to be valid. -/
def set? (given : Given) (setting : Setting) (text : String) : Option Given := do
  match setting with
  | .config =>
      let path := if text.toList = [] then none else some text
      return { given with config := ← firstValue given.config path }
  | .map => return { given with map := ← firstValue given.map (some text) }
  | .concurrency =>
      let count := Text.readNatural countLimit text.toList
      return { given with concurrency := ← firstValue given.concurrency count }
  | .logThreshold =>
      let milliseconds := Text.readNatural countLimit text.toList
      return { given with logThreshold := ← firstValue given.logThreshold milliseconds }
  | .bounds => return { given with bounds := ← firstValue given.bounds (some text) }
  | .minZoom =>
      return { given with minZoom := ← firstValue given.minZoom (readLevel text.toList) }
  | .maxZoom =>
      return { given with maxZoom := ← firstValue given.maxZoom (readLevel text.toList) }
  | .format => return { given with format := ← firstValue given.format (some text) }

def countMax : Nat := 255

def turnOn (given : Given) : Switch → Except Usage Given
  | .help | .version => .error .asked
  | .verbose => .ok { given with verbose := min countMax (given.verbose + 1) }
  | .quiet => .ok { given with quiet := min countMax (given.quiet + 1) }
  | .overwrite => if given.overwrite then .error .wrong else .ok { given with overwrite := true }

/-- What was given is enough for a place; `led` tells whether the command line leads further. More
and less cannot both be asked for at one place. -/
def isComplete (given : Given) (led : Bool) (place : Place) : Bool :=
  (given.verbose == 0 || given.quiet == 0) &&
    match place with
    | .program | .cache => led
    | .activity _ => given.config.isSome
    | .list | .tile => given.word.isSome

end Given

/-- How far the words of a place have been read. -/
structure Reading where
  given : Given := {}
  /-- The last setting, with its value if that was read. -/
  pending : Option (Setting × Option String) := none
  /-- Only words follow. -/
  onlyWords : Bool := false
deriving DecidableEq

namespace Reading

/-- The setting whose value comes next. -/
def awaited? (reading : Reading) : Option Setting :=
  match reading.pending with
  | some (setting, none) => some setting
  | _ => none

/-- Takes the value of the last setting. -/
def settle (reading : Reading) : Except Usage Reading :=
  match reading.pending with
  | none => .ok reading
  | some (_, none) => .error .wrong
  | some (setting, some text) =>
      match reading.given.set? setting text with
      | some given => .ok { reading with given, pending := none }
      | none => .error .wrong

def turnOn (reading : Reading) (switch : Switch) : Except Usage Reading := do
  let settled ← reading.settle
  return { settled with given := ← settled.given.turnOn switch }

/-- Takes a setting with its value, or waits for the value. -/
def assign (reading : Reading) (setting : Setting) (value : Option String) :
    Except Usage Reading := do
  let settled ← reading.settle
  let next : Reading := { settled with pending := some (setting, value) }
  if value.isSome then next.settle else return next

/-- Takes an option by its long name, which may be followed by a value. -/
def long (place : Place) (reading : Reading) (name : String) (value : Option String) :
    Except Usage Reading :=
  match place.byName? name, value with
  | some (.setting setting), _ => reading.assign setting value
  | some (.switch switch), none => reading.turnOn switch
  | _, _ => .error .wrong

/-- Takes options by their letters. What follows the letter of a setting is its value. -/
def letters (place : Place) (reading : Reading) : List Char → Except Usage Reading
  | [] => .ok reading
  | letter :: rest =>
      match place.byLetter? letter with
      | some (.switch switch) => do letters place (← reading.turnOn switch) rest
      | some (.setting setting) =>
          reading.assign setting <|
            match rest with
            | [] => none
            | '=' :: value => some (String.ofList value)
            | value => some (String.ofList value)
      | none => .error .wrong

/-- Takes a word: the value that comes next, or the word of the place. -/
def word (place : Place) (reading : Reading) (text : String) : Except Usage Reading := do
  match reading.awaited?, reading.onlyWords with
  | some setting, false => return { reading with pending := some (setting, some text) }
  | _, _ =>
      let settled ← reading.settle
      if place.takesWord ∧ settled.given.word = none then
        return { settled with given := { settled.given with word := some text } }
      else .error .wrong

/-- The name of a long option and the value after its equals sign. -/
def splitValue (text : List Char) : String × Option String :=
  (String.ofList (text.takeWhile (· ≠ '=')),
    match text.dropWhile (· ≠ '=') with
    | [] => none
    | _ :: value => some (String.ofList value))

/-- Reads an argument. Bounds may start with a hyphen, other values may not. -/
def read (place : Place) (reading : Reading) (argument : String) : Except Usage Reading :=
  if reading.onlyWords || reading.awaited? == some .bounds then reading.word place argument
  else
    match argument.toList with
    | ['-', '-'] => .ok { reading with onlyWords := true }
    | '-' :: '-' :: text =>
        let (name, value) := splitValue text
        reading.long place name value
    | '-' :: letter :: rest => reading.letters place (letter :: rest)
    | _ => reading.word place argument

def next? (place : Place) (reading : Reading) (argument : String) : Option Place :=
  if reading.onlyWords || reading.awaited?.isSome then none else place.next? argument

def finish (place : Place) (reading : Reading) (led : Bool) : Except Usage Given := do
  let settled ← reading.settle
  if settled.given.isComplete led place then return settled.given else .error .wrong

/-- Reads the arguments from a place on: what was given there and at the places that follow. -/
def readAll (place : Place) (reading : Reading) :
    List String → Except Usage (List (Place × Given))
  | [] => do return [(place, ← reading.finish place false)]
  | argument :: rest =>
      match reading.next? place argument with
      | some next => do
          let inner ← readAll next {} rest
          return (place, ← reading.finish place true) :: inner
      | none => do readAll place (← reading.read place argument) rest

end Reading

/-- The count that was given last, the outermost place first. -/
def lastCount (counts : List Nat) : Nat := (counts.reverse.find? (· ≠ 0)).getD 0

/-- The command of an activity and the places that led to it; `inner` is what was given after it. -/
def ofGiven (activity : Activity) (run inner : Given) (places : List Given)
    (selection : Selection) : Command where
  activity
  config := run.config.getD ""
  map := run.map
  concurrency := run.concurrency
  overwrite := run.overwrite
  logThreshold := run.logThreshold.getD 0
  minZoom := inner.minZoom.or run.minZoom
  maxZoom := inner.maxZoom.or run.maxZoom
  selection
  verbosity := ⟨lastCount (places.map Given.verbose), lastCount (places.map Given.quiet)⟩

def ofArguments (arguments : List String) : Except Usage Command := do
  let places ← Reading.readAll .program {} arguments
  let givens := places.map Prod.snd
  match places with
  | [_, _, (.activity activity, run)] =>
      return ofGiven activity run {} givens (.region (run.bounds.getD usualBounds))
  | [_, _, (.activity activity, run), (.list, inner)] =>
      return ofGiven activity run inner givens
        (.list (inner.word.getD "") (inner.format.getD usualFormat))
  | [_, _, (.activity activity, run), (.tile, inner)] =>
      return ofGiven activity run inner givens
        (.tile (inner.word.getD "") (inner.format.getD usualFormat))
  | _ => .error .wrong

end TilePyramid.Command
