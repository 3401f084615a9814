import TilePyramid.Command
import TilePyramid.Config
import TilePyramid.Operation
import TilePyramid.Pool.Run

/-!
# Running commands

A command is prepared and then run. Preparing reads the configuration and what was given, and
changes nothing: of several mistakes the first is reported, and no tile is touched before all was
found good.
-/

set_option autoImplicit false

namespace TilePyramid.Command

/-- Why a command fails. -/
inductive Failure where
  /-- The file holds no configuration. -/
  | invalidConfig (file : Files.Path)
  | report (report : Report)
deriving DecidableEq

/-- The texts of a failure, the outermost first; `detail` says what is wrong with a
configuration. -/
def Failure.chain (detail : String) : Failure → List String
  | .invalidConfig file => [s!"parsing config file {Text.quoted .path file}", detail]
  | .report told => told.chain

/-- How a command ends. A cancellation is no failure. -/
inductive Ending where
  | finished
  | canceled
  | failed (failure : Failure)

/-- The status that a program exits with after a command. -/
def Ending.exitCode : Ending → Nat
  | .finished | .canceled => 0
  | .failed _ => 1

/-- Why a command fails, if it does. -/
def Ending.failure? : Ending → Option Failure
  | .failed failure => some failure
  | .finished | .canceled => none

/-- The configuration in a file. A directory can be opened, but is no configuration. -/
def loadConfig (file : Files.Path) : Action (Except Failure Config) := do
  match ← Action.of (.readFile file) with
  | .ok text =>
      match Config.ofBytes? text with
      | some config => return .ok (config.resolve file)
      | none => return .error (.invalidConfig file)
  | .error .isADirectory => return .error (.invalidConfig file)
  | .error fault =>
      return .error (.report
        (.within s!"opening config file {Text.quoted .path file}" (.message fault.message)))

/-- The names of the maps to work on: all of them, or the one that the command names. -/
def targets (command : Command) (atlas : Atlas) : Except Error (List String) := do
  let names ← match command.map with
    | some name => (atlas.map? name).map fun map => [map.name]
    | none => .ok atlas.names
  if names = [] then .error .noMaps else .ok names

/-- The work on each job. -/
def operation (command : Command) (atlas : Atlas) : Except Error Operation :=
  match command.activity with
  | .seed =>
      Operation.seedOf atlas
        { overwrite := command.overwrite, logThreshold := command.logThreshold }
  | .purge => Operation.purgeOf atlas

/-- What a run is given by a command and a configuration. -/
def plan (command : Command) (config : Config) : Except Report (Plan Effect Effect.Reply) := do
  let atlas ← config.atlas
  let targets ← (command.targets atlas).mapError .error
  let operation ← (command.operation atlas).mapError .error
  return { targets, operation }

/-- A report of what happened after the plan was made. -/
def afterPlan (command : Command) (report : Report) : Failure :=
  .report (.within s!"cache {command.activity.text} failed" report)

/-- The tiles of a command for a run with given maps. -/
def generator (command : Command) (targets : List String) :
    Action (Except Report Generator) := do
  match command.scope with
  | .error error => return .error (.error error)
  | .ok scope =>
      Action.of (.log scope.logEntry)
      scope.generator targets

def prepare (command : Command) :
    Action (Except Failure (Plan Effect Effect.Reply × Generator)) := do
  match ← loadConfig command.config with
  | .error failure => return .error failure
  | .ok config =>
      match command.plan config with
      | .error report => return .error (.report report)
      | .ok plan =>
          match ← command.generator plan.targets with
          | .error report => return .error (command.afterPlan report)
          | .ok generator => return .ok (plan, generator)

/-- The end of a command whose run has a result, with what the log says of it. -/
def conclude (command : Command) : Except Error Unit → Action Ending
  | .ok () => do
      Action.of (.log (.finished command.activity))
      return .finished
  | .error .canceled => do
      Action.of (.log (.canceled command.activity))
      return .canceled
  | .error error => return .failed (command.afterPlan (.error error))

/-- Runs a command; `workers` is the number of workers unless the command has one. Interrupts are left
out: the steps of the pool are those it takes by itself, and none of them is a cancellation from
outside. A run that cannot go on by itself is left to its user to cancel. -/
def run {m : Type → Type} [Monad m] (answer : (effect : Effect) → m effect.Reply) (workers : Nat)
    (command : Command) : m Ending := do
  match ← command.prepare.run answer with
  | .error failure => return .failed failure
  | .ok (plan, generator) =>
      let start := Pool.start generator (command.concurrency.getD workers) false
      let (pool, _) ← Pool.run plan answer start []
      (command.conclude (pool.result?.getD (.error .canceled))).run answer

end TilePyramid.Command
