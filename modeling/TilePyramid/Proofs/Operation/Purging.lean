import TilePyramid.Proofs.Cache.Directory
import TilePyramid.Proofs.Files.Clearing
import TilePyramid.Proofs.Operation.Alone
import TilePyramid.Proofs.Operation.Contract
import TilePyramid.Proofs.Pool.Unattended

/-!
# Purging from a directory cache

Purging a job removes the file at the entry of its tile, and does nothing else but telling so. Done
for one job after the other, it clears the entries up to the first that cannot be removed. Main
statements: `purge_directory_on` and `InSequence.purgedUpTo`.
-/

set_option autoImplicit false

namespace TilePyramid

open Files (Path Fault)

variable {source : Map → Tile → SourceReply} {world after : World}

/-- The path of the file that a directory cache keeps for a job. -/
def Job.entry (root : Path) (job : Job) : Path := Cache.entryPath root (.ofJob job)

/-- What a task yields in a world is what it comes to when it is performed alone. -/
theorem Task.Yields.on_eq {α : Type} {work : Work α} {result : α}
    (yields : Task.Yields (Pool.answersOf (World.answer source)) work world result after) :
    Work.on source work false world = ((some result, false), after) := by
  induction yields with
  | done result => rfl
  | isCancelled later ih => exact ih
  | @effect request next reply state between after result answer later ih =>
      have same : state.perform source request = (reply, between) := answer
      rw [Work.on_effect, same]
      exact ih

namespace Operation

variable {atlas : Atlas} {root : Path} {maxZoom : Option Nat} {job : Job}

/-- The error of a job whose entry cannot be removed. -/
def purgeError (root : Path) (job : Job) (fault : Fault) : Error :=
  .tileFailed .purge job.tile (.cacheFailure
    (Cache.fileReport "removing cached tile" (job.entry root) fault).text)

/-- Purging a job of a known map, performed alone. -/
theorem purge_directory_on (given : atlas.cache = some (Cache.directory root maxZoom))
    (known : job.map ∈ atlas.names) :
    Work.on source (purge atlas job) false world =
      match world.files.remove (job.entry root) with
      | .ok files => ((some (.ok ()), false), { world with files, log := .purged job :: world.log })
      | .error .notFound => ((some (.ok ()), false), { world with log := .purged job :: world.log })
      | .error fault => ((some (.error (purgeError root job fault)), false), world) := by
  obtain ⟨map, found⟩ := Atlas.mem_names_iff.mp known
  have key : ({ map := map.name, tile := job.tile } : Cache.Key) = .ofJob job := by
    rw [Atlas.name_of_map? found]
    rfl
  have removed : Work.on source (atlas.remove map job.tile) false world =
      match world.files.remove (job.entry root) with
      | .ok files => ((some (.ok ()), false), { world with files })
      | .error .notFound => ((some (.ok ()), false), world)
      | .error fault => ((some (.error (Atlas.cacheError
          (Cache.fileReport "removing cached tile" (job.entry root) fault))), false), world) := by
    rw [Atlas.remove_on given, key, Cache.directory_purge_on, ← Job.entry]
    cases world.files.remove (job.entry root) with
    | ok files => rfl
    | error fault => cases fault <;> rfl
  unfold purge
  rw [Program.bind_eq, Task.isCancelled, Program.ask_bind, Work.on_isCancelled]
  simp only [Program.done_bind, found]
  rw [if_neg (by decide), Program.bind_eq, Work.on_bind, removed]
  cases world.files.remove (job.entry root) with
  | ok files => rfl
  | error fault => cases fault <;> rfl

/-- Purging neither cancels its run nor waits for that. -/
theorem independent_purge (atlas : Atlas) (job : Job) : Task.Independent (purge atlas job) := by
  refine .isCancelled fun cancelled => ?_
  cases cancelled with
  | true => exact .done _
  | false =>
      have removal : ∀ map, Task.Independent (atlas.remove map job.tile) := by
        intro map
        unfold Atlas.remove
        cases atlas.requireCache with
        | error error => exact .done _
        | ok cache => exact (Task.independent_ofProgram _).bind fun _ => .done _
      cases known : atlas.map? job.map with
      | error error => exact .done _
      | ok map =>
        refine (removal map).bind fun removed => ?_
        cases removed with
        | error error => exact .done _
        | ok done => exact .effect fun _ => .done _

end Operation

section Sequence

variable {atlas : Atlas} {root : Path} {maxZoom : Option Nat} {jobs calls : List Job}
  {failed : Option Error}

/-- Some jobs were purged in their order, and the next one, if there is any, could not be. -/
structure PurgedUpTo (root : Path) (world : World) (jobs purged : List Job) (failed : Option Error)
    (after : World) : Prop where
  cleared : world.files.Cleared (purged.map (Job.entry root)) after.files
  others : after =
    { world with files := after.files, log := (purged.map .purged).reverse ++ world.log }
  ends : failed = none ∧ jobs = purged ∨
    ∃ job rest fault, jobs = purged ++ job :: rest ∧ fault ≠ .notFound ∧
      after.files.remove (job.entry root) = .error fault ∧
      failed = some (Operation.purgeError root job fault)

namespace PurgedUpTo

variable {purged : List Job}

theorem eq_of_unfailed (upTo : PurgedUpTo root world jobs purged none after) : jobs = purged := by
  obtain ⟨-, complete⟩ | ⟨_, _, _, _, _, _, failed⟩ := upTo.ends
  · exact complete
  · cases failed

/-- The error of a job that cannot be purged is no cancellation. -/
theorem ne_canceled {error : Error} (upTo : PurgedUpTo root world jobs purged (some error) after) :
    error ≠ .canceled := by
  obtain ⟨failed, -⟩ | ⟨_, _, _, _, _, _, failed⟩ := upTo.ends
  · cases failed
  · cases failed
    nofun

theorem cons {job : Job} {files : Files.Tree}
    (first : world.files.Cleared [job.entry root] files)
    (rest : PurgedUpTo root { world with files, log := .purged job :: world.log } jobs purged failed
      after) :
    PurgedUpTo root world (job :: jobs) (job :: purged) failed after where
  cleared := first.trans rest.cleared
  others := by
    rw [rest.others]
    simp
  ends := by
    obtain ⟨succeeded, rfl⟩ | ⟨next, others, fault, rfl, found, stuck, reported⟩ := rest.ends
    · exact .inl ⟨succeeded, rfl⟩
    · exact .inr ⟨next, others, fault, rfl, found, stuck, reported⟩

end PurgedUpTo

theorem InSequence.purgedUpTo (given : atlas.cache = some (Cache.directory root maxZoom))
    (known : ∀ job ∈ jobs, job.map ∈ atlas.names)
    (sequence : InSequence (Pool.answersOf (World.answer source)) (Operation.purge atlas) jobs world
      calls failed after) :
    ∃ purged, PurgedUpTo root world jobs purged failed after := by
  induction sequence with
  | nothing => exact ⟨[], .refl _, rfl, .inl ⟨rfl, rfl⟩⟩
  | @fails job rest error world after head =>
      have told := head.on_eq
      rw [Operation.purge_directory_on given (known job (by simp))] at told
      split at told
      · cases told
      · cases told
      · next fault found removed =>
        cases told
        exact ⟨[], .refl _, rfl, .inr ⟨job, rest, fault, rfl, found, removed, rfl⟩⟩
  | @succeeds job rest calls failed world between after head tail ih =>
      have told := head.on_eq
      rw [Operation.purge_directory_on given (known job (by simp))] at told
      obtain ⟨purged, upTo⟩ := ih fun other member => known other (by simp [member])
      split at told
      · next files removed =>
        cases told
        exact ⟨job :: purged, .cons (Files.Tree.cleared_of_remove removed) upTo⟩
      · next removed =>
        cases told
        exact ⟨job :: purged, .cons (Files.Tree.cleared_of_missing removed) upTo⟩
      · cases told

end Sequence

end TilePyramid
