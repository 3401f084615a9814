import Mathlib.Data.List.Induction
import TilePyramid.Proofs.Cache.Directory

/-!
# Two writers of one entry

Two parties store content for the same key of a directory cache, and their steps come in any order.
They share the sibling of the entry: it holds what was written last, and the first move takes it
away. So a reader never finds anything but whole content, and both succeed unless both have written
before either of them moved. Then the one that moves second finds nothing to move.
-/

set_option autoImplicit false

namespace TilePyramid

open Text.Utf8 (Bytes)

inductive Side where
  | left
  | right
deriving DecidableEq

namespace Side

def other : Side → Side
  | left => right
  | right => left

@[simp] theorem other_other (side : Side) : side.other.other = side := by cases side <;> rfl

@[simp] theorem other_ne (side : Side) : side.other ≠ side := by cases side <;> decide

theorem eq_or_eq_other (side place : Side) : place = side ∨ place = side.other := by
  cases side <;> cases place <;> simp [other]

end Side

/-- A world, and what each of two parties has still to do in it. -/
structure Shared (α : Type) where
  world : World
  rest : Side → Action α

namespace Shared

variable {α : Type} (source : Map → Tile → SourceReply)

/-- A step of one party; once it is done it makes no more. -/
def step (shared : Shared α) (side : Side) : Shared α :=
  match shared.rest side with
  | .done _ => shared
  | .ask effect next =>
      let (reply, world) := shared.world.perform source effect
      { world, rest := Function.update shared.rest side (next reply) }

def run (shared : Shared α) (schedule : List Side) : Shared α :=
  schedule.foldl (step source) shared

def result? (shared : Shared α) (side : Side) : Option α :=
  match shared.rest side with
  | .done result => some result
  | .ask .. => none

theorem result?_of_rest {shared : Shared α} {side : Side} {result : α}
    (done : shared.rest side = .done result) : shared.result? side = some result := by
  rw [result?, done]

end Shared

namespace Cache

open Files (Path Location Tree)

/-- How far a party has come with storing content. -/
inductive Stage where
  | preparing
  | writing
  | moving
  | finished
  /-- It found no sibling to move. -/
  | bereft
deriving DecidableEq

def Stage.rest (path : Path) (content : Bytes) : Stage → Action (Except Report Unit)
  | preparing => Cache.preparing path content
  | writing => Cache.writing path content
  | moving => Cache.moving path
  | finished => .done (.ok ())
  | bereft => .done (.error (fileReport "moving cached tile into place at" path .notFound))

def Stage.depth : Stage → Nat
  | preparing => 0
  | writing => 1
  | moving => 2
  | finished | bereft => 3

/-- What the places of an entry hold, and how far each party has come. -/
structure Race where
  contents : Contents
  stage : Side → Stage

namespace Race

variable {values : Side → Bytes} {race : Race}

def step (values : Side → Bytes) (race : Race) (side : Side) : Race :=
  match race.stage side with
  | .preparing => { race with stage := Function.update race.stage side .writing }
  | .writing =>
      ⟨{ race.contents with temporary := some (values side) },
        Function.update race.stage side .moving⟩
  | .moving =>
      match race.contents.temporary with
      | some content => ⟨⟨some content, none⟩, Function.update race.stage side .finished⟩
      | none => { race with stage := Function.update race.stage side .bereft }
  | .finished | .bereft => race

def run (values : Side → Bytes) (race : Race) (schedule : List Side) : Race :=
  schedule.foldl (step values) race

theorem stage_step_of_ne {side place : Side} (other : place ≠ side) :
    (race.step values side).stage place = race.stage place := by
  unfold step
  repeat' split
  all_goals simp [other]

theorem depth_step (side : Side) :
    ((race.step values side).stage side).depth = min 3 ((race.stage side).depth + 1) := by
  unfold step
  repeat' split
  all_goals simp_all [Stage.depth]

@[simp] theorem run_append (schedule : List Side) (last : Side) :
    race.run values (schedule ++ [last]) = (race.run values schedule).step values last := by
  simp [run]

theorem depth_run {schedule : List Side} (fresh : ∀ side, race.stage side = .preparing)
    (side : Side) :
    ((race.run values schedule).stage side).depth = min 3 (schedule.count side) := by
  induction schedule using List.reverseRecOn with
  | nil => simp [run, fresh, Stage.depth]
  | append_singleton schedule last ih =>
      rw [run_append, List.count_append, List.count_singleton]
      by_cases same : side = last
      · subst same
        rw [depth_step, ih]
        simp
        omega
      · rw [stage_step_of_ne same, ih]
        simp [Ne.symm same]

/-- The places of an entry hold whole content: the old or that of a party. -/
structure Whole (values : Side → Bytes) (old : Option Bytes) (race : Race) : Prop where
  entry : race.contents.entry = old ∧ (∀ side, race.stage side ≠ .finished) ∨
    ∃ writer, race.contents.entry = some (values writer)
  temporary : ∀ side, race.stage side = .moving → race.contents.temporary = none ∨
    ∃ writer, race.contents.temporary = some (values writer)

/-- At most one party has written and not moved, and it will find what it has written. -/
structure Apart (values : Side → Bytes) (race : Race) : Prop where
  alone : ∀ side, race.stage side = .moving → race.stage side.other ≠ .moving
  own : ∀ side, race.stage side = .moving → race.contents.temporary = some (values side)
  found : ∀ side, race.stage side ≠ .bereft

structure Overlapping (values : Side → Bytes) (race : Race) : Prop where
  both : ∀ side, race.stage side = .moving
  written : ∃ writer, race.contents.temporary = some (values writer)

/-- One party has moved the sibling, and the other has found nothing or is about to. -/
structure Decided (winner : Side) (race : Race) : Prop where
  won : race.stage winner = .finished
  lost : race.stage winner.other = .moving ∨ race.stage winner.other = .bereft
  gone : race.contents.temporary = none

private theorem update_ne {stage : Side → Stage} {avoided next : Stage} (side : Side)
    (free : ∀ place, stage place ≠ avoided) (other : next ≠ avoided) :
    ∀ place, Function.update stage side next place ≠ avoided := by
  intro place
  by_cases same : place = side
  · simpa [same] using other
  · simpa [same] using free place

theorem Whole.step {old : Option Bytes} (whole : Whole values old race) (side : Side) :
    Whole values old (race.step values side) := by
  obtain ⟨entry, temporary⟩ := whole
  cases place : race.stage side with
  | preparing =>
      simp only [Race.step, place]
      refine ⟨entry.imp_left fun old => ⟨old.1, update_ne side old.2 nofun⟩, fun moved moves => ?_⟩
      have other : moved ≠ side := by
        rintro rfl
        simp at moves
      exact temporary moved (by simpa [other] using moves)
  | writing =>
      simp only [Race.step, place]
      exact ⟨entry.imp_left fun old => ⟨old.1, update_ne side old.2 nofun⟩,
        fun _ _ => .inr ⟨side, rfl⟩⟩
  | moving =>
      rcases temporary side place with gone | ⟨writer, written⟩
      · simp only [Race.step, place, gone]
        exact ⟨entry.imp_left fun old => ⟨old.1, update_ne side old.2 nofun⟩, fun _ _ => .inl gone⟩
      · simp only [Race.step, place, written]
        exact ⟨.inr ⟨writer, rfl⟩, fun _ _ => .inl rfl⟩
  | finished => simpa only [Race.step, place] using ⟨entry, temporary⟩
  | bereft => simpa only [Race.step, place] using ⟨entry, temporary⟩

theorem Apart.step (apart : Apart values race) (side : Side) :
    Apart values (race.step values side) ∨ Overlapping values (race.step values side) := by
  obtain ⟨alone, own, found⟩ := apart
  cases place : race.stage side with
  | preparing =>
      refine .inl ?_
      simp only [Race.step, place]
      refine ⟨fun moved moves => ?_, fun moved moves => ?_, update_ne side found nofun⟩
      · rcases Side.eq_or_eq_other side moved with rfl | rfl
        · simp at moves
        · simp
      · rcases Side.eq_or_eq_other side moved with rfl | rfl
        · simp at moves
        · exact own _ (by simpa using moves)
  | writing =>
      by_cases meets : race.stage side.other = .moving
      · refine .inr ?_
        simp only [Race.step, place]
        refine ⟨fun moved => ?_, side, rfl⟩
        rcases Side.eq_or_eq_other side moved with rfl | rfl <;> simp [meets]
      · refine .inl ?_
        simp only [Race.step, place]
        refine ⟨fun moved moves => ?_, fun moved moves => ?_, update_ne side found nofun⟩
        · rcases Side.eq_or_eq_other side moved with rfl | rfl <;> simp_all
        · rcases Side.eq_or_eq_other side moved with rfl | rfl <;> simp_all
  | moving =>
      have quiet := alone side place
      refine .inl ?_
      simp only [Race.step, place, own side place]
      refine ⟨fun moved moves => ?_, fun moved moves => ?_, update_ne side found nofun⟩
      · rcases Side.eq_or_eq_other side moved with rfl | rfl <;> simp_all
      · rcases Side.eq_or_eq_other side moved with rfl | rfl <;> simp_all
  | finished => exact .inl (by simpa only [Race.step, place] using ⟨alone, own, found⟩)
  | bereft => exact absurd place (found side)

theorem Overlapping.step (overlapping : Overlapping values race) (side : Side) :
    Decided side (race.step values side) := by
  obtain ⟨writer, written⟩ := overlapping.written
  have moves := overlapping.both side
  constructor
  · simp [Race.step, moves, written]
  · simp [Race.step, moves, written, overlapping.both]
  · simp [Race.step, moves, written]

theorem Decided.step {winner : Side} (decided : Decided winner race) (side : Side) :
    Decided winner (race.step values side) := by
  rcases Side.eq_or_eq_other winner side with rfl | rfl
  · simpa [Race.step, decided.won] using decided
  · rcases decided.lost with moves | bereft
    · constructor
      · rw [stage_step_of_ne (Side.other_ne winner).symm]
        exact decided.won
      · simp [Race.step, moves, decided.gone]
      · simp [Race.step, moves, decided.gone]
    · simpa [Race.step, bereft] using decided

end Race

/-- At some point of the schedule both parties have written and neither has moved: each has made
two of its three steps. -/
def Overlap (schedule : List Side) : Prop :=
  ∃ start, start <+: schedule ∧ ∀ side, start.count side = 2

theorem not_overlap_nil : ¬ Overlap [] := by
  rintro ⟨start, inside, counts⟩
  have empty := counts .left
  rw [List.prefix_nil.mp inside] at empty
  cases empty

theorem overlap_append {schedule : List Side} {last : Side} : Overlap (schedule ++ [last]) ↔
    Overlap schedule ∨ ∀ side, (schedule ++ [last]).count side = 2 := by
  constructor
  · rintro ⟨start, inside, counts⟩
    rcases List.prefix_concat_iff.mp inside with rfl | earlier
    · exact .inr (by simpa using counts)
    · exact .inl ⟨start, earlier, counts⟩
  · rintro (⟨start, inside, counts⟩ | counts)
    · exact ⟨start, inside.trans (List.prefix_append _ _), counts⟩
    · exact ⟨_, List.prefix_rfl, counts⟩

theorem Stage.depth_eq_two_iff {stage : Stage} : stage.depth = 2 ↔ stage = .moving := by
  cases stage <;> decide

namespace Race

variable {values : Side → Bytes} {race : Race}

theorem count_eq_two_iff {schedule : List Side} (fresh : ∀ side, race.stage side = .preparing)
    (side : Side) :
    schedule.count side = 2 ↔ (race.run values schedule).stage side = .moving := by
  rw [← Stage.depth_eq_two_iff, depth_run fresh]
  omega

theorem whole_run (values : Side → Bytes) (fresh : ∀ side, race.stage side = .preparing)
    (schedule : List Side) :
    Whole values race.contents.entry (race.run values schedule) := by
  induction schedule using List.reverseRecOn with
  | nil =>
      refine ⟨.inl ⟨rfl, fun side finished => ?_⟩, fun side moves => ?_⟩
      · simp [run, fresh] at finished
      · simp [run, fresh] at moves
  | append_singleton schedule last ih =>
      rw [run_append]
      exact ih.step last

/-- The parties stay apart until they overlap, and an overlap is decided for one of them. -/
theorem phase_run (values : Side → Bytes) (fresh : ∀ side, race.stage side = .preparing)
    (schedule : List Side) :
    (¬ Overlap schedule ∧ Apart values (race.run values schedule)) ∨
      (Overlap schedule ∧ (Overlapping values (race.run values schedule) ∨
        ∃ winner, Decided winner (race.run values schedule))) := by
  induction schedule using List.reverseRecOn with
  | nil =>
      refine .inl ⟨not_overlap_nil, ?_, ?_, ?_⟩ <;> simp [run, fresh]
  | append_singleton schedule last ih =>
      rw [overlap_append, run_append]
      rcases ih with ⟨earlier, apart⟩ | ⟨earlier, phase⟩
      · -- The step overlaps the parties just if it brings both between their write and their move.
        have meets : (∀ side, (schedule ++ [last]).count side = 2) ↔
            ∀ side, ((race.run values schedule).step values last).stage side = .moving := by
          rw [← run_append]
          exact forall_congr' fun side => count_eq_two_iff fresh side
        rw [meets]
        rcases apart.step last with still | overlapping
        · refine .inl ⟨?_, still⟩
          rintro (before | both)
          · exact earlier before
          · exact still.alone .left (both .left) (both .right)
        · exact .inr ⟨.inr overlapping.both, .inl overlapping⟩
      · refine .inr ⟨.inl earlier, .inr ?_⟩
        rcases phase with overlapping | ⟨winner, decided⟩
        · exact ⟨last, overlapping.step last⟩
        · exact ⟨winner, decided.step last⟩

/-- Once each party has made its three steps, both have succeeded if they did not overlap, and
exactly one of them otherwise. -/
theorem outcome_run {schedule : List Side} (values : Side → Bytes)
    (fresh : ∀ side, race.stage side = .preparing)
    (complete : ∀ side, 3 ≤ schedule.count side) :
    (¬ Overlap schedule ∧ ∀ side, (race.run values schedule).stage side = .finished) ∨
      (Overlap schedule ∧ ∃ winner, (race.run values schedule).stage winner = .finished ∧
        (race.run values schedule).stage winner.other = .bereft) := by
  have deep : ∀ side, ((race.run values schedule).stage side).depth = 3 := by
    intro side
    rw [depth_run fresh, Nat.min_eq_left (complete side)]
  rcases phase_run values fresh schedule with
    ⟨never, apart⟩ | ⟨once, overlapping | ⟨winner, decided⟩⟩
  · refine .inl ⟨never, fun side => ?_⟩
    have three := deep side
    have found := apart.found side
    generalize (race.run values schedule).stage side = stage at three found
    cases stage with
    | finished => rfl
    | bereft => exact absurd rfl found
    | _ => cases three
  · have three := deep .left
    rw [overlapping.both .left] at three
    cases three
  · refine .inr ⟨once, winner, decided.won, decided.lost.resolve_left fun moves => ?_⟩
    have three := deep winner.other
    rw [moves] at three
    cases three

end Race

/-- Two parties at a site that do what their stages say, on a tree that the race describes. Before
the first step the directories may still be missing. -/
structure Follows (site : Site) (values : Side → Bytes) (first : Tree) (race : Race)
    (shared : Shared (Except Report Unit)) : Prop where
  rest : ∀ side, shared.rest side = (race.stage side).rest site.path (values side)
  files : site.Holds race.contents shared.world.files ∨
    (∀ side, race.stage side = .preparing) ∧ shared.world.files = first ∧
      site.Holds race.contents site.tree

namespace Follows

variable {source : Map → Tile → SourceReply} {site : Site} {values : Side → Bytes} {first : Tree}
  {race : Race} {shared : Shared (Except Report Unit)}

theorem update_rest (follows : Follows site values first race shared) (side : Side) (next : Stage) :
    ∀ place, Function.update shared.rest side (next.rest site.path (values side)) place =
      (Function.update race.stage side next place).rest site.path (values place) := by
  intro place
  by_cases same : place = side
  · subst same
    simp
  · simpa [same] using follows.rest place

/-- A step of the programs is a step of the race. -/
theorem step (made : first.makeDirectories (entryDirectory site.path) = (none, site.tree))
    (follows : Follows site values first race shared) (side : Side) :
    Follows site values first (race.step values side) (shared.step source side) := by
  have todo := follows.rest side
  have updated := follows.update_rest side
  have settled : race.stage side ≠ .preparing → site.Holds race.contents shared.world.files := by
    intro late
    exact follows.files.resolve_right fun fresh => late (fresh.1 side)
  cases place : race.stage side with
  | preparing =>
      rw [place, Stage.rest, preparing] at todo
      obtain ⟨files, creates, holds⟩ : ∃ files,
          shared.world.files.makeDirectories (entryDirectory site.path) = (none, files) ∧
            site.Holds race.contents files := by
        rcases follows.files with holds | ⟨-, fresh, holds⟩
        · exact ⟨_, holds.makeDirectories, holds⟩
        · exact ⟨_, fresh ▸ made, holds⟩
      simp only [Race.step, Shared.step, place, todo, World.perform, creates]
      exact ⟨updated .writing, .inl holds⟩
  | writing =>
      rw [place, Stage.rest, writing] at todo
      obtain ⟨files, writes, holds⟩ := (settled (by simp [place])).write (values side)
      simp only [Race.step, Shared.step, place, todo, World.perform, writes, World.changeFiles]
      exact ⟨updated .moving, .inl holds⟩
  | moving =>
      rw [place, Stage.rest, moving] at todo
      have held := settled (by simp [place])
      cases there : race.contents.temporary with
      | some content =>
          obtain ⟨files, moves, holds⟩ := held.move there
          simp only [Race.step, Shared.step, place, todo, World.perform, moves, World.changeFiles,
            there]
          exact ⟨updated .finished, .inl holds⟩
      | none =>
          have fails := held.move_of_gone there
          simp only [Race.step, Shared.step, place, todo, World.perform, fails, World.changeFiles,
            there]
          exact ⟨updated .bereft, .inl held⟩
  | finished =>
      rw [place, Stage.rest] at todo
      simpa only [Race.step, Shared.step, place, todo] using follows
  | bereft =>
      rw [place, Stage.rest] at todo
      simpa only [Race.step, Shared.step, place, todo] using follows

theorem run (source : Map → Tile → SourceReply)
    (made : first.makeDirectories (entryDirectory site.path) = (none, site.tree))
    (follows : Follows site values first race shared) (schedule : List Side) :
    Follows site values first (race.run values schedule) (shared.run source schedule) := by
  induction schedule generalizing race shared with
  | nil => exact follows
  | cons side rest ih => exact ih (follows.step made side)

end Follows

def writers (cache : Cache) (key : Key) (values : Side → Bytes) (world : World) :
    Shared (Except Report Unit) where
  world := world
  rest side := cache.set key (values side)

section Writers

variable {source : Map → Tile → SourceReply} {root : Path} {maxZoom : Option Nat} {key : Key}
  {content : Bytes} {world : World}

/-- Where storing content succeeds, the steps of two parties are those of a race at one site. -/
theorem writers_follow (kept : keeps maxZoom key.tile.level = true)
    (succeeds : (((directory root maxZoom).set key content).on source world).1 = .ok ())
    (values : Side → Bytes) :
    ∃ (site : Site) (contents : Contents), site.path = entryPath root key ∧
      world.files.makeDirectories (entryDirectory site.path) = (none, site.tree) ∧
      site.Holds contents site.tree ∧
      ∀ schedule, Follows site values world.files
        (Race.run values ⟨contents, fun _ => .preparing⟩ schedule)
        ((writers (directory root maxZoom) key values world).run source schedule) := by
  rw [set_eq root kept] at succeeds
  obtain ⟨site, contents, place, made, holds⟩ := exists_site succeeds
  have begun : Follows site values world.files ⟨contents, fun _ => .preparing⟩
      (writers (directory root maxZoom) key values world) := by
    refine ⟨fun side => (set_eq root kept (values side)).trans ?_, .inr ⟨fun _ => rfl, rfl, holds⟩⟩
    rw [place]
    rfl
  exact ⟨site, contents, place, made, holds, begun.run source made⟩

/-- Once each party has made its three steps, both have succeeded if they did not overlap. Otherwise
one of them has, and the other has found nothing to move. -/
theorem results_of_complete {schedule : List Side} (kept : keeps maxZoom key.tile.level = true)
    (succeeds : (((directory root maxZoom).set key content).on source world).1 = .ok ())
    (values : Side → Bytes) (complete : ∀ side, 3 ≤ schedule.count side) :
    let after := (writers (directory root maxZoom) key values world).run source schedule
    (¬ Overlap schedule ∧ ∀ side, after.result? side = some (.ok ())) ∨
      (Overlap schedule ∧ ∃ winner, after.result? winner = some (.ok ()) ∧
        after.result? winner.other = some (.error
          (fileReport "moving cached tile into place at" (entryPath root key) .notFound))) := by
  obtain ⟨site, contents, place, -, -, follows⟩ := writers_follow kept succeeds values
  obtain ⟨rest, -⟩ := follows schedule
  rw [place] at rest
  have fresh : ∀ side, (Race.mk contents fun _ => .preparing).stage side = .preparing :=
    fun _ => rfl
  rcases Race.outcome_run values fresh complete with ⟨apart, won⟩ | ⟨overlap, winner, won, lost⟩
  · refine .inl ⟨apart, fun side => ?_⟩
    have done := rest side
    rw [won side] at done
    exact Shared.result?_of_rest done
  · have done := rest winner
    have fails := rest winner.other
    rw [won] at done
    rw [lost] at fails
    exact .inr ⟨overlap, winner, Shared.result?_of_rest done, Shared.result?_of_rest fails⟩

/-- At every point a reader finds what the entry held before, or what a party has written, and the
latter once a party has finished. -/
theorem Follows.answer {site : Site} {values : Side → Bytes} {race : Race} {contents : Contents}
    {shared : Shared (Except Report Unit)} (follows : Follows site values world.files race shared)
    (place : site.path = entryPath root key) (whole : Race.Whole values contents.entry race) :
    let found := answer source (directory root maxZoom) key shared.world
    (found = answer source (directory root maxZoom) key world ∨ found = .ok contents.entry ∨
      ∃ writer, found = .ok (some (values writer))) ∧
      ∀ side, race.stage side = .finished → ∃ writer, found = .ok (some (values writer)) := by
  constructor
  · rcases follows.files with held | ⟨-, same, -⟩
    · refine .inr ?_
      rw [held.answer place]
      rcases whole.entry with ⟨old, -⟩ | ⟨writer, new⟩
      · exact .inl (by rw [old])
      · exact .inr ⟨writer, by rw [new]⟩
    · exact .inl (by rw [answer_directory, answer_directory, same])
  · intro side finished
    have held := follows.files.resolve_right fun untouched => by simp [untouched.1 side] at finished
    obtain ⟨writer, new⟩ := whole.entry.resolve_left fun old => old.2 side finished
    exact ⟨writer, by rw [held.answer place, new]⟩

/-- Where storing content succeeds, two parties that store content for a key succeed both if and
only if they do not overlap; else one of them finds nothing to move. A reader finds the old content
or that of a party at every point, and that of a party in the end. -/
theorem writers_succeed_iff_apart (kept : keeps maxZoom key.tile.level = true)
    (succeeds : (((directory root maxZoom).set key content).on source world).1 = .ok ())
    (values : Side → Bytes) :
    ∃ old : Option Bytes,
      (answer source (directory root maxZoom) key world = .ok old ∨
        answer source (directory root maxZoom) key world = .ok none) ∧
      (world.files.Closed → ".." ∉ Path.names (entryPath root key) →
        answer source (directory root maxZoom) key world = .ok old) ∧
      ∀ schedule,
        let after := (writers (directory root maxZoom) key values world).run source schedule
        let found := answer source (directory root maxZoom) key after.world
        (found = answer source (directory root maxZoom) key world ∨ found = .ok old ∨
          ∃ writer, found = .ok (some (values writer))) ∧
        ((∀ side, 3 ≤ schedule.count side) →
          (∃ writer, found = .ok (some (values writer))) ∧
          ((∀ side, after.result? side = some (.ok ())) ↔ ¬ Overlap schedule) ∧
          (Overlap schedule → ∃ winner, after.result? winner = some (.ok ()) ∧
            after.result? winner.other = some (.error
              (fileReport "moving cached tile into place at" (entryPath root key) .notFound)))) := by
  obtain ⟨site, contents, place, made, holds, follows⟩ := writers_follow kept succeeds values
  obtain ⟨early, level⟩ := Tree.read_before_made made site.entryFound holds.entry
  rw [place] at early level
  have fresh : ∀ side, (Race.mk contents fun _ => .preparing).stage side = .preparing :=
    fun _ => rfl
  refine ⟨contents.entry, early.imp answer_of_read answer_of_read,
    fun closed straight => answer_of_read (level closed straight), fun schedule => ?_⟩
  obtain ⟨found, ended⟩ := (follows schedule).answer place (Race.whole_run values fresh schedule)
  refine ⟨found, fun complete => ⟨?_, ?_⟩⟩
  · rcases Race.outcome_run values fresh complete with ⟨-, won⟩ | ⟨-, winner, won, -⟩
    · exact ended .left (won .left)
    · exact ended winner won
  · rcases results_of_complete kept succeeds values complete with
      ⟨apart, both⟩ | ⟨overlap, winner, success, failure⟩
    · exact ⟨⟨fun _ => apart, fun _ => both⟩, fun overlap => absurd overlap apart⟩
    · refine ⟨⟨fun both => ?_, fun apart => absurd overlap apart⟩,
        fun _ => ⟨winner, success, failure⟩⟩
      have other := both winner.other
      rw [failure] at other
      cases other

end Writers

def sampleKey : Key := { map := "osm", tile := ⟨0, 0, 0⟩ }

def sampleValues : Side → Bytes
  | .left => [1]
  | .right => [2]

def sampleSource (_ : Map) (_ : Tile) : SourceReply := { answer := .never }

/-- Two parties that store different content below a root that is not there yet. Both write before
one of them moves. -/
def sampleWriters : Shared (Except Report Unit) :=
  (writers (directory "tiles" none) sampleKey sampleValues {}).run sampleSource
    [.left, .right, .left, .right, .left, .right]

theorem overlap_sample : Overlap [.left, .right, .left, .right, .left, .right] :=
  ⟨[.left, .right, .left, .right], ⟨_, rfl⟩, fun side => by cases side <;> decide⟩

theorem set_sample :
    (((directory "tiles" none).set sampleKey [0]).on sampleSource {}).1 = .ok () := by
  decide +kernel

theorem one_of_overlapping_writers_fails :
    keeps none sampleKey.tile.level = true ∧
      (((directory "tiles" none).set sampleKey [0]).on sampleSource {}).1 = .ok () ∧
      ∃ winner, sampleWriters.result? winner = some (.ok ()) ∧
        sampleWriters.result? winner.other = some (.error
          (fileReport "moving cached tile into place at" (entryPath "tiles" sampleKey)
            .notFound)) := by
  obtain ⟨_, -, -, runs⟩ := writers_succeed_iff_apart rfl set_sample sampleValues
  obtain ⟨-, outcome⟩ := runs [.left, .right, .left, .right, .left, .right]
  obtain ⟨-, -, fails⟩ := outcome fun side => by cases side <;> decide
  exact ⟨rfl, set_sample, fails overlap_sample⟩

/-- It is not so that two parties always succeed both where storing content succeeds. -/
theorem not_both_writers_succeed :
    keeps none sampleKey.tile.level = true ∧
      (((directory "tiles" none).set sampleKey [0]).on sampleSource {}).1 = .ok () ∧
      ¬ ∀ side, sampleWriters.result? side = some (.ok ()) := by
  refine ⟨rfl, set_sample, fun both => ?_⟩
  have complete : ∀ side, 3 ≤ [Side.left, .right, .left, .right, .left, .right].count side :=
    fun side => by cases side <;> decide
  rcases results_of_complete rfl set_sample sampleValues complete with
    ⟨apart, -⟩ | ⟨-, winner, -, failure⟩
  · exact apart overlap_sample
  · have other := both winner.other
    rw [sampleWriters, failure] at other
    cases other

end Cache

end TilePyramid
