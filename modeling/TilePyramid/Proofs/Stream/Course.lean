import TilePyramid.Proofs.Stream.Moves
import TilePyramid.Stream.Generators

/-!
# The course of a generator

What a generator does as long as none of its offers is refused: the items that it offers, and the
error that it latches in the end, if any. A generator of the library waits for nothing but for the
slot of its stream, unless it is to wait for more lines of a tile list. Main statements:
`gives_ofBounds`, `gives_ofTile` and `gives_generateFrom`.
-/

set_option autoImplicit false

namespace TilePyramid

namespace Generation

variable {α : Type}

/-- A part of a generator waits at most for an item to be taken. -/
def WaitsOnlyToSend : Generation α → Prop
  | .done _ => True
  | .ask request next => request ≠ .untilStopped ∧ ∀ reply, WaitsOnlyToSend (next reply)

/-- Some replies make a part of a generator latch the error. -/
def CanReport (error : Error) : Generation α → Prop
  | .done _ => False
  | .ask request next => request = .fail error ∨ ∃ reply, CanReport error (next reply)

/-- A part of a generator offers items until one is refused, and tells whether all were taken. -/
inductive Sends : Generation Bool → List Item → Prop where
  | nothing : Sends (.done true) []
  | item {item : Item} {next : Bool → Generation Bool} {rest : List Item}
      (refused : next false = .done false) (taken : Sends (next true) rest) :
      Sends (.ask (.send item) next) (item :: rest)

namespace Sends

theorem andThen {part rest : Generation Bool} {items more : List Item} (first : Sends part items)
    (others : Sends rest more) :
    Sends (Program.bind part fun taken => if taken then rest else .done false) (items ++ more) := by
  induction first with
  | nothing => exact others
  | item refused taken ih => exact .item (by rw [refused]; rfl) ih

theorem whileTaken {part : α → Generation Bool} {items : α → List Item}
    (each : ∀ member, Sends (part member) (items member)) (members : List α) :
    Sends (Generator.whileTaken part members) (members.flatMap items) := by
  induction members with
  | nil => exact .nothing
  | cons member others ih => exact (each member).andThen ih

theorem whileTakenFrom {part : Nat → Generation Bool} {items : Nat → List Item}
    (each : ∀ position, Sends (part position) (items position)) (start count : Nat) :
    Sends (Generator.whileTakenFrom part start count)
      ((List.range' start count).flatMap items) := by
  induction count generalizing start with
  | zero => exact .nothing
  | succ count ih => exact (each start).andThen (ih (start + 1))

theorem send (item : Item) : Sends (Generator.send item) [item] := .item rfl .nothing

/-- What is offered for the positions of a block is offered for its tiles. -/
theorem block {part : Tile → Generation Bool} {items : Tile → List Item}
    (each : ∀ tile, Sends (part tile) (items tile)) (block : Block) :
    Sends (Generator.whileTakenFrom (fun position => part (block.tileAt position)) 0 block.size)
      (block.tiles.flatMap items) := by
  have positions := whileTakenFrom (fun position => each (block.tileAt position)) 0 block.size
  rwa [← List.range_eq_range', ← List.flatMap_map, block.map_tileAt_range] at positions

theorem sendFor (targets : List String) (tile : Tile) :
    Sends (Generator.sendFor targets tile) (targets.map fun map => .job ⟨map, tile⟩) := by
  rw [List.map_eq_flatMap]
  exact whileTaken (fun map => send (.job ⟨map, tile⟩)) targets

theorem sendExpansion (expansion : Expansion) (targets : List String) (tile : Tile) :
    Sends (Generator.sendExpansion expansion targets tile)
      ((expansion.tiles tile).flatMap fun tile => targets.map fun map => .job ⟨map, tile⟩) := by
  rw [Expansion.tiles, List.flatMap_assoc]
  refine whileTaken (fun part => ?_) _
  unfold Generator.sendBlockFor
  split
  · next untargeted =>
    have nothing : (part.tiles.flatMap fun tile =>
        targets.map fun map => Item.job ⟨map, tile⟩) = [] := by
      simp [List.isEmpty_iff.mp untargeted]
    rw [nothing]
    exact .nothing
  · exact block (sendFor targets) part

end Sends

end Generation

namespace Generator

/-- The first error that a generator latches while none of its offers is refused. -/
def failure? : Generator → Option Error
  | .done _ => none
  | .ask (.send _) next => failure? (next true)
  | .ask (.fail error) _ => some error
  | .ask .untilStopped _ => none
  | .ask .mayGoOn next => failure? (next true)

/-- A generator whose part had all of its items taken goes on as it does after that. -/
theorem offers_bind {part : Generation Bool} {items : List Item} (sends : part.Sends items)
    (next : Bool → Generator) : offers (Program.bind part next) = items ++ (next true).offers := by
  induction sends with
  | nothing => rfl
  | item refused taken ih => exact congrArg (_ :: ·) ih

theorem failure?_bind {part : Generation Bool} {items : List Item} (sends : part.Sends items)
    (next : Bool → Generator) : failure? (Program.bind part next) = (next true).failure? := by
  induction sends with
  | nothing => rfl
  | item refused taken ih => exact ih

/-- A generator offers the items, in their order, and then ends or latches an error. It latches no
other error if it is told to stop before. -/
structure Gives (generator : Generator) (items : List Item) (failure : Option Error) : Prop where
  offers_eq : generator.offers = items
  failure?_eq : generator.failure? = failure
  reports : ∀ {error}, generator.CanReport error → failure = some error
  waits : generator.WaitsOnlyToSend

namespace Gives

variable {items more : List Item} {failure : Option Error}

theorem done : Gives (.done ()) [] none where
  offers_eq := rfl
  failure?_eq := rfl
  reports := nofun
  waits := trivial

theorem fail (error : Error) : Gives (Generator.fail error) [] (some error) where
  offers_eq := rfl
  failure?_eq := rfl
  reports := by
    rintro other (same | ⟨_, later⟩)
    · cases same
      rfl
    · exact later.elim
  waits := ⟨nofun, fun _ => trivial⟩

/-- A generator that ends when it is told to stop reports and awaits nothing else than otherwise. -/
theorem after {next : Bool → Generator} (stopped : next false = .done ())
    (gives : Gives (next true) items failure) (reply : Bool) :
    (∀ {error}, (next reply).CanReport error → failure = some error) ∧
      (next reply).WaitsOnlyToSend := by
  cases reply with
  | true => exact ⟨gives.reports, gives.waits⟩
  | false =>
      rw [stopped]
      exact ⟨nofun, trivial⟩

theorem mayGoOn {next : Bool → Generator} (halted : next false = .done ())
    (gives : Gives (next true) items failure) : Gives (.ask .mayGoOn next) items failure where
  offers_eq := gives.offers_eq
  failure?_eq := gives.failure?_eq
  reports := by
    rintro error (impossible | ⟨goesOn, later⟩)
    · cases impossible
    · exact (gives.after halted goesOn).1 later
  waits := ⟨nofun, fun goesOn => (gives.after halted goesOn).2⟩

theorem send {item : Item} {next : Bool → Generator} (refused : next false = .done ())
    (gives : Gives (next true) items failure) :
    Gives (.ask (.send item) next) (item :: items) failure where
  offers_eq := congrArg (item :: ·) gives.offers_eq
  failure?_eq := gives.failure?_eq
  reports := by
    rintro error (impossible | ⟨taken, later⟩)
    · cases impossible
    · exact (gives.after refused taken).1 later
  waits := ⟨nofun, fun taken => (gives.after refused taken).2⟩

/-- A generator that goes on when all items of a part were taken, and ends when one was refused. -/
theorem bind {part : Generation Bool} {next : Bool → Generator} (sends : part.Sends items)
    (refused : next false = .done ()) (gives : Gives (next true) more failure) :
    Gives (Program.bind part next) (items ++ more) failure := by
  induction sends with
  | nothing => exact gives
  | item stopped taken ih => exact .send (by rw [stopped]; exact refused) ih

theorem sends {part : Generation Bool} (sends : part.Sends items) :
    Gives (Program.bind part fun _ => .done ()) items none := by
  have whole : Gives (Program.bind part fun _ => .done ()) (items ++ []) none :=
    .bind sends rfl .done
  simpa using whole

end Gives

/-- Offers items until one is refused. If all were taken, latches an error or just ends. -/
def ofItemsThen (items : List Item) (failure : Option Error) : Generator := do
  if ← whileTaken send items then
    match failure with
    | some error => fail error
    | none => return ()

theorem gives_ofItemsThen (items : List Item) (failure : Option Error) :
    Gives (ofItemsThen items failure) items failure := by
  have sends : (whileTaken send items).Sends (items.flatMap fun item => [item]) :=
    .whileTaken .send items
  rw [← List.map_eq_flatMap, List.map_id'] at sends
  have whole : Gives (ofItemsThen items failure) (items ++ []) failure := by
    refine .bind sends rfl ?_
    cases failure with
    | none => exact .done
    | some error => exact .fail error
  simpa using whole

theorem gives_ofBounds (bounds : Bounds) (zooms : ZoomRange) :
    Gives (ofBounds bounds zooms)
      (zooms.levels.flatMap fun level => (Mercator.cover bounds level).tiles.map .tile) none := by
  refine .sends (.whileTaken (fun level => ?_) zooms.levels)
  rw [List.map_eq_flatMap]
  exact .block (fun tile => .send (.tile tile)) _

theorem gives_ofTile (tile : Tile) (expansion : Expansion) (targets : List String) :
    Gives (ofTile tile expansion targets)
      (targets.flatMap fun map => (expansion.tiles tile).map fun tile => .job ⟨map, tile⟩) none := by
  refine .sends (.whileTaken (fun map => ?_) targets)
  rw [List.map_eq_flatMap]
  exact .sendExpansion expansion [map] tile

end Generator

namespace TileList

/-- The tiles that lines name, up to the first that names none, and the error that then ends the
stream. Before them, `number` lines were read. -/
def readFrom (format : NameFormat) (ending : ListEnd) :
    (number : Nat) → List Text.Utf8.Bytes → List Tile × Option Error
  | number, [] =>
      match ending with
      | .broken reason => ([], some (.badListLine (number + 1) reason))
      | .finished | .waiting => ([], none)
  | number, line :: rest =>
      match readLine format line with
      | .blank => readFrom format ending (number + 1) rest
      | .bad reason => ([], some (.badListLine (number + 1) reason))
      | .tile tile =>
          let (tiles, error) := readFrom format ending (number + 1) rest
          (tile :: tiles, error)

def Line.tile? : Line → Option Tile
  | .tile named => some named
  | .blank | .bad _ => none

/-- A tile list that ends with no error is read to its end, and each of its lines is blank or names a
tile. -/
theorem readFrom_of_complete {format : NameFormat} {ending : ListEnd} {number : Nat}
    {lines : List Text.Utf8.Bytes} (complete : (readFrom format ending number lines).2 = none) :
    (readFrom format ending number lines).1 =
        lines.filterMap (fun line => (readLine format line).tile?) ∧
      ∀ line ∈ lines, ∀ reason, readLine format line ≠ .bad reason := by
  induction lines generalizing number with
  | nil => cases ending <;> exact ⟨rfl, nofun⟩
  | cons line rest ih =>
      simp only [readFrom] at complete ⊢
      cases read : readLine format line with
      | blank =>
          rw [read] at complete
          obtain ⟨tiles, good⟩ := ih complete
          exact ⟨by simpa [read, Line.tile?] using tiles, List.forall_mem_cons.mpr ⟨by simp [read], good⟩⟩
      | bad reason =>
          rw [read] at complete
          cases complete
      | tile tile =>
          rw [read] at complete
          obtain ⟨tiles, good⟩ := ih complete
          exact ⟨by simp [read, Line.tile?, tiles], List.forall_mem_cons.mpr ⟨by simp [read], good⟩⟩

/-- A tile list that does not wait for more lines gives the relatives of its tiles as jobs for each
map. -/
theorem gives_generateFrom {ending : ListEnd} (ends : ending ≠ .waiting) (format : NameFormat)
    (expansion : Expansion) (targets : List String) (number : Nat)
    (lines : List Text.Utf8.Bytes) :
    (generateFrom format expansion targets ending number lines).Gives
      ((readFrom format ending number lines).1.flatMap fun named =>
        (expansion.tiles named).flatMap fun tile => targets.map fun map => .job ⟨map, tile⟩)
      (readFrom format ending number lines).2 := by
  induction lines generalizing number with
  | nil =>
      refine .mayGoOn rfl ?_
      cases ending with
      | finished => exact .done
      | waiting => exact absurd rfl ends
      | broken reason => exact .fail _
  | cons line rest ih =>
      refine .mayGoOn rfl ?_
      simp only [Program.done_bind, if_true, readFrom]
      cases readLine format line with
      | blank => exact ih (number + 1)
      | bad reason => exact .fail _
      | tile tile => exact .bind (.sendExpansion expansion targets tile) rfl (ih (number + 1))

/-- Whatever ends a tile list, it offers the relatives of the tiles that its lines name, and latches
the error of the first line that names none. -/
theorem course_generateFrom (ending : ListEnd) (format : NameFormat) (expansion : Expansion)
    (targets : List String) (number : Nat) (lines : List Text.Utf8.Bytes) :
    (generateFrom format expansion targets ending number lines).offers =
        ((readFrom format ending number lines).1.flatMap fun named =>
          (expansion.tiles named).flatMap fun tile => targets.map fun map => .job ⟨map, tile⟩) ∧
      (generateFrom format expansion targets ending number lines).failure? =
        (readFrom format ending number lines).2 := by
  induction lines generalizing number with
  | nil => cases ending <;> exact ⟨rfl, rfl⟩
  | cons line rest ih =>
      simp only [generateFrom, Generator.mayGoOn, Program.bind_eq, Program.ask_bind,
        Program.done_bind, Generator.offers, Generator.failure?, if_true, readFrom]
      cases readLine format line with
      | blank => exact ih (number + 1)
      | bad reason => exact ⟨rfl, rfl⟩
      | tile tile =>
          have sends := Generation.Sends.sendExpansion expansion targets tile
          obtain ⟨offers, failure⟩ := ih (number + 1)
          exact ⟨(Generator.offers_bind sends _).trans (congrArg (_ ++ ·) offers),
            (Generator.failure?_bind sends _).trans failure⟩

end TileList

namespace Stream

variable {cancelled : Bool} {stream next : Stream} {exchange : Generator.Exchange}

/-- A generator goes on while the slot of its stream is free, unless it waits to be stopped. -/
theorem exists_turn (running : stream.hasEnded = false) (free : stream.channel.slot = none)
    (awake : ∀ next, stream.generator = .ask .untilStopped next →
      stream.channel.mustStop cancelled = true) :
    ∃ exchange next, stream.turn cancelled = some (exchange, next) := by
  obtain ⟨generator, channel⟩ := stream
  cases generator with
  | done result => cases running
  | ask request replies =>
      cases request with
      | send item =>
          by_cases stops : channel.mustStop cancelled = true
          · simp [turn, Channel.respond, stops]
          · have empty : channel.slot = none := free
            simp [turn, Channel.respond, stops, empty]
      | fail error => simp [turn, Channel.respond]
      | untilStopped =>
          have stops : channel.mustStop cancelled = true := awake replies rfl
          simp [turn, Channel.respond, stops]
      | mayGoOn => by_cases stops : channel.mustStop cancelled = true <;>
          simp [turn, Channel.respond, stops]

namespace Move

theorem waitsOnlyToSend (move : Move cancelled stream exchange next)
    (waits : stream.generator.WaitsOnlyToSend) : next.generator.WaitsOnlyToSend := by
  cases move with
  | sends place | isRefused place | fails place | isWoken place | isHalted place | goesOn place =>
      rw [place] at waits
      exact waits.2 _

theorem canReport {error : Error} (move : Move cancelled stream exchange next)
    (reports : next.generator.CanReport error ∨ exchange.failure? = some error) :
    stream.generator.CanReport error := by
  cases move with
  | fails place =>
      rw [place]
      rcases reports with later | now
      · exact .inr ⟨(), later⟩
      · exact .inl (congrArg Generator.Request.fail (Option.some.inj now))
  | sends place | isRefused place | isWoken place | isHalted place | goesOn place =>
      rw [place]
      rcases reports with later | now
      · exact .inr ⟨_, later⟩
      · cases now

/-- As long as nothing hinders a generator, its stream will hold the same error in the end. -/
theorem failure?_eq (move : Move cancelled stream exchange next)
    (unhindered : exchange.hinders = false) :
    next.channel.latch.held.or next.generator.failure? =
      stream.channel.latch.held.or stream.generator.failure? := by
  cases move with
  | fails place =>
      rw [place]
      simp only [Latch.held_store, Generator.failure?]
      cases stream.channel.latch.held <;> rfl
  | sends place | goesOn place => rw [place]; rfl
  | isRefused place | isWoken place | isHalted place => cases unhindered

theorem sent?_of_mustStop (move : Move cancelled stream exchange next)
    (stops : stream.channel.mustStop cancelled = true) : exchange.sent? = none := by
  cases move with
  | sends place goesOn => simp [stops] at goesOn
  | _ => rfl

end Move

end Stream

end TilePyramid
