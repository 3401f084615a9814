import Mathlib
import TilePyramid.Proofs.Stream.History

/-!
# What comes through a stream

A consumer that has seen the end of a stream has received what its generator was told was taken, in
the same order. A generator that was not told to stop has sent all that it set out to offer. What
could have kept it from that is an abort or an error in the latch.
-/

set_option autoImplicit false

namespace TilePyramid

namespace Session

variable {session next last : Session} {events : List Event} {event : Event}
  {generator : Generator} {cancelled : Bool}

theorem eq_sends_of_mem {item : Item} (sent : item ∈ event.sentItems) :
    event = .generated ⟨.send item, true⟩ := by
  cases event with
  | generated exchange =>
      obtain ⟨request, reply⟩ := exchange
      cases request with
      | send other => cases reply <;> simp_all [Event.sentItems, Generator.Exchange.sent?]
      | fail error => cases sent
      | untilStopped => cases sent
      | mayGoOn => cases reply <;> cases sent
  | _ => cases sent

/-- What the generator has sent and latched, and what it still will, is what it set out to. -/
structure OnCourse (generator : Generator) (events : List Event) (session : Session) : Prop where
  unstopped : session.stream.channel.stopped = false
  offers_eq : generator.offers =
    events.flatMap Event.sentItems ++ session.stream.generator.offers
  failure?_eq : generator.failure? = session.heldError.or session.stream.generator.failure?

namespace OnCourse

private theorem quiet (kept : OnCourse generator events session) (sent : event.sentItems = [])
    (stopped : next.stream.channel.stopped = session.stream.channel.stopped)
    (generators : next.stream.generator = session.stream.generator)
    (held : next.heldError = session.heldError) : OnCourse generator (events ++ [event]) next where
  unstopped := stopped.trans kept.unstopped
  offers_eq := by simpa [sent, generators] using kept.offers_eq
  failure?_eq := by simpa [generators, held] using kept.failure?_eq

/-- A step that neither stops the stream nor hinders its generator keeps the stream on its course. -/
theorem advance (step : Step session event next) (goesOn : event.stops = false)
    (unhindered : ∀ exchange, event = .generated exchange → exchange.hinders = false)
    (kept : OnCourse generator events session) : OnCourse generator (events ++ [event]) next := by
  cases step with
  | closes empty ended => exact kept.quiet rfl rfl rfl rfl
  | cancels => exact kept.quiet rfl rfl rfl rfl
  | aborts => cases goesOn
  | drops => cases goesOn
  | receives taken =>
      obtain ⟨_, rfl⟩ := Channel.take?_eq_some_iff.mp taken
      exact kept.quiet rfl rfl rfl rfl
  | @generates exchange stream turn =>
      have move := Stream.move_of_turn turn
      have unhindered := unhindered exchange rfl
      constructor
      · exact move.stopped.trans kept.unstopped
      · simp [Event.sentItems, kept.offers_eq, move.offers_eq unhindered]
      · exact kept.failure?_eq.trans (move.failure?_eq unhindered).symm

theorem step (step : Step session event next) (goesOn : event.stops = false)
    (unset : next.heldError = none) (kept : OnCourse generator events session) :
    OnCourse generator (events ++ [event]) next := by
  refine kept.advance step goesOn fun exchange same => ?_
  subst same
  cases step with
  | @generates _ stream turn =>
      have move := Stream.move_of_turn turn
      cases hinders : exchange.hinders with
      | false => rfl
      | true =>
          -- A generator that is told to stop here is told so by its run, which is latched.
          rcases Bool.or_eq_true_iff.mp (move.mustStop_of_hinders hinders) with cancelled | stopped
          · rw [cancelled] at move
            have latched := move.isSet_of_hinders hinders
            have unlatched : stream.channel.latch.held = none := unset
            simp [Latch.isSet, unlatched] at latched
          · simp [kept.unstopped] at stopped

end OnCourse

theorem Runs.onCourse (run : Runs (start generator cancelled) events last)
    (goesOn : ∀ event ∈ events, event.stops = false) (unset : last.heldError = none) :
    OnCourse generator events last := by
  refine run.induct (fun events session => (∀ event ∈ events, event.stops = false) →
    session.heldError = none → OnCourse generator events session)
    (fun _ _ => ⟨rfl, rfl, rfl⟩) ?_ goesOn unset
  intro events session event next step kept goesOn unset
  have before : session.heldError = none := by
    cases held : session.heldError with
    | none => rfl
    | some error => simp [step.heldError held] at unset
  exact (kept (fun event member => goesOn event (by simp [member])) before).step step
    (goesOn event (by simp)) unset

theorem Closed.finished (closed : Closed session) :
    ∃ result, session.stream.generator = .done result := by
  have ended := closed.ended
  unfold Stream.hasEnded at ended
  split at ended
  · next result place => exact ⟨result, place⟩
  · cases ended

/-- A consumer that has seen the end of a stream has received all that was sent. -/
theorem Runs.received_eq (run : Runs (start generator cancelled) events last)
    (seen : .closed ∈ events) :
    events.flatMap Event.receivedItems = events.flatMap Event.sentItems := by
  rw [run.sent_eq, (run.closed seen).empty, Option.toList_none, List.append_nil]

/-- A generator that was told nothing and has ended has sent all that it set out to offer, and was to
latch no error. -/
theorem Runs.received_eq_offers (run : Runs (start generator cancelled) events last)
    (seen : .closed ∈ events) (goesOn : ∀ event ∈ events, event.stops = false)
    (unset : last.heldError = none) :
    events.flatMap Event.receivedItems = generator.offers ∧ generator.failure? = none := by
  have onCourse := run.onCourse goesOn unset
  obtain ⟨result, finished⟩ := (run.closed seen).finished
  constructor
  · rw [run.received_eq seen, onCourse.offers_eq, finished, Generator.offers, List.append_nil]
  · rw [onCourse.failure?_eq, unset, finished, Generator.failure?, Option.or_none]

/-- At every point, what was received are the first of the items whose sends were answered true. When
the consumer has seen the end of the stream, these are all of them. If then the stream was neither
aborted nor dropped and no error is latched, the consumer has all items of a region, a tile list or a
named tile. -/
theorem received_items_are_those_taken (run : Runs (start generator cancelled) events last) :
    events.flatMap Event.receivedItems <+: events.flatMap Event.sentItems ∧
    (∀ item ∈ events.flatMap Event.receivedItems, .generated ⟨.send item, true⟩ ∈ events) ∧
    (.closed ∈ events →
      events.flatMap Event.receivedItems = events.flatMap Event.sentItems ∧
      (.aborted ∉ events → .dropped ∉ events → last.heldError = none →
        (∀ bounds zooms, generator = .ofBounds bounds zooms →
          events.flatMap Event.receivedItems =
            zooms.levels.flatMap fun level => (Mercator.cover bounds level).tiles.map .tile) ∧
        (∀ list format expansion targets,
          generator = TileList.generate list format expansion targets →
          (∀ line ∈ list.lines, ∀ reason, TileList.readLine format line ≠ .bad reason) ∧
          events.flatMap Event.receivedItems =
            (list.lines.filterMap fun line => (TileList.readLine format line).tile?).flatMap
              fun named =>
                (expansion.tiles named).flatMap fun tile => targets.map fun map => .job ⟨map, tile⟩) ∧
        ∀ tile expansion targets, Generator.ofTile? tile expansion targets = .ok generator →
          events.flatMap Event.receivedItems =
            targets.flatMap fun map =>
              (expansion.tiles tile).map fun tile => .job ⟨map, tile⟩)) := by
  have leading : events.flatMap Event.receivedItems <+: events.flatMap Event.sentItems :=
    ⟨_, run.sent_eq.symm⟩
  refine ⟨leading, fun item received => ?_, fun seen => ⟨run.received_eq seen, ?_⟩⟩
  · obtain ⟨event, member, sent⟩ := List.mem_flatMap.mp (leading.subset received)
    exact eq_sends_of_mem sent ▸ member
  · intro unaborted undropped unset
    have goesOn : ∀ event ∈ events, event.stops = false := by
      intro event member
      cases event with
      | aborted => exact absurd member unaborted
      | dropped => exact absurd member undropped
      | _ => rfl
    obtain ⟨all, clean⟩ := run.received_eq_offers seen goesOn unset
    refine ⟨?_, ?_, ?_⟩
    · rintro bounds zooms rfl
      exact all.trans (Generator.gives_ofBounds bounds zooms).offers_eq
    · rintro list format expansion targets rfl
      obtain ⟨offers, failure⟩ :=
        TileList.course_generateFrom list.ending format expansion targets 0 list.lines
      obtain ⟨tiles, good⟩ := TileList.readFrom_of_complete (failure.symm.trans clean)
      exact ⟨good, all.trans (offers.trans (congrArg _ tiles))⟩
    · intro tile expansion targets accepted
      unfold Generator.ofTile? at accepted
      split at accepted
      · cases accepted
      · cases accepted
        exact all.trans (Generator.gives_ofTile tile expansion targets).offers_eq

/-- A named tile for two maps, whose consumer takes all that comes. -/
def sampleTaken : List Item × Session :=
  (start (.ofTile ⟨1, 1, 0⟩ { explicit := true } ["a", "b"]) false).takeAll

theorem named_tile_received_for_each_map :
    ∃ events, Runs (start (.ofTile ⟨1, 1, 0⟩ { explicit := true } ["a", "b"]) false) events
        sampleTaken.2 ∧
      .closed ∈ events ∧ sampleTaken.2.heldError = none ∧
      events.flatMap Event.receivedItems = [.job ⟨"a", ⟨1, 1, 0⟩⟩, .job ⟨"b", ⟨1, 1, 0⟩⟩] := by
  obtain ⟨events, (run : Runs _ events sampleTaken.2), -, seen⟩ :=
    exists_runs_takeAll (start (.ofTile ⟨1, 1, 0⟩ { explicit := true } ["a", "b"]) false)
  have seen : .closed ∈ events := seen (by cbv)
  have unset : sampleTaken.2.heldError = none := by cbv
  have goesOn : ∀ event ∈ events, event.stops = false := by
    have running : sampleTaken.2.stream.channel.stopped = false := by cbv
    rw [run.stopped_eq, Bool.or_eq_false_iff, List.any_eq_false] at running
    simpa using running.2
  obtain ⟨-, -, atEnd⟩ := received_items_are_those_taken run
  obtain ⟨-, complete⟩ := atEnd seen
  obtain ⟨-, -, ofTile⟩ := complete (fun aborted => by cases goesOn _ aborted)
    (fun dropped => by cases goesOn _ dropped) unset
  refine ⟨events, run, seen, unset, ?_⟩
  rw [ofTile ⟨1, 1, 0⟩ { explicit := true } ["a", "b"] rfl]
  rfl

end Session

end TilePyramid
