import TilePyramid.Proofs.Stream.Delivery

/-!
# Streams that have to stop

A stream has to stop when its consumer aborts or drops it, or when its run is cancelled. Only the
latter is an error of the stream. Once it has to stop, nothing more is taken from its generator, and
the generator waits for nothing any more.
-/

set_option autoImplicit false

namespace TilePyramid

/-- A generator that has to stop does not wait. -/
theorem Stream.exists_turn_of_mustStop {cancelled : Bool} {stream : Stream}
    (stops : stream.channel.mustStop cancelled = true) (running : stream.hasEnded = false) :
    ∃ exchange next, stream.turn cancelled = some (exchange, next) := by
  obtain ⟨generator, channel⟩ := stream
  have told : channel.mustStop cancelled = true := stops
  cases generator with
  | done result => cases running
  | ask request next => cases request <;> simp [turn, Channel.respond, told]

namespace Session

variable {first session next last between : Session} {events earlier later : List Event}
  {event : Event} {generator : Generator} {cancelled : Bool}

/-- While its run is not cancelled, a stream latches what its generator reports, and nothing else. -/
theorem Step.heldError_eq (step : Step session event next) (running : session.cancelled = false) :
    next.heldError = session.heldError.or event.failures.head? := by
  cases step with
  | closes empty ended => simp [Event.failures]
  | cancels => simp [Event.failures, Session.heldError]
  | aborts => simp [Event.failures, Session.heldError, stop, Channel.stop]
  | drops => simp [Event.failures, Session.heldError, stop, Channel.stop]
  | receives taken =>
      obtain ⟨_, rfl⟩ := Channel.take?_eq_some_iff.mp taken
      simp [Event.failures, Session.heldError]
  | generates turn =>
      rw [running] at turn
      have move := Stream.move_of_turn turn
      cases move <;>
        simp [Session.heldError, Event.failures, Generator.Exchange.failure?, Latch.held_store,
          Channel.latch_noteStop]

/-- An error in the latch was reported by the generator or tells that the run is cancelled. -/
theorem Step.heldError_cases (step : Step session event next) {error : Error}
    (held : next.heldError = some error) :
    session.heldError = some error ∨ error ∈ event.failures ∨
      error = .canceled ∧ next.cancelled = true := by
  cases step with
  | closes empty ended => exact .inl held
  | cancels => exact .inl held
  | aborts => exact .inl held
  | drops => exact .inl held
  | receives taken =>
      obtain ⟨_, rfl⟩ := Channel.take?_eq_some_iff.mp taken
      exact .inl held
  | generates turn =>
      unfold Session.heldError at held ⊢
      rcases (Stream.move_of_turn turn).latch with same | ⟨failure, reported, same⟩ |
        ⟨cancelled, same⟩
      · exact .inl (by rw [← same]; exact held)
      · rcases Latch.held_or_eq_of_store (by rw [← same]; exact held) with old | rfl
        · exact .inl old
        · exact .inr (.inl (by simp [Event.failures, reported]))
      · rcases Latch.held_or_eq_of_store (by rw [← same]; exact held) with old | rfl
        · exact .inl old
        · exact .inr (.inr ⟨rfl, cancelled⟩)

/-- Nothing is sent in a step of a stream that has to stop. -/
theorem Step.sentItems_eq_nil (step : Step session event next) (stops : session.mustStop = true) :
    event.sentItems = [] := by
  cases step with
  | generates turn =>
      rw [Event.sentItems, (Stream.move_of_turn turn).sent?_of_mustStop stops]
      rfl
  | _ => rfl

theorem Step.canReport {error : Error} (step : Step session event next)
    (reports : next.stream.generator.CanReport error ∨ error ∈ event.failures) :
    session.stream.generator.CanReport error := by
  cases step with
  | generates turn =>
      exact (Stream.move_of_turn turn).canReport
        (reports.imp id fun member => by simpa [Event.failures] using member)
  | _ => exact reports.resolve_right (by simp [Event.failures])

namespace Runs

theorem heldError_eq (run : Runs (start generator cancelled) events last)
    (running : last.cancelled = false) :
    last.heldError = (events.flatMap Event.failures).head? := by
  refine run.induct (fun events session => session.cancelled = false →
    session.heldError = (events.flatMap Event.failures).head?) (fun _ => rfl) ?_ running
  intro events session event next step kept running
  have before : session.cancelled = false := by
    cases cancelled : session.cancelled with
    | false => rfl
    | true => simp [step.cancelled cancelled] at running
  simp [step.heldError_eq before, kept before]

theorem canceled_cause (run : Runs (start generator cancelled) events last)
    (held : last.heldError = some .canceled) :
    .canceled ∈ events.flatMap Event.failures ∨ last.cancelled = true := by
  refine run.induct (fun events session => session.heldError = some .canceled →
    .canceled ∈ events.flatMap Event.failures ∨ session.cancelled = true) nofun ?_ held
  intro events session event next step kept held
  rcases step.heldError_cases held with before | reported | ⟨-, cancelled⟩
  · rcases kept before with reported | cancelled
    · exact .inl (by simp [reported])
    · exact .inr (step.cancelled cancelled)
  · exact .inl (by simp [reported])
  · exact .inr cancelled

theorem canReport {error : Error} (run : Runs (start generator cancelled) events last)
    (reported : error ∈ events.flatMap Event.failures) : generator.CanReport error := by
  have kept := run.induct (fun events session => session.stream.generator.CanReport error ∨
    error ∈ events.flatMap Event.failures → generator.CanReport error) (by simp [start]) ?_
  · exact kept (.inr reported)
  intro events session event next step kept told
  simp only [List.flatMap_append, List.flatMap_singleton, List.mem_append, or_left_comm] at told
  rcases told with before | now
  · exact kept (.inr before)
  · exact kept (.inl (step.canReport now))

theorem sentItems_eq_nil (run : Runs first events last) (stops : first.mustStop = true) :
    events.flatMap Event.sentItems = [] := by
  refine (run.induct (fun events session => session.mustStop = true ∧
    events.flatMap Event.sentItems = []) ⟨stops, rfl⟩ ?_).2
  intro events session event next step kept
  exact ⟨step.mustStop kept.1, by simp [kept.2, step.sentItems_eq_nil kept.1]⟩

/-- What still comes from a stream that has to stop is the item that waits in its slot. -/
theorem length_received_le_one (run : Runs first events last) (stops : first.mustStop = true) :
    (events.flatMap Event.receivedItems).length ≤ 1 := by
  have balanced := congrArg List.length run.slot
  rw [run.sentItems_eq_nil stops] at balanced
  have few : first.stream.channel.slot.toList.length ≤ 1 := by
    cases first.stream.channel.slot <;> simp
  simp only [List.append_nil, List.length_append] at balanced
  omega

end Runs

/-- If its generator reports no cancellation, a stream holds one only if its run is cancelled, and it
holds nothing but what the generator reported until then. A latched error stays. Once the stream has
to stop, every send is answered false, at most one more item is received, and the generator goes on
until it has ended. -/
theorem canceled_only_by_run_and_stopping_final (honest : ¬ generator.CanReport .canceled)
    (run : Runs (start generator cancelled) earlier between) (rest : Runs between later last) :
    (between.heldError = some .canceled → between.cancelled = true) ∧
    (between.cancelled = false →
      between.heldError = (earlier.flatMap Event.failures).head?) ∧
    (∀ error, between.heldError = some error → last.heldError = some error) ∧
    (between.mustStop = true →
      (∀ item taken, .generated ⟨.send item, taken⟩ ∈ later → taken = false) ∧
      (later.flatMap Event.receivedItems).length ≤ 1 ∧
      (last.stream.hasEnded = false →
        ∃ exchange stream, last.stream.turn last.cancelled = some (exchange, stream))) := by
  refine ⟨fun held => ?_, run.heldError_eq, fun error => rest.heldError, fun stops => ⟨?_, ?_, ?_⟩⟩
  · exact (run.canceled_cause held).resolve_left fun reported => honest (run.canReport reported)
  · intro item taken sent
    have none := List.flatMap_eq_nil_iff.mp (rest.sentItems_eq_nil stops) _ sent
    cases taken with
    | false => rfl
    | true => cases none
  · exact rest.length_received_le_one stops
  · exact Stream.exists_turn_of_mustStop (rest.mustStop stops)

def sampleNamed : Generator := .ofTile ⟨1, 1, 0⟩ { explicit := true } ["a", "b", "c"]

/-- A session that is cancelled after its consumer took one item. -/
def sampleCancelled : Session :=
  { ((start sampleNamed false).performAll [.next]).2 with cancelled := true }

theorem cancelled_stream_gives_one_more :
    ∃ earlier later, Runs (start sampleNamed false) earlier sampleCancelled ∧
      Runs sampleCancelled later (sampleCancelled.performAll [.drain]).2 ∧
      sampleCancelled.heldError = none ∧
      (sampleCancelled.performAll [.drain]).2.heldError = some .canceled ∧
      (sampleCancelled.performAll [.drain]).2.cancelled = true ∧
      (later.flatMap Event.receivedItems).length ≤ 1 := by
  have honest : ¬ sampleNamed.CanReport .canceled :=
    fun reports => nomatch (Generator.gives_ofTile _ _ _).reports reports
  obtain ⟨before, took⟩ := exists_runs_performAll (start sampleNamed false) [.next]
  obtain ⟨later, drains⟩ := exists_runs_performAll sampleCancelled [.drain]
  have run : Runs (start sampleNamed false) (before ++ [.cancelled]) sampleCancelled :=
    took.step .cancels
  obtain ⟨-, -, -, final⟩ := canceled_only_by_run_and_stopping_final honest run drains
  obtain ⟨cancelled, -⟩ := canceled_only_by_run_and_stopping_final honest (run.trans drains) .still
  have held : (sampleCancelled.performAll [.drain]).2.heldError = some .canceled := by cbv
  exact ⟨_, later, run, drains, by cbv, held, cancelled held, (final rfl).2.1⟩

end Session

end TilePyramid
