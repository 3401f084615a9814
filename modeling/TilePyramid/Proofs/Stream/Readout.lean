import TilePyramid.Proofs.Stream.Delivery

/-!
# Streams that are read to their end

Nobody stops the stream, its run is not cancelled, and its consumer goes on until it sees the end.
Then the consumer has exactly what the generator sets out to offer, and the stream holds exactly the
error that the generator reports. Main statements: `ReadOut.received_eq`, `ReadOut.heldError_eq` and
`exists_readOut`.
-/

set_option autoImplicit false

namespace TilePyramid

namespace Stream

variable {cancelled : Bool} {stream : Stream} {items : List Item}
  {exchanges : List Generator.Exchange}

/-- Taking all items ends where the stream moves no more, and what is kept meanwhile holds there. -/
theorem takeAll_invariant (cancelled : Bool) (stream : Stream) (items : List Item)
    (exchanges : List Generator.Exchange) (holds : Stream → Prop)
    (moves : ∀ {stream next exchange}, stream.turn cancelled = some (exchange, next) →
      holds stream → holds next)
    (takes : ∀ {stream : Stream} {item : Item} {channel : Channel},
      stream.channel.take? = some (item, channel) → holds stream → holds { stream with channel })
    (initially : holds stream) :
    let after := (stream.takeAll cancelled items exchanges).stream
    holds after ∧ after.turn cancelled = none ∧ after.channel.take? = none := by
  induction stream, items, exchanges using Stream.takeAll.induct cancelled with
  | case1 stream items exchanges exchange next moved ih =>
      rw [takeAll_of_turn moved]
      exact ih (moves moved initially)
  | case2 stream items exchanges waits item channel taken ih =>
      rw [takeAll_of_take waits taken]
      exact ih (takes taken initially)
  | case3 stream items exchanges waits empty =>
      rw [takeAll_of_rest waits empty]
      exact ⟨initially, waits, empty⟩

/-- A stream whose generator waits for nothing but its consumer is emptied to its end. -/
theorem hasEnded_takeAll (waits : stream.generator.WaitsOnlyToSend) :
    (stream.takeAll cancelled items exchanges).stream.hasEnded = true := by
  obtain ⟨stillWaits, still, empty⟩ := stream.takeAll_invariant cancelled items exchanges
    (fun stream => stream.generator.WaitsOnlyToSend)
    (fun moved waits => (move_of_turn moved).waitsOnlyToSend waits) (fun _ waits => waits) waits
  generalize (stream.takeAll cancelled items exchanges).stream = after at stillWaits still empty ⊢
  cases running : after.hasEnded with
  | true => rfl
  | false =>
      have moves : ∃ exchange next, after.turn cancelled = some (exchange, next) := by
        refine exists_turn running (Channel.take?_eq_none_iff.mp empty) fun next place => ?_
        rw [place] at stillWaits
        exact absurd rfl stillWaits.1
      obtain ⟨exchange, next, moved⟩ := moves
      simp [still] at moved

theorem stopped_takeAll :
    (stream.takeAll cancelled items exchanges).stream.channel.stopped = stream.channel.stopped := by
  have kept := stream.takeAll_invariant cancelled items exchanges
    (fun after => after.channel.stopped = stream.channel.stopped)
    (fun moved same => (move_of_turn moved).stopped.trans same)
    (fun taken same => by
      obtain ⟨_, rfl⟩ := Channel.take?_eq_some_iff.mp taken
      exact same) rfl
  exact kept.1

end Stream

namespace Session

variable {first last : Session} {events : List Event} {generator : Generator}

theorem Runs.cancelled (run : Runs first events last) (member : .cancelled ∈ events) :
    last.cancelled = true := by
  refine run.induct (fun events session => .cancelled ∈ events → session.cancelled = true) nofun ?_
    member
  intro events session event next step kept member
  rcases List.mem_append.mp member with before | now
  · exact step.cancelled (kept before)
  · cases List.mem_singleton.mp now
    cases step
    rfl

/-- A fresh stream was read to its end, without its run being cancelled or its consumer stopping
it. -/
structure ReadOut (generator : Generator) (events : List Event) (last : Session) : Prop where
  run : Runs (start generator false) events last
  uncancelled : .cancelled ∉ events
  unstopped : ∀ event ∈ events, event.stops = false
  seen : .closed ∈ events

/-- As long as its run is not cancelled and nobody stops it, a stream is on its course. -/
theorem Runs.onCourse_of_uncancelled (run : Runs (start generator false) events last)
    (uncancelled : .cancelled ∉ events) (unstopped : ∀ event ∈ events, event.stops = false) :
    OnCourse generator events last ∧ last.cancelled = false := by
  refine run.induct (fun events session => .cancelled ∉ events →
    (∀ event ∈ events, event.stops = false) →
      OnCourse generator events session ∧ session.cancelled = false)
    (fun _ _ => ⟨⟨rfl, rfl, rfl⟩, rfl⟩) ?_ uncancelled unstopped
  intro events session event next step kept uncancelled unstopped
  obtain ⟨onCourse, running⟩ := kept (fun member => uncancelled (by simp [member]))
    fun event member => unstopped event (by simp [member])
  have goesOn : event.stops = false := unstopped event (by simp)
  constructor
  · refine onCourse.advance step goesOn fun exchange same => ?_
    subst same
    cases step with
    | generates turn =>
        cases hinders : exchange.hinders with
        | false => rfl
        | true =>
            have stops := (Stream.move_of_turn turn).mustStop_of_hinders hinders
            simp [Channel.mustStop, running, onCourse.unstopped] at stops
  · cases step with
    | cancels => simp at uncancelled
    | generates | receives | closes | aborts | drops => exact running

namespace ReadOut

/-- The consumer has received what the generator sets out to offer. -/
theorem received_eq (out : ReadOut generator events last) :
    events.flatMap Event.receivedItems = generator.offers := by
  obtain ⟨onCourse, -⟩ := out.run.onCourse_of_uncancelled out.uncancelled out.unstopped
  obtain ⟨result, finished⟩ := (out.run.closed out.seen).finished
  rw [out.run.received_eq out.seen, onCourse.offers_eq, finished, Generator.offers, List.append_nil]

/-- The stream holds the error that the generator reports. -/
theorem heldError_eq (out : ReadOut generator events last) :
    last.heldError = generator.failure? := by
  obtain ⟨onCourse, -⟩ := out.run.onCourse_of_uncancelled out.uncancelled out.unstopped
  obtain ⟨result, finished⟩ := (out.run.closed out.seen).finished
  rw [onCourse.failure?_eq, finished, Generator.failure?, Option.or_none]

end ReadOut

/-- A stream whose generator waits for nothing but its consumer is read to its end by taking all that
comes. -/
theorem exists_readOut (waits : generator.WaitsOnlyToSend) :
    ∃ events last, ReadOut generator events last ∧
      (start generator false).takeAll = (events.flatMap Event.receivedItems, last) := by
  obtain ⟨events, run, received, closed⟩ := exists_runs_takeAll (start generator false)
  refine ⟨events, (start generator false).takeAll.2, ⟨run, ?_, ?_, ?_⟩, Prod.ext received rfl⟩
  · intro member
    exact absurd (run.cancelled member) Bool.false_ne_true
  · have unstopped : (start generator false).takeAll.2.stream.channel.stopped = false :=
      Stream.stopped_takeAll
    rw [run.stopped_eq, Bool.or_eq_false_iff, List.any_eq_false] at unstopped
    simpa using unstopped.2
  · exact closed (Stream.hasEnded_takeAll waits)

end Session

end TilePyramid
