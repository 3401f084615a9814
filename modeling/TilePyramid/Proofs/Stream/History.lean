import TilePyramid.Proofs.Stream.Course
import TilePyramid.Stream.Session

/-!
# Histories of sessions

The generator of a session, its consumer and its run make their steps in any order. A history lists
what has happened, and what was sent, received and latched is read off it. Main statements:
`Runs.sent_eq`, `Runs.closed` and `exists_runs_performAll`.
-/

set_option autoImplicit false

namespace TilePyramid

namespace Stream

variable {cancelled : Bool} {stream next : Stream} {exchange : Generator.Exchange}
  {items : List Item} {exchanges : List Generator.Exchange}

theorem takeAll_of_turn (moved : stream.turn cancelled = some (exchange, next)) :
    stream.takeAll cancelled items exchanges =
      next.takeAll cancelled items (exchange :: exchanges) := by
  conv => lhs; unfold takeAll
  split
  · next other after same =>
    obtain ⟨rfl, rfl⟩ : exchange = other ∧ next = after := by simpa [moved] using same
    rfl
  · next waits => simp [moved] at waits

theorem takeAll_of_take (waits : stream.turn cancelled = none) {item : Item} {channel : Channel}
    (taken : stream.channel.take? = some (item, channel)) :
    stream.takeAll cancelled items exchanges =
      takeAll cancelled { stream with channel } (item :: items) exchanges := by
  conv => lhs; unfold takeAll
  split
  · next moved => simp [waits] at moved
  · split
    · next other rest same =>
      obtain ⟨rfl, rfl⟩ : item = other ∧ channel = rest := by simpa [taken] using same
      rfl
    · next empty => simp [taken] at empty

theorem takeAll_of_rest (waits : stream.turn cancelled = none)
    (empty : stream.channel.take? = none) :
    stream.takeAll cancelled items exchanges = ⟨stream, items.reverse, exchanges⟩ := by
  unfold takeAll
  split
  · next moved => simp [waits] at moved
  · split
    · next same => simp [empty] at same
    · rfl

end Stream

namespace Session

inductive Event where
  | generated (exchange : Generator.Exchange)
  /-- The consumer took an item, be it to use it or to discard it. -/
  | received (item : Item)
  /-- The consumer saw that nothing more comes. -/
  | closed
  | cancelled
  | aborted
  | dropped

namespace Event

/-- The items that the generator was told were taken. -/
def sentItems : Event → List Item
  | .generated exchange => exchange.sent?.toList
  | _ => []

def receivedItems : Event → List Item
  | .received item => [item]
  | _ => []

/-- The errors that the generator reported. -/
def failures : Event → List Error
  | .generated exchange => exchange.failure?.toList
  | _ => []

/-- The consumer stops the stream, and the run goes on. -/
def stops : Event → Bool
  | .aborted | .dropped => true
  | _ => false

end Event

/-- One step of a session. A consumer that has dropped its stream takes nothing more from it; what is
shown of all sessions does not depend on that. -/
inductive Step (session : Session) : Event → Session → Prop where
  | generates {exchange : Generator.Exchange} {stream : Stream}
      (turn : session.stream.turn session.cancelled = some (exchange, stream)) :
      Step session (.generated exchange)
        { session with stream, exchanges := exchange :: session.exchanges }
  | receives {item : Item} {channel : Channel}
      (taken : session.stream.channel.take? = some (item, channel)) :
      Step session (.received item) { session with stream := { session.stream with channel } }
  | closes (empty : session.stream.channel.take? = none) (ended : session.stream.hasEnded = true) :
      Step session .closed session
  | cancels : Step session .cancelled { session with cancelled := true }
  | aborts : Step session .aborted session.stop
  | drops : Step session .dropped session.stop

/-- The sessions that can come of one, with what has happened meanwhile. -/
inductive Runs (first : Session) : List Event → Session → Prop where
  | still : Runs first [] first
  | step {events : List Event} {session next : Session} {event : Event}
      (run : Runs first events session) (step : Step session event next) :
      Runs first (events ++ [event]) next

def start (generator : Generator) (cancelled : Bool) : Session :=
  { stream := { generator }, cancelled }

/-- The generator has to stop at the next occasion. -/
def mustStop (session : Session) : Bool := session.stream.channel.mustStop session.cancelled

def heldError (session : Session) : Option Error := session.stream.channel.latch.held

variable {first session next last : Session} {events earlier later : List Event} {event : Event}

theorem Step.mustStop (step : Step session event next) (stops : session.mustStop = true) :
    next.mustStop = true := by
  simp only [Session.mustStop, Channel.mustStop, Bool.or_eq_true] at stops ⊢
  cases step with
  | generates turn => rwa [(Stream.move_of_turn turn).stopped]
  | receives taken =>
      obtain ⟨_, rfl⟩ := Channel.take?_eq_some_iff.mp taken
      exact stops
  | closes empty ended => exact stops
  | cancels => exact .inl rfl
  | aborts => exact .inr rfl
  | drops => exact .inr rfl

theorem Step.stopped_eq (step : Step session event next) :
    next.stream.channel.stopped = (session.stream.channel.stopped || event.stops) := by
  cases step with
  | generates turn => simp [Event.stops, (Stream.move_of_turn turn).stopped]
  | receives taken =>
      obtain ⟨_, rfl⟩ := Channel.take?_eq_some_iff.mp taken
      simp [Event.stops]
  | closes empty ended => simp [Event.stops]
  | cancels => simp [Event.stops]
  | aborts => simp [Event.stops, stop, Channel.stop]
  | drops => simp [Event.stops, stop, Channel.stop]

/-- An item that was sent and not yet received is in the slot. -/
theorem Step.slot (step : Step session event next) :
    session.stream.channel.slot.toList ++ event.sentItems =
      event.receivedItems ++ next.stream.channel.slot.toList := by
  cases step with
  | generates turn => exact (Stream.move_of_turn turn).slot.symm
  | receives taken =>
      obtain ⟨full, rfl⟩ := Channel.take?_eq_some_iff.mp taken
      simp [full, Event.sentItems, Event.receivedItems]
  | closes empty ended => simp [Event.sentItems, Event.receivedItems]
  | cancels => simp [Event.sentItems, Event.receivedItems]
  | aborts => simp [Event.sentItems, Event.receivedItems, stop, Channel.stop]
  | drops => simp [Event.sentItems, Event.receivedItems, stop, Channel.stop]

/-- An error that is latched stays. -/
theorem Step.heldError (step : Step session event next) {error : Error}
    (held : session.heldError = some error) : next.heldError = some error := by
  unfold Session.heldError at held ⊢
  cases step with
  | generates turn =>
      rcases (Stream.move_of_turn turn).latch with same | ⟨reported, -, same⟩ | ⟨-, same⟩ <;>
        simp [same, Latch.held_store, held]
  | receives taken =>
      obtain ⟨_, rfl⟩ := Channel.take?_eq_some_iff.mp taken
      exact held
  | closes empty ended => exact held
  | cancels => exact held
  | aborts => exact held
  | drops => exact held

theorem Step.cancelled (step : Step session event next) (cancelled : session.cancelled = true) :
    next.cancelled = true := by
  cases step with
  | cancels => rfl
  | _ => exact cancelled

/-- Nothing more will come from the stream. -/
structure Closed (session : Session) : Prop where
  empty : session.stream.channel.slot = none
  ended : session.stream.hasEnded = true

theorem Closed.step (step : Step session event next) (closed : Closed session) : Closed next := by
  obtain ⟨empty, ended⟩ := closed
  cases step with
  | generates turn => simp [(Stream.move_of_turn turn).running] at ended
  | receives taken =>
      have full := (Channel.take?_eq_some_iff.mp taken).1
      simp [empty] at full
  | closes none _ => exact ⟨empty, ended⟩
  | cancels => exact ⟨empty, ended⟩
  | aborts => exact ⟨empty, ended⟩
  | drops => exact ⟨empty, ended⟩

namespace Runs

theorem single (step : Step session event next) : Runs session [event] next := .step .still step

theorem trans {between : Session} (run : Runs first earlier between)
    (rest : Runs between later last) : Runs first (earlier ++ later) last := by
  induction rest with
  | still => simpa using run
  | step _ step ih => simpa using ih.step step

/-- What holds at first and is kept by every step holds at the end. -/
theorem induct (holds : List Event → Session → Prop) (run : Runs first events last)
    (initially : holds [] first)
    (kept : ∀ {events session event next}, Step session event next → holds events session →
      holds (events ++ [event]) next) : holds events last := by
  induction run with
  | still => exact initially
  | step _ step ih => exact kept step ih

theorem invariant (holds : Session → Prop) (run : Runs first events last) (initially : holds first)
    (kept : ∀ {session event next}, Step session event next → holds session → holds next) :
    holds last :=
  run.induct (fun _ session => holds session) initially kept

theorem mustStop (run : Runs first events last) (stops : first.mustStop = true) :
    last.mustStop = true :=
  run.invariant (·.mustStop = true) stops Step.mustStop

theorem heldError (run : Runs first events last) {error : Error}
    (held : first.heldError = some error) : last.heldError = some error :=
  run.invariant (·.heldError = some error) held fun step held => step.heldError held

/-- What was in the slot and what was sent has been received or is in the slot, in this order. -/
theorem slot (run : Runs first events last) :
    first.stream.channel.slot.toList ++ events.flatMap Event.sentItems =
      events.flatMap Event.receivedItems ++ last.stream.channel.slot.toList := by
  refine run.induct (fun events session =>
    first.stream.channel.slot.toList ++ events.flatMap Event.sentItems =
      events.flatMap Event.receivedItems ++ session.stream.channel.slot.toList) (by simp) ?_
  intro events session event next step balanced
  calc first.stream.channel.slot.toList ++ (events ++ [event]).flatMap Event.sentItems
      = (first.stream.channel.slot.toList ++ events.flatMap Event.sentItems) ++
          event.sentItems := by simp
    _ = events.flatMap Event.receivedItems ++
          (session.stream.channel.slot.toList ++ event.sentItems) := by
        rw [balanced, List.append_assoc]
    _ = (events ++ [event]).flatMap Event.receivedItems ++ next.stream.channel.slot.toList := by
        rw [step.slot]
        simp

/-- From a fresh stream, what was sent has been received or is in the slot, in this order. -/
theorem sent_eq {generator : Generator} {cancelled : Bool}
    (run : Runs (start generator cancelled) events last) :
    events.flatMap Event.sentItems =
      events.flatMap Event.receivedItems ++ last.stream.channel.slot.toList :=
  run.slot

theorem closed (run : Runs first events last) (seen : .closed ∈ events) : Closed last := by
  refine run.induct (fun events session => .closed ∈ events → Closed session) nofun ?_ seen
  intro events session event next step kept seen
  rcases List.mem_append.mp seen with before | now
  · exact (kept before).step step
  · cases List.mem_singleton.mp now
    cases step with
    | closes empty ended => exact ⟨by simpa using empty, ended⟩

/-- A stream is stopped if its consumer aborted or dropped it. -/
theorem stopped_eq (run : Runs first events last) :
    last.stream.channel.stopped = (first.stream.channel.stopped || events.any Event.stops) := by
  refine run.induct (fun events session => session.stream.channel.stopped =
    (first.stream.channel.stopped || events.any Event.stops)) (by simp) ?_
  intro events session event next step kept
  simp [step.stopped_eq, kept, Bool.or_assoc]

end Runs

/-- Letting the generator run makes only steps of the generator. -/
theorem exists_runs_settle (cancelled : Bool) (stream : Stream)
    (exchanges : List Generator.Exchange) :
    ∃ events, Runs ⟨stream, cancelled, exchanges⟩ events
      ⟨(stream.settle cancelled exchanges).1, cancelled, (stream.settle cancelled exchanges).2⟩ := by
  induction stream, exchanges using Stream.settle.induct cancelled with
  | case1 stream exchanges waits =>
      rw [Stream.settle]
      split
      · exact ⟨[], .still⟩
      · next moved => simp [waits] at moved
  | case2 stream exchanges exchange next moved ih =>
      obtain ⟨events, run⟩ := ih
      rw [Stream.settle]
      split
      · next waits => simp [moved] at waits
      · next other after same =>
        obtain ⟨rfl, rfl⟩ : exchange = other ∧ next = after := by simpa [moved] using same
        exact ⟨_, (Runs.single (.generates moved)).trans run⟩

/-- Taking all items is a run in which they are received. It ends with the consumer seeing the end of
the stream, if the generator comes to its end. -/
theorem exists_runs_streamTakeAll (cancelled : Bool) (stream : Stream) (items : List Item)
    (exchanges : List Generator.Exchange) :
    ∃ events, Runs ⟨stream, cancelled, exchanges⟩ events
        ⟨(stream.takeAll cancelled items exchanges).stream, cancelled,
          (stream.takeAll cancelled items exchanges).exchanges⟩ ∧
      (stream.takeAll cancelled items exchanges).items =
        items.reverse ++ events.flatMap Event.receivedItems ∧
      ((stream.takeAll cancelled items exchanges).stream.hasEnded = true → .closed ∈ events) := by
  induction stream, items, exchanges using Stream.takeAll.induct cancelled with
  | case1 stream items exchanges exchange next moved ih =>
      obtain ⟨events, run, received, closed⟩ := ih
      rw [Stream.takeAll_of_turn moved]
      exact ⟨_, (Runs.single (.generates moved)).trans run,
        by simpa [Event.receivedItems] using received, fun ended => by simp [closed ended]⟩
  | case2 stream items exchanges waits item channel taken ih =>
      obtain ⟨events, run, received, closed⟩ := ih
      rw [Stream.takeAll_of_take waits taken]
      exact ⟨_, (Runs.single (.receives taken)).trans run,
        by simpa [Event.receivedItems] using received, fun ended => by simp [closed ended]⟩
  | case3 stream items exchanges waits empty =>
      rw [Stream.takeAll_of_rest waits empty]
      cases ended : stream.hasEnded with
      | true =>
          exact ⟨_, .single (.closes empty ended), by simp [Event.receivedItems], fun _ => by simp⟩
      | false => exact ⟨[], .still, by simp, nofun⟩

theorem exists_runs_takeAll (session : Session) :
    ∃ events, Runs session events session.takeAll.2 ∧
      session.takeAll.1 = events.flatMap Event.receivedItems ∧
      (session.takeAll.2.stream.hasEnded = true → .closed ∈ events) := by
  obtain ⟨events, run, received, closed⟩ :=
    exists_runs_streamTakeAll session.cancelled session.stream [] session.exchanges
  exact ⟨events, run, received, closed⟩

theorem exists_runs_perform (session : Session) (command : Command) :
    ∃ events, Runs session events (session.perform command).2 := by
  cases command with
  | next =>
      simp only [perform, Session.next]
      split
      · next taken => exact ⟨_, .single (.receives taken)⟩
      · exact ⟨[], .still⟩
  | all | drain | finish | toList =>
      obtain ⟨events, run, -⟩ := exists_runs_takeAll session
      exact ⟨events, run⟩
  | cancel => exact ⟨_, .single .cancels⟩
  | abort => exact ⟨_, .single .aborts⟩
  | drop => exact ⟨_, .single .drops⟩
  | isCancelled | error => exact ⟨[], .still⟩

/-- A session that is worked by commands makes one of its runs. -/
theorem exists_runs_performAll (session : Session) (commands : List Command) :
    ∃ events, Runs session events (session.performAll commands).2 := by
  induction commands generalizing session with
  | nil => exact exists_runs_settle session.cancelled session.stream session.exchanges
  | cons command rest ih =>
      obtain ⟨before, settles⟩ :=
        exists_runs_settle session.cancelled session.stream session.exchanges
      obtain ⟨events, performs⟩ := exists_runs_perform session.settle command
      obtain ⟨after, others⟩ := ih (session.settle.perform command).2
      exact ⟨_, (settles.trans performs).trans others⟩

end Session

end TilePyramid
