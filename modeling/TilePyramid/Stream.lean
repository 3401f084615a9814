import TilePyramid.Error
import TilePyramid.Map
import TilePyramid.Program

/-!
# Streams of generated items

A generator is a program that offers items one after the other. A channel joins it to a consumer by
a slot that holds one item: an offer is taken when the slot is free, waits while it is not, and is
refused once the stream has to stop. A stream has to stop when its consumer stops it or the whole
run is cancelled; only the latter is latched as an error.

`Stream.turn` is one step of the generator and `Channel.take?` one of the consumer.
-/

set_option autoImplicit false

namespace TilePyramid

namespace Generator

/-- What a generator asks of its stream. -/
inductive Request where
  /-- Offer an item; the reply says whether it was taken. -/
  | send (item : Item)
  /-- Latch an error. -/
  | fail (error : Error)
  /-- Wait until the stream has to stop. -/
  | untilStopped
  /-- Whether to go on, that is, the stream has not to stop. -/
  | mayGoOn
deriving DecidableEq

@[reducible] def Reply : Request → Type
  | .send _ => Bool
  | .fail _ => Unit
  | .untilStopped => Unit
  | .mayGoOn => Bool

structure Exchange where
  request : Request
  reply : Reply request

def Exchange.sent? : Exchange → Option Item
  | ⟨.send item, true⟩ => some item
  | _ => none

end Generator

/-- A part of a generator, with a result for the parts that follow. -/
abbrev Generation (α : Type) := Program Generator.Request Generator.Reply α

/-- A program that offers items to a stream. -/
abbrev Generator := Generation Unit

/-- What a generator and its consumer share. -/
structure Channel where
  slot : Option Item := none
  latch : Latch := .empty
  stopped : Bool := false
deriving DecidableEq

namespace Channel

/-- The stream has to stop; `cancelled` tells whether the run is cancelled. -/
def mustStop (cancelled : Bool) (channel : Channel) : Bool := cancelled || channel.stopped

/-- Notes that the generator was told to stop: an error only if the run is cancelled. -/
def noteStop (cancelled : Bool) (channel : Channel) : Channel :=
  if cancelled then { channel with latch := channel.latch.store .canceled } else channel

/-- Replies to a generator, unless it has to wait. -/
def respond (cancelled : Bool) (channel : Channel) :
    (request : Generator.Request) → Option (Generator.Reply request × Channel)
  | .send item =>
      if channel.mustStop cancelled then some (false, channel.noteStop cancelled)
      else
        match channel.slot with
        | none => some (true, { channel with slot := some item })
        | some _ => none
  | .fail error => some ((), { channel with latch := channel.latch.store error })
  | .untilStopped =>
      if channel.mustStop cancelled then some ((), channel.noteStop cancelled) else none
  | .mayGoOn =>
      if channel.mustStop cancelled then some (false, channel.noteStop cancelled)
      else some (true, channel)

/-- The consumer takes the item in the slot. -/
def take? (channel : Channel) : Option (Item × Channel) :=
  channel.slot.map fun item => (item, { channel with slot := none })

def stop (channel : Channel) : Channel := { channel with stopped := true }

def load (channel : Channel) : Nat := channel.slot.toList.length

theorem load_of_take? {channel rest : Channel} {item : Item}
    (taken : channel.take? = some (item, rest)) : rest.load < channel.load := by
  obtain ⟨slot, latch, stopped⟩ := channel
  cases slot with
  | none => simp [take?] at taken
  | some _ =>
      simp only [take?, Option.map_some, Option.some.injEq, Prod.mk.injEq] at taken
      simp [← taken.2, load]

end Channel

/-- A generator and the channel to its consumer. -/
structure Stream where
  generator : Generator
  channel : Channel := {}

namespace Stream

def hasEnded (stream : Stream) : Bool :=
  match stream.generator with
  | .done _ => true
  | .ask .. => false

/-- One step of the generator, unless it has ended or waits. -/
def turn (cancelled : Bool) (stream : Stream) : Option (Generator.Exchange × Stream) :=
  match stream.generator with
  | .done _ => none
  | .ask request next =>
      (stream.channel.respond cancelled request).map fun (reply, channel) =>
        (⟨request, reply⟩, ⟨next reply, channel⟩)

/-- Every step of a generator continues it. -/
theorem continues_of_turn {cancelled : Bool} {stream next : Stream} {exchange : Generator.Exchange}
    (step : stream.turn cancelled = some (exchange, next)) :
    Program.Continues next.generator stream.generator := by
  obtain ⟨generator, channel⟩ := stream
  cases generator with
  | done result => simp [turn] at step
  | ask request replies =>
      simp only [turn, Option.map_eq_some_iff] at step
      obtain ⟨⟨reply, after⟩, _, same⟩ := step
      cases same
      exact .reply _ _ _

/-- Lets the generator run until it ends or waits. Exchanges are collected with the latest first. -/
def settle (cancelled : Bool) (stream : Stream) (exchanges : List Generator.Exchange) :
    Stream × List Generator.Exchange :=
  match _step : stream.turn cancelled with
  | none => (stream, exchanges)
  | some (exchange, next) => settle cancelled next (exchange :: exchanges)
termination_by stream.generator
decreasing_by exact continues_of_turn _step

/-- A stream whose items were taken until nothing more came, and what happened meanwhile. -/
structure Emptied where
  stream : Stream
  items : List Item
  exchanges : List Generator.Exchange

/-- Takes items until the stream is closed or nothing comes. Items and exchanges are collected with
the latest first. -/
def takeAll (cancelled : Bool) (stream : Stream) (items : List Item)
    (exchanges : List Generator.Exchange) : Emptied :=
  match _step : stream.turn cancelled with
  | some (exchange, next) => takeAll cancelled next items (exchange :: exchanges)
  | none =>
      match _taken : stream.channel.take? with
      | some (item, channel) => takeAll cancelled { stream with channel } (item :: items) exchanges
      | none => ⟨stream, items.reverse, exchanges⟩
termination_by (stream.generator, stream.channel.load)
decreasing_by
  · exact Prod.Lex.left _ _ (continues_of_turn _step)
  · exact Prod.Lex.right _ (Channel.load_of_take? _taken)

end Stream

end TilePyramid
