import TilePyramid.Stream.Generators

/-!
# What a step of a generator can do

A generator hands over an item, is refused one, latches an error, or learns whether it has to stop.
Main statement: `move_of_turn`. As long as nothing hinders it, a generator hands over exactly the
items that it sets out to offer.
-/

set_option autoImplicit false

namespace TilePyramid

def Generator.Exchange.hinders : Generator.Exchange → Bool
  | ⟨.send _, taken⟩ => !taken
  | ⟨.fail _, _⟩ => false
  | ⟨.untilStopped, _⟩ => true
  | ⟨.mayGoOn, goesOn⟩ => !goesOn

def Generator.Exchange.failure? : Generator.Exchange → Option Error
  | ⟨.fail error, _⟩ => some error
  | _ => none

/-- The items that a generator sets out to offer, which are those it offers while none is refused. -/
def Generator.offers : Generator → List Item
  | .done _ => []
  | .ask (.send item) next => item :: offers (next true)
  | .ask (.fail _) next => offers (next ())
  | .ask .untilStopped _ => []
  | .ask .mayGoOn next => offers (next true)

def Generator.ofItems (items : List Item) : Generator := do
  let _ ← whileTaken send items

theorem Generator.offers_whileTaken_send (items : List Item) (next : Bool → Generator) :
    offers (Program.bind (whileTaken send items) next) = items ++ (next true).offers := by
  induction items with
  | nil => rfl
  | cons item rest ih => simpa [whileTaken, send, offers] using ih

@[simp] theorem Generator.offers_ofItems (items : List Item) : (ofItems items).offers = items := by
  simp [ofItems, offers_whileTaken_send, offers]

namespace Channel

variable (cancelled : Bool) (channel : Channel)

@[simp] theorem slot_noteStop : (channel.noteStop cancelled).slot = channel.slot := by
  cases cancelled <;> rfl

@[simp] theorem stopped_noteStop : (channel.noteStop cancelled).stopped = channel.stopped := by
  cases cancelled <;> rfl

theorem latch_noteStop : (channel.noteStop cancelled).latch =
    if cancelled then channel.latch.store .canceled else channel.latch := by
  cases cancelled <;> rfl

variable {channel} {rest : Channel} {item : Item}

theorem take?_eq_some_iff : channel.take? = some (item, rest) ↔
    channel.slot = some item ∧ rest = { channel with slot := none } := by
  obtain ⟨slot, latch, stopped⟩ := channel
  cases slot with
  | none => simp [take?]
  | some held => simp [take?, eq_comm]

@[simp] theorem take?_eq_none_iff : channel.take? = none ↔ channel.slot = none := by
  simp [take?]

end Channel

namespace Stream

/-- A step of the generator of a stream: what was exchanged, and the stream after it. -/
inductive Move (cancelled : Bool) (stream : Stream) : Generator.Exchange → Stream → Prop where
  | sends {item : Item} {next : Bool → Generator}
      (place : stream.generator = .ask (.send item) next)
      (goesOn : stream.channel.mustStop cancelled = false) (free : stream.channel.slot = none) :
      Move cancelled stream ⟨.send item, true⟩
        ⟨next true, { stream.channel with slot := some item }⟩
  | isRefused {item : Item} {next : Bool → Generator}
      (place : stream.generator = .ask (.send item) next)
      (stops : stream.channel.mustStop cancelled = true) :
      Move cancelled stream ⟨.send item, false⟩ ⟨next false, stream.channel.noteStop cancelled⟩
  | fails {error : Error} {next : Unit → Generator}
      (place : stream.generator = .ask (.fail error) next) :
      Move cancelled stream ⟨.fail error, ()⟩
        ⟨next (), { stream.channel with latch := stream.channel.latch.store error }⟩
  | isWoken {next : Unit → Generator} (place : stream.generator = .ask .untilStopped next)
      (stops : stream.channel.mustStop cancelled = true) :
      Move cancelled stream ⟨.untilStopped, ()⟩ ⟨next (), stream.channel.noteStop cancelled⟩
  | isHalted {next : Bool → Generator} (place : stream.generator = .ask .mayGoOn next)
      (stops : stream.channel.mustStop cancelled = true) :
      Move cancelled stream ⟨.mayGoOn, false⟩ ⟨next false, stream.channel.noteStop cancelled⟩
  | goesOn {next : Bool → Generator} (place : stream.generator = .ask .mayGoOn next)
      (goesOn : stream.channel.mustStop cancelled = false) :
      Move cancelled stream ⟨.mayGoOn, true⟩ ⟨next true, stream.channel⟩

variable {cancelled : Bool} {stream next : Stream} {exchange : Generator.Exchange}

theorem move_of_turn (step : stream.turn cancelled = some (exchange, next)) :
    Move cancelled stream exchange next := by
  obtain ⟨generator, channel⟩ := stream
  cases generator with
  | done result => cases step
  | ask request replies =>
      simp only [turn, Option.map_eq_some_iff] at step
      obtain ⟨⟨reply, after⟩, responds, same⟩ := step
      cases same
      cases request with
      | send item =>
          simp only [Channel.respond] at responds
          split at responds
          · next stops =>
            cases responds
            exact .isRefused rfl stops
          · next goesOn =>
            split at responds
            · next free =>
              cases responds
              exact .sends rfl (by simpa using goesOn) free
            · cases responds
      | fail error =>
          cases responds
          exact .fails rfl
      | untilStopped =>
          simp only [Channel.respond] at responds
          split at responds
          · next stops =>
            cases responds
            exact .isWoken rfl stops
          · cases responds
      | mayGoOn =>
          simp only [Channel.respond] at responds
          split at responds
          · next stops =>
            cases responds
            exact .isHalted rfl stops
          · next goesOn =>
            cases responds
            exact .goesOn rfl (by simpa using goesOn)

namespace Move

/-- An item goes into the slot when it is handed over, and the slot is free then. -/
theorem slot (move : Move cancelled stream exchange next) :
    next.channel.slot.toList = stream.channel.slot.toList ++ exchange.sent?.toList := by
  cases move <;> simp_all [Generator.Exchange.sent?]

theorem stopped (move : Move cancelled stream exchange next) :
    next.channel.stopped = stream.channel.stopped := by
  cases move <;> simp

theorem running (move : Move cancelled stream exchange next) : stream.hasEnded = false := by
  cases move <;> simp_all [hasEnded]

theorem mustStop_of_hinders (move : Move cancelled stream exchange next)
    (hinders : exchange.hinders = true) : stream.channel.mustStop cancelled = true := by
  cases move <;> simp_all [Generator.Exchange.hinders]

/-- A generator that is told to stop by the end of its run latches an error. -/
theorem isSet_of_hinders (move : Move true stream exchange next)
    (hinders : exchange.hinders = true) : next.channel.latch.isSet = true := by
  cases move <;> simp_all [Generator.Exchange.hinders, Channel.latch_noteStop]

theorem offers_eq (move : Move cancelled stream exchange next)
    (unhindered : exchange.hinders = false) :
    stream.generator.offers = exchange.sent?.toList ++ next.generator.offers := by
  cases move <;>
    simp_all [Generator.offers, Generator.Exchange.hinders, Generator.Exchange.sent?]

/-- A latched error stays, and a new one was reported by the generator or is the cancellation. -/
theorem latch (move : Move cancelled stream exchange next) :
    next.channel.latch = stream.channel.latch ∨
      (∃ error, exchange.failure? = some error ∧
        next.channel.latch = stream.channel.latch.store error) ∨
      cancelled = true ∧ next.channel.latch = stream.channel.latch.store .canceled := by
  cases move <;> cases cancelled <;>
    simp [Generator.Exchange.failure?, Channel.latch_noteStop]

end Move

end Stream

end TilePyramid
