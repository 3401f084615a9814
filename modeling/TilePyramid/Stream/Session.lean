import TilePyramid.Stream

/-!
# Sessions of a consumer

A session is a stream together with the token of its run, worked by commands. Before every command
the generator runs until it ends or waits.
-/

set_option autoImplicit false

namespace TilePyramid

inductive Session.Command where
  | next
  | all
  | drain
  | cancel
  | abort
  | isCancelled
  | error
  | finish
  | toList
  | drop
deriving DecidableEq

inductive Session.Answer where
  | done
  | item (item : Item)
  | closed
  | pending
  | items (items : List Item)
  | count (number : Nat)
  | flag (value : Bool)
  | error (error : Option Error)
deriving DecidableEq

/-- A stream, whether its run is cancelled, and what has happened, the latest first. -/
structure Session where
  stream : Stream
  cancelled : Bool := false
  exchanges : List Generator.Exchange := []

namespace Session

/-- Lets the generator run until it ends or waits. -/
def settle (session : Session) : Session :=
  let (stream, exchanges) := session.stream.settle session.cancelled session.exchanges
  { session with stream, exchanges }

/-- Takes one item from a settled stream. -/
def next (session : Session) : Answer × Session :=
  match session.stream.channel.take? with
  | some (item, channel) =>
      (.item item, { session with stream := { session.stream with channel } })
  | none => (if session.stream.hasEnded then .closed else .pending, session)

def takeAll (session : Session) : List Item × Session :=
  let emptied := session.stream.takeAll session.cancelled [] session.exchanges
  (emptied.items, { session with stream := emptied.stream, exchanges := emptied.exchanges })

/-- The latched error of a stream whose items were all taken, or what it gave. -/
def closeWith (session : Session) (gift : Answer) : Answer :=
  match session.stream.channel.latch.held with
  | some error => .error (some error)
  | none => gift

def stop (session : Session) : Session :=
  { session with stream := { session.stream with channel := session.stream.channel.stop } }

def perform (session : Session) : Command → Answer × Session
  | .next => session.next
  | .all =>
      let (items, session) := session.takeAll
      (.items items, session)
  | .drain =>
      let (items, session) := session.takeAll
      (.count items.length, session)
  | .cancel => (.done, { session with cancelled := true })
  | .abort => (.done, session.stop)
  | .isCancelled => (.flag session.cancelled, session)
  | .error => (.error session.stream.channel.latch.held, session)
  | .finish =>
      let (_, session) := session.takeAll
      (session.closeWith .done, session)
  | .toList =>
      let (items, session) := session.takeAll
      (session.closeWith (.items items), session)
  | .drop => (.done, session.stop)

def performAll (session : Session) : List Command → List Answer × Session
  | [] => ([], session.settle)
  | command :: rest =>
      let (answer, session) := session.settle.perform command
      let (answers, session) := session.performAll rest
      (answer :: answers, session)

end Session

end TilePyramid
