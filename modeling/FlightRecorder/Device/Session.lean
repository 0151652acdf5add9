import FlightRecorder.Device.Reply
import FlightRecorder.Device.Settings
import FlightRecorder.Flight.List
import FlightRecorder.Link.Incoming
import FlightRecorder.Link.Outgoing

/-!
# Sessions

Everything that an operation on a device can read or change: the time, the two sides of the link,
the tree of files, the decoder and the sequence number of the connection, and the observer who
follows the operation and may stop it. A journal keeps what happened, latest first, so that a
statement about an operation can speak of the order of requests, bytes, replies and reports.

An `Action` is a computation on a session that may fail; what it has done to the session up to a
failure stays done.
-/

namespace FlightRecorder

/-! ## Observers -/

/-- Follows an operation and may stop it. -/
structure Observer where
  /-- Whether to stop, from the number of times this was asked, this time included, and the
  positions reported so far. -/
  cancels : Nat → List Nat → Bool
  /-- How often the observer was asked. -/
  polls : Nat
  /-- The ranges reported so far, earliest first. -/
  ranges : List Nat
  /-- The positions reported so far, earliest first. -/
  positions : List Nat

namespace Observer

/-- An observer to whom nothing has been reported. -/
def ofRule (cancels : Nat → List Nat → Bool) : Observer where
  cancels := cancels
  polls := 0
  ranges := []
  positions := []

/-- Never stops an operation. -/
def patient : Observer := ofRule fun _ _ => false

end Observer

/-! ## Journals -/

/-- One thing that happened in a session. -/
inductive Event
  /-- A request was given a sequence number. -/
  | issued (request : Frame)
  /-- The clock went on to a moment. -/
  | waited (moment : Nat)
  /-- The link took bytes. -/
  | sent (bytes : Bytes)
  /-- Bytes were read from the link. -/
  | received (bytes : Bytes)
  /-- A verdict of the decoder was looked at. -/
  | examined (verdict : Verdict)
  /-- The observer was asked whether to stop. -/
  | polled (cancelled : Bool)
  | rangeReported (range : Nat)
  | positionReported (position : Nat)
  /-- A flight was put on a list. -/
  | listed (flight : Flight)
  /-- A file was created or emptied. -/
  | created (place : Place)
  deriving DecidableEq, Repr

/-! ## Sessions -/

/-- What an operation works on. -/
structure Session where
  /-- The time in milliseconds. -/
  clock : Nat
  incoming : List Arrival
  outgoing : Outgoing
  storage : Storage
  settings : Settings
  decoder : Decoder
  /-- The sequence number of the next request. -/
  nextSequence : UInt16
  observer : Observer
  /-- What happened, latest first. -/
  journal : List Event

/-- A computation on a session that may fail. -/
abbrev Action (α : Type) := ExceptT Failure (StateM Session) α

/-- Runs an action: its result and the session behind it. -/
def Action.perform {α : Type} (action : Action α) (s : Session) : Except Failure α × Session :=
  (ExceptT.run action).run s

/-- The action with a given result on every session. -/
def Action.ofPerform {α : Type} (perform : Session → Except Failure α × Session) : Action α :=
  ExceptT.mk fun s => perform s

@[simp]
theorem Action.perform_ofPerform {α : Type} (f : Session → Except Failure α × Session)
    (s : Session) : (Action.ofPerform f).perform s = f s := rfl

@[simp]
theorem Action.perform_pure {α : Type} (a : α) (s : Session) :
    Action.perform (pure a) s = (.ok a, s) := rfl

@[simp]
theorem Action.perform_throw {α : Type} (failure : Failure) (s : Session) :
    Action.perform (throw failure : Action α) s = (.error failure, s) := rfl

/-- The second action goes on where the first one succeeded. -/
theorem Action.perform_bind {α β : Type} (first : Action α) (second : α → Action β)
    (s : Session) :
    Action.perform (first >>= second) s =
      match first.perform s with
      | (.ok a, s') => (second a).perform s'
      | (.error failure, s') => (.error failure, s') := by
  show (ExceptT.run (first >>= second)).run s = _
  simp only [ExceptT.run_bind, StateT.run_bind, Action.perform]
  generalize (ExceptT.run first).run s = result
  obtain ⟨outcome, s'⟩ := result
  cases outcome <;> rfl

namespace Session

/-- A new connection on a link. -/
def start (settings : Settings) (incoming : List Arrival) (outgoing : Outgoing)
    (storage : Storage) : Session where
  clock := 0
  incoming := incoming
  outgoing := outgoing
  storage := storage
  settings := settings
  decoder := .fresh
  nextSequence := 0
  observer := .patient
  journal := []

/-- A new connection on the link of an old one: what the old one had read is lost. -/
def reconnect (s : Session) : Session := { s with decoder := .fresh, nextSequence := 0 }

/-- The session with another observer. -/
def watchedBy (s : Session) (observer : Observer) : Session := { s with observer := observer }

/-- Adds an event to the journal. -/
def note (s : Session) (event : Event) : Session := { s with journal := event :: s.journal }

/-- Lets the clock go on to a moment. -/
def waitUntil (s : Session) (moment : Nat) : Session :=
  { s with clock := moment }.note (.waited moment)

/-- What happened, earliest first. -/
def history (s : Session) : List Event := s.journal.reverse

/-- An empty list of the size that the settings ask for. -/
def newList (s : Session) : FlightList := .empty s.settings.listCapacity

end Session

/-- The bytes that the link took in a stretch of history. -/
def sentBytes (history : List Event) : Bytes :=
  history.flatMap fun
    | .sent bytes => bytes
    | _ => []

/-- The part of a history that lies before a moment. -/
def historyBefore (moment : Nat) (history : List Event) : List Event :=
  history.takeWhile fun
    | .waited reached => reached < moment
    | _ => true

/-! ## Talking to the observer -/

/-- Asks the observer whether to stop. -/
def poll : Action Unit :=
  Action.ofPerform fun s =>
    let polls := s.observer.polls + 1
    let cancelled := s.observer.cancels polls s.observer.positions
    let s' := { s with observer := { s.observer with polls := polls } }.note (.polled cancelled)
    if cancelled then (.error .cancelled, s') else (.ok (), s')

/-- Reports how far positions will go. -/
def reportRange (range : Nat) : Action Unit :=
  modify fun s =>
    { s with observer := { s.observer with ranges := s.observer.ranges ++ [range] } }.note
      (.rangeReported range)

/-- Reports a position. -/
def reportPosition (position : Nat) : Action Unit :=
  modify fun s =>
    { s with observer := { s.observer with positions := s.observer.positions ++ [position] } }.note
      (.positionReported position)

end FlightRecorder
