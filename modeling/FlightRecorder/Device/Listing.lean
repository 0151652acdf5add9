import FlightRecorder.Device.Control

/-!
# Listing the records of a device

Records are numbered from 0 without gaps, so they are selected one after the other until the device
has no more, the list is full or the numbers are used up. A record whose description cannot be read
is left out; a selection that fails ends the listing. The list holds what was found up to then.
-/

namespace FlightRecorder

/-- Positions reported while listing go round in this range. -/
def listRange : Nat := 10

/-- Number of the record numbers. -/
def recordCount : Nat := 256

/-- What is found under a record number. -/
inductive Finding
  /-- There is no record. -/
  | nothing
  /-- There is a record, but not its description. -/
  | unreadable
  | described (flight : Flight)
  deriving DecidableEq, Repr

/-- Runs an action; its failure is a result like any other. -/
def Action.attempt {α : Type} (action : Action α) : Action (Option α) :=
  Action.ofPerform fun s =>
    match action.perform s with
    | (.ok a, s') => (.ok (some a), s')
    | (.error _, s') => (.ok none, s')

/-- Selects a record and reads its description. -/
def findRecord (index : UInt8) : Action Finding := do
  reportPosition (index.toNat % listRange)
  poll
  let type ← selectRecord index
  if type = .nack then pure .nothing
  else if type = .ack then
    poll
    let flight? ← (readInfo index).attempt
    poll
    match flight? with
    | some flight => pure (.described flight)
    | none => pure .unreadable
  else throw (.unexpectedResponse type)

/-- Looks for as many records as are left, in order, and puts them on a list: how that ends, the
list and the session behind it. -/
def listFrom : Nat → FlightList → Session → Except Failure Unit × FlightList × Session
  | 0, list, s => (.ok (), list, s)
  | left + 1, list, s =>
    if list.isFull then (.ok (), list, s)
    else
      match (findRecord (UInt8.ofNat (recordCount - (left + 1)))).perform s with
      | (.error failure, s') => (.error failure, list, s')
      | (.ok .nothing, s') => (.ok (), list, s')
      | (.ok .unreadable, s') => listFrom left list s'
      | (.ok (.described flight), s') =>
        match list.push flight with
        | .ok list' => listFrom left list' (s'.note (.listed flight))
        | .error _ => (.ok (), list, s')

/-- Puts the records of the device on a list. -/
def listRecords (list : FlightList) (s : Session) :
    Except Failure Unit × FlightList × Session :=
  listFrom recordCount list ((reportRange listRange).perform s).2

end FlightRecorder
