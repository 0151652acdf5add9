import FlightRecorder.Flight.Record
import FlightRecorder.Json.Layout
import FlightRecorder.Json.Record

/-!
# Flights in JSON

Dates, times and flights are records whose keys are the names of their parts. They are written as
objects with the keys in a fixed order, and read in any order.

The texts are those of `serde_json` for records whose readers and writers follow their fields. This
is what is taken over from it:

* A record is written as an object with the names of its fields as keys, in the order of the fields,
  and numbers in decimal: on one line without blanks, or every part on a line of its own, indented
  by two blanks for each open bracket.
* It is read from an object with the keys in any order, or from an array of exactly the values in
  the order of the fields. A key that names no field is passed over with its value, whatever JSON
  value that is. A field that is missing or comes twice is refused.
* A number is refused if it has a sign, a point or an exponent, or is too large for its field.
* Blanks may stand between all parts, and behind the value nothing else may stand.
* It is told apart whether a text is no JSON, ends before its value does, or is JSON of something
  else; what is wrong first decides.
-/

namespace FlightRecorder

/-! ## Writing -/

/-- An object of numbers. -/
def JsonLayout.numbers (layout : JsonLayout) (members : List (String × Nat)) : List Char :=
  layout.object (members.map fun (key, n) => layout.member key (decimal n))

/-- The members of a date. -/
def Date.jsonMembers (d : Date) : List (String × Nat) :=
  [("year", d.year.toNat), ("month", d.month.toNat), ("day", d.day.toNat)]

/-- The members of a time. -/
def Time.jsonMembers (t : Time) : List (String × Nat) :=
  [("hour", t.hour.toNat), ("minute", t.minute.toNat), ("second", t.second.toNat)]

/-- The members of a flight, each written out. -/
def Flight.jsonMembers (layout : JsonLayout) (f : Flight) : List (List Char) :=
  [ layout.member "date" (layout.inner.numbers f.date.jsonMembers),
    layout.member "start_time" (layout.inner.numbers f.startTime.jsonMembers),
    layout.member "end_time" (layout.inner.numbers f.endTime.jsonMembers),
    layout.member "index" (decimal f.index.toNat) ]

/-- A flight as JSON. -/
def Flight.writeJson (layout : JsonLayout) (f : Flight) : List Char :=
  layout.object (f.jsonMembers layout)

/-- A flight as JSON on one line. -/
def Flight.toJson (f : Flight) : String := String.ofList (f.writeJson .compact)

/-- A list of flights as JSON. -/
def flightsToJson (layout : JsonLayout) (flights : List Flight) : String :=
  String.ofList (layout.array (flights.map (Flight.writeJson layout.inner)))

/-! ## Reading -/

/-- Reads a value and makes another one of it; a value that has none is refused. -/
def JsonReader.filterMap {α β : Type} (reader : JsonReader α) (f : α → Option β) :
    JsonReader β where
  read := fun text =>
    match reader.read text with
    | .error fault => .error fault
    | .ok (value, rest) =>
      match f value with
      | some result => .ok (result, rest)
      | none => .error .unsuitable
  shrinks := by
    intro text value rest h
    split at h
    · cases h
    · next hr =>
      have := reader.shrinks hr
      split at h
      · simp only [Except.ok.injEq, Prod.mk.injEq] at h
        exact h.2 ▸ this
      · cases h

/-- A component of a date or time. -/
def componentField (name : String) : JsonField Nat :=
  { name := name, reader := numberReader componentBound }

/-- The date with the given components. -/
def Date.ofComponents? : List Nat → Option Date
  | [year, month, day] => some {
      year := UInt32.ofNat year
      month := UInt32.ofNat month
      day := UInt32.ofNat day }
  | _ => none

/-- The time with the given components. -/
def Time.ofComponents? : List Nat → Option Time
  | [hour, minute, second] => some {
      hour := UInt32.ofNat hour
      minute := UInt32.ofNat minute
      second := UInt32.ofNat second }
  | _ => none

/-- Reads dates. -/
def Date.reader : JsonReader Date :=
  (recordReader [componentField "year", componentField "month", componentField "day"]).filterMap
    Date.ofComponents?

/-- Reads times. -/
def Time.reader : JsonReader Time :=
  (recordReader [componentField "hour", componentField "minute", componentField "second"]).filterMap
    Time.ofComponents?

/-- One part of a flight. -/
inductive FlightPart
  | date (value : Date)
  | time (value : Time)
  | index (value : UInt8)
  deriving DecidableEq, Repr

/-- The flight with the given parts. -/
def Flight.ofParts? : List FlightPart → Option Flight
  | [.date date, .time startTime, .time endTime, .index index] => some {
      date := date
      startTime := startTime
      endTime := endTime
      index := index }
  | _ => none

/-- Reads flights. -/
def Flight.reader : JsonReader Flight :=
  (recordReader [
    { name := "date", reader := Date.reader.filterMap fun d => some (.date d) },
    { name := "start_time", reader := Time.reader.filterMap fun t => some (.time t) },
    { name := "end_time", reader := Time.reader.filterMap fun t => some (.time t) },
    { name := "index",
      reader := (numberReader 256).filterMap fun n => some (.index (UInt8.ofNat n)) }]).filterMap
    Flight.ofParts?

end FlightRecorder
