import FlightRecorder.Flight.Date
import FlightRecorder.Flight.Time

/-!
# Recorded flights

What is known of a flight in the memory of a device: its date, when it began and ended, and the
number under which the device keeps it.
-/

namespace FlightRecorder

/-- One recorded flight. -/
structure Flight where
  date : Date
  startTime : Time
  endTime : Time
  /-- The number with which the record is selected. -/
  index : UInt8
  deriving DecidableEq, Repr

namespace Flight

/-- A number filled up with blanks on the right. -/
def padRight (width n : Nat) : List Char :=
  decimal n ++ List.replicate (width - (decimal n).length) ' '

/-- The line that lists the flight. -/
def display (f : Flight) : String :=
  "#" ++ String.ofList (padRight 3 f.index.toNat) ++ " " ++ f.date.display ++ " "
    ++ f.startTime.display ++ " - " ++ f.endTime.display

/-- The name of the file that holds the flight unless another one is asked for. A date that is no
day of the calendar is marked as such. -/
def defaultFileName (f : Flight) : String :=
  let day := f.date.calendarText?.getD ("record-" ++ f.date.display)
  day ++ "-" ++ String.ofList (decimal f.index.toNat) ++ ".igc"

end Flight

end FlightRecorder
