import FlightRecorder.Flight.Record
import FlightRecorder.Text.Utf8

/-!
# Info lines

A device describes a record by one line of fields, each closed by a bar:

* `2000-11-08|20:05:21|01:21:09|J.Doe|XYZ|15M`
* `18CG6NG1.IGC|2011-08-12|12:23:48|02:03:25|TOBIAS BIENIEK|TH|Club`

The first form begins with the date. The second has a file name before it, which is always longer
than a date. Date, start and duration are read; the names behind them are not. A field that nothing
follows may have been cut off and is not trusted.
-/

namespace FlightRecorder

/-- Closes a field. -/
def fieldSeparator : Char := '|'

/-- Bytes of the longest field that can be a date. -/
def maxDateFieldSize : Nat := 10

/-- The first field and the text behind its separator, which must not be empty. -/
def nextField? (text : List Char) : Option (List Char × List Char) :=
  match text.dropWhile (· ≠ fieldSeparator) with
  | _ :: next :: rest => some (text.takeWhile (· ≠ fieldSeparator), next :: rest)
  | _ => none

/-- The date field and the text behind it: the first field, or the second one after a name. -/
def dateField? (text : List Char) : Option (List Char × List Char) := do
  let (field, rest) ← nextField? text
  if maxDateFieldSize < utf8Size field then nextField? rest else pure (field, rest)

/-- The flight that an info line describes. -/
def Flight.parseInfo? (text : List Char) (index : UInt8) : Option Flight := do
  let (dateField, rest) ← dateField? text
  let date ← Date.parse? dateField
  let (startField, rest) ← nextField? rest
  let startTime ← Time.parse? startField
  let (durationField, _) ← nextField? rest
  let duration ← Time.parse? durationField
  pure { date := date, startTime := startTime, endTime := startTime + duration, index := index }

end FlightRecorder
