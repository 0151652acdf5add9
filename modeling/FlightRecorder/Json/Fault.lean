/-!
# Faults of a JSON text

A text is read from the left, and the first thing that is wrong with it decides what is reported.
-/

namespace FlightRecorder

/-- Why a JSON text is refused. -/
inductive JsonFault
  /-- The text is not JSON. -/
  | malformed
  /-- The text ends before the value does. -/
  | incomplete
  /-- The text is JSON so far, but describes something else than what is read. -/
  | unsuitable
  deriving DecidableEq, Repr

end FlightRecorder
