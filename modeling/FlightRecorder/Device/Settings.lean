import FlightRecorder.Flight.List

/-!
# Settings of a connection
-/

namespace FlightRecorder

/-- How long a device is waited for, in milliseconds, and how many flights a list takes. -/
structure Settings where
  /-- For each part of a request, and for the answer to one that is not for data. -/
  controlTimeout : Nat
  /-- For the answer to a request for data. -/
  dataTimeout : Nat
  listCapacity : Nat
  deriving DecidableEq, Repr

/-- Control timeout for which no other is asked. -/
def defaultControlTimeout : Nat := 1000

/-- Data timeout for which no other is asked. -/
def defaultDataTimeout : Nat := 3000

/-- The settings for which no others are asked. -/
def Settings.standard : Settings where
  controlTimeout := defaultControlTimeout
  dataTimeout := defaultDataTimeout
  listCapacity := defaultListCapacity

end FlightRecorder
