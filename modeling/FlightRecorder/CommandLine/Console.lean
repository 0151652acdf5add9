/-!
# The console

What the user has been told of an operation that runs: the range of its positions and the position
it has reached, if any. The user can ask for its end.
-/

namespace FlightRecorder

/-- The progress of an operation on the console. -/
structure Console where
  range : Nat
  position : Option Nat
  cancelled : Bool
  deriving DecidableEq, Repr

namespace Console

/-- Nothing has been reported. -/
def start : Console := { range := 0, position := none, cancelled := false }

/-- A new range; its positions have not begun. -/
def setRange (c : Console) (range : Nat) : Console := { c with range := range, position := none }

/-- A new position. -/
def setPosition (c : Console) (position : Nat) : Console := { c with position := some position }

/-- Asks for the end of the operation, or takes that back. -/
def setCancelled (c : Console) (cancelled : Bool) : Console := { c with cancelled := cancelled }

end Console

end FlightRecorder
