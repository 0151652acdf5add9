import FlightRecorder.Flight.Record

/-!
# Flight lists

A list of flights that takes no more than a fixed number of them.
-/

namespace FlightRecorder

/-- Capacity of a list for which none is asked. -/
def defaultListCapacity : Nat := 128

/-- Flights in the order of their arrival, at most `capacity` of them. -/
structure FlightList where
  capacity : Nat
  flights : List Flight
  fits : flights.length ≤ capacity := by simp
  deriving DecidableEq, Repr

namespace FlightList

/-- A list without flights. -/
def empty (capacity : Nat) : FlightList := { capacity := capacity, flights := [] }

/-- Number of flights. -/
def size (l : FlightList) : Nat := l.flights.length

/-- Whether no further flight fits. -/
def isFull (l : FlightList) : Bool := l.capacity ≤ l.size

/-- Whether there is no flight. -/
def isEmpty (l : FlightList) : Bool := l.flights.isEmpty

/-- The flight at a position. -/
def get? (l : FlightList) (i : Nat) : Option Flight := l.flights[i]?

theorem length_append_le (l : FlightList) (flight : Flight)
    (h : l.flights.length < l.capacity) : (l.flights ++ [flight]).length ≤ l.capacity := by
  rw [List.length_append, List.length_singleton]
  exact h

/-- Appends a flight; a full list gives it back. -/
def push (l : FlightList) (flight : Flight) : Except Flight FlightList :=
  if h : l.flights.length < l.capacity then
    .ok { capacity := l.capacity
          flights := l.flights ++ [flight]
          fits := l.length_append_le flight h }
  else .error flight

/-- A list takes a flight exactly when it is not full. -/
theorem push_eq_ok_iff (l : FlightList) (flight : Flight) :
    (∃ l', l.push flight = .ok l') ↔ l.isFull = false := by
  unfold push isFull size
  split <;> simp <;> omega

end FlightList

end FlightRecorder
