import FlightRecorder.Text.Scan

/-!
# Times of day and durations

Hours, minutes and seconds as the device tells them. Hours do not start again at 24, and a sum
carries only what exceeds 60, so sixty seconds stay sixty seconds.
-/

namespace FlightRecorder

/-- Hours, minutes and seconds, each of any size. -/
structure Time where
  hour : UInt32
  minute : UInt32
  second : UInt32
  deriving DecidableEq, Repr

namespace Time

/-! ## Text -/

/-- The time as `HH:MM:SS`; longer numbers keep all their digits. -/
def display (t : Time) : String :=
  String.ofList (paddedDecimal 2 t.hour.toNat ++ [':'] ++ paddedDecimal 2 t.minute.toNat ++ [':']
    ++ paddedDecimal 2 t.second.toNat)

/-- Reads `HH:MM:SS`, with any number of digits and anything behind them. -/
def parse? (text : List Char) : Option Time := do
  let (hour, minute, second) ← takeTriple? ':' text
  pure { hour := hour, minute := minute, second := second }

/-! ## Sums -/

/-- The largest number that a component can hold; sums stop there. -/
def ceiling : UInt32 := 0xFFFFFFFF

/-- The sum of two components, or the ceiling. -/
def cappedSum (a b : UInt32) : UInt32 := if a + b < a then ceiling else a + b

/-- Sixty of a smaller unit are one of a larger unit: takes sixties away as long as more than sixty
are left, and counts them with the larger unit. -/
def carry (small large : UInt32) : UInt32 × UInt32 :=
  if 60 < small then carry (small - 60) (cappedSum large 1) else (small, large)
termination_by small.toNat
decreasing_by
  have hmore : 60 < small := by assumption
  have hless := UInt32.toNat_sub_of_le small 60 (UInt32.le_of_lt hmore)
  have hsixty : (60 : UInt32).toNat = 60 := rfl
  rw [UInt32.lt_iff_toNat_lt] at hmore
  omega

/-- Seconds carry into minutes and minutes into hours. -/
def add (a b : Time) : Time :=
  let seconds := carry (cappedSum a.second b.second) (cappedSum a.minute b.minute)
  let minutes := carry seconds.2 (cappedSum a.hour b.hour)
  { hour := minutes.2, minute := minutes.1, second := seconds.1 }

instance : Add Time := ⟨add⟩

end Time

end FlightRecorder
