import FlightRecorder.Device.Failure
import FlightRecorder.Proofs.Text.Numerals

/-!
# Dates and times as text

A text is read as a date or time exactly where three numerals with the right separators stand at its
front. What is written for a date or time is such a text, whatever comes behind it, unless that is a
digit.

* `Date.parse?_eq_some_iff`, `Time.parse?_eq_some_iff` — which texts are read as what
* `Date.parse?_display_append`, `Time.parse?_display_append` — what is written is read back
* `dates_and_times_of_text` — both, and when reading fails with a report
-/

namespace FlightRecorder

/-! ## Dates -/

namespace Date

theorem parse?_eq_some_iff (text : List Char) (date : Date) :
    parse? text = some date ↔
      Triple '-' text date.year.toNat date.month.toNat date.day.toNat := by
  rw [← takeTriple?_eq_some_iff (by decide)]
  unfold parse?
  cases takeTriple? '-' text with
  | none => simp
  | some numbers =>
    obtain ⟨year, month, day⟩ := date
    simp [Prod.ext_iff]

theorem parse?_display_append (date : Date) {rest : List Char} (h : EndsNumber rest) :
    parse? (date.display.toList ++ rest) = some date := by
  rw [parse?_eq_some_iff, display, String.toList_ofList]
  exact ⟨_, _, _, rest, rfl, isNumeral_paddedDecimal 4 _, isNumeral_paddedDecimal 2 _,
    isNumeral_paddedDecimal 2 _, h⟩

/-- Reading fails where there is no date, and gives the date that there is. -/
theorem read_outcome (text : String) :
    ((∃ failure, read text = .error failure) ↔ parse? text.toList = none) ∧
      ∀ date, read text = .ok date ↔ parse? text.toList = some date := by
  unfold read
  cases parse? text.toList <;> simp

end Date

/-! ## Times -/

namespace Time

theorem parse?_eq_some_iff (text : List Char) (time : Time) :
    parse? text = some time ↔
      Triple ':' text time.hour.toNat time.minute.toNat time.second.toNat := by
  rw [← takeTriple?_eq_some_iff (by decide)]
  unfold parse?
  cases takeTriple? ':' text with
  | none => simp
  | some numbers =>
    obtain ⟨hour, minute, second⟩ := time
    simp [Prod.ext_iff]

theorem parse?_display_append (time : Time) {rest : List Char} (h : EndsNumber rest) :
    parse? (time.display.toList ++ rest) = some time := by
  rw [parse?_eq_some_iff, display, String.toList_ofList]
  exact ⟨_, _, _, rest, rfl, isNumeral_paddedDecimal 2 _, isNumeral_paddedDecimal 2 _,
    isNumeral_paddedDecimal 2 _, h⟩

/-- Reading fails where there is no time, and gives the time that there is. -/
theorem read_outcome (text : String) :
    ((∃ failure, read text = .error failure) ↔ parse? text.toList = none) ∧
      ∀ time, read text = .ok time ↔ parse? text.toList = some time := by
  unfold read
  cases parse? text.toList <;> simp

end Time

/-! ## Both -/

/--
**What is read as a date or a time, and what is written for one.**

Three numerals with hyphens or colons between them are read as the date or time whose components
they stand for, also with leading zeros and whatever comes behind the last one. No other text is,
nor one with a number that is too large for its component, and that is reported. What is written for
a date or time is read back, also in front of a text that does not begin with a digit.
-/
theorem dates_and_times_of_text :
    (∀ text date, Date.parse? text = some date ↔
      Triple '-' text date.year.toNat date.month.toNat date.day.toNat) ∧
    (∀ text time, Time.parse? text = some time ↔
      Triple ':' text time.hour.toNat time.minute.toNat time.second.toNat) ∧
    (∀ text : String, ((∃ failure, Date.read text = .error failure) ↔
        Date.parse? text.toList = none) ∧
      ∀ date, Date.read text = .ok date ↔ Date.parse? text.toList = some date) ∧
    (∀ text : String, ((∃ failure, Time.read text = .error failure) ↔
        Time.parse? text.toList = none) ∧
      ∀ time, Time.read text = .ok time ↔ Time.parse? text.toList = some time) ∧
    (∀ (date : Date) rest, EndsNumber rest →
      Date.parse? (date.display.toList ++ rest) = some date) ∧
    ∀ (time : Time) rest, EndsNumber rest →
      Time.parse? (time.display.toList ++ rest) = some time := by
  refine ⟨Date.parse?_eq_some_iff, Time.parse?_eq_some_iff, Date.read_outcome, Time.read_outcome,
    ?_, ?_⟩
  · intro date rest h
    exact date.parse?_display_append h
  · intro time rest h
    exact time.parse?_display_append h

/-- A date with a year of many digits, in front of letters. -/
theorem date_read_back_in_front_of_letters :
    let date : Date := { year := 4294967295, month := 8, day := 120 }
    EndsNumber ['t', 'h', '1'] ∧
      Date.parse? (date.display.toList ++ ['t', 'h', '1']) = some date := by
  have hletters : EndsNumber ['t', 'h', '1'] := endsNumber_cons _ (by decide)
  obtain ⟨-, -, -, -, hback, -⟩ := dates_and_times_of_text
  exact ⟨hletters, hback _ _ hletters⟩

/-- Leading zeros may be any number, and digits of other scripts end a numeral. -/
example :
    Time.parse? "0000000000012:3:4\u0663".toList = some { hour := 12, minute := 3, second := 4 } ∧
      Time.parse? "4294967296:0:0".toList = none ∧ Time.parse? "12:+3:4".toList = none := by
  decide +kernel

end FlightRecorder
