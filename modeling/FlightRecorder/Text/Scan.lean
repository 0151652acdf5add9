import FlightRecorder.Text.Numeral

/-!
# Reading numbers off the front of a text

A number is the longest run of decimal digits at the front, with any number of leading zeros. The
digits are those of ASCII; signs, blanks and other scripts' digits end a number or prevent it.
-/

namespace FlightRecorder

/-- One more than the largest number that a date or time component can hold. -/
def componentBound : Nat := UInt32.size

/-- The number at the front of a text and the text behind it. -/
def takeNumber? (text : List Char) : Option (UInt32 × List Char) :=
  let digits := text.takeWhile Char.isDigit
  let value := digitsValue digits
  if digits = [] then none
  else if value < componentBound then
    some (UInt32.ofNat value, text.dropWhile Char.isDigit)
  else none

/-- The text behind a separator, if it stands at the front. -/
def takeSeparator? (separator : Char) : List Char → Option (List Char)
  | c :: rest => if c = separator then some rest else none
  | [] => none

/-- Three numbers with a separator between each two; the text behind the third is ignored. -/
def takeTriple? (separator : Char) (text : List Char) : Option (UInt32 × UInt32 × UInt32) := do
  let (first, rest) ← takeNumber? text
  let rest ← takeSeparator? separator rest
  let (second, rest) ← takeNumber? rest
  let rest ← takeSeparator? separator rest
  let (third, _) ← takeNumber? rest
  pure (first, second, third)

end FlightRecorder
