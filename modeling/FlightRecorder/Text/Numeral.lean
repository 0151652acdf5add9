/-!
# Numerals

Numbers in text: decimal and hexadecimal numerals of at least a given width, filled up with zeros
on the left. A numeral that needs more digits than the width gets them all.
-/

namespace FlightRecorder

/-- Fills a text up to `width` characters on the left. -/
def padLeft (fill : Char) (width : Nat) (text : List Char) : List Char :=
  List.replicate (width - text.length) fill ++ text

/-- The decimal digits of a number, without leading zeros. -/
def decimal (n : Nat) : List Char := Nat.toDigits 10 n

/-- A decimal numeral of at least `width` digits. -/
def paddedDecimal (width n : Nat) : List Char := padLeft '0' width (decimal n)

/-- A lower-case hexadecimal numeral of at least `width` digits. -/
def paddedHex (width n : Nat) : List Char := padLeft '0' width (Nat.toDigits 16 n)

/-- The number that a string of decimal digits stands for. -/
def digitsValue (digits : List Char) : Nat := Nat.ofDigitChars 10 digits 0

/-- A number is read back from its digits. -/
@[simp]
theorem digitsValue_decimal (n : Nat) : digitsValue (decimal n) = n :=
  Nat.ofDigitChars_toDigits (by decide) (by decide)

end FlightRecorder
