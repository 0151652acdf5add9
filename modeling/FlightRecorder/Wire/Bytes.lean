/-!
# Bytes and little-endian words

The wire speaks bytes; a sixteen-bit word is sent low byte first.
-/

namespace FlightRecorder

/-- A byte string, first byte first. -/
abbrev Bytes := List UInt8

/-- The low eight bits of a word. -/
def lowByte (w : UInt16) : UInt8 := UInt8.ofNat (w.toNat % 256)

/-- The high eight bits of a word. -/
def highByte (w : UInt16) : UInt8 := UInt8.ofNat (w.toNat / 256)

/-- A word as the two bytes it is sent as. -/
def littleEndian (w : UInt16) : Bytes := [lowByte w, highByte w]

/-- The word sent as `low`, then `high`. -/
def wordOf (low high : UInt8) : UInt16 := UInt16.ofNat (low.toNat + 256 * high.toNat)

/-- A word is read back from its two bytes. -/
@[simp]
theorem wordOf_littleEndian (w : UInt16) : wordOf (lowByte w) (highByte w) = w := by
  have hw : w.toNat < 65536 := w.toNat_lt
  apply UInt16.toNat_inj.mp
  simp only [wordOf, lowByte, highByte, UInt16.toNat_ofNat', UInt8.toNat_ofNat']
  omega

@[simp]
theorem lowByte_wordOf (low high : UInt8) : lowByte (wordOf low high) = low := by
  have h1 : low.toNat < 256 := low.toNat_lt
  have h2 : high.toNat < 256 := high.toNat_lt
  apply UInt8.toNat_inj.mp
  simp only [wordOf, lowByte, UInt16.toNat_ofNat', UInt8.toNat_ofNat']
  omega

@[simp]
theorem highByte_wordOf (low high : UInt8) : highByte (wordOf low high) = high := by
  have h1 : low.toNat < 256 := low.toNat_lt
  have h2 : high.toNat < 256 := high.toNat_lt
  apply UInt8.toNat_inj.mp
  simp only [wordOf, highByte, UInt16.toNat_ofNat', UInt8.toNat_ofNat']
  omega

end FlightRecorder
