import FlightRecorder.Wire.Bytes

/-!
# The frame checksum

CRC-16/XMODEM: polynomial `0x1021`, register zero at the start, most significant bit first, nothing
reflected and nothing added at the end. The register is the remainder of the bits read so far, so a
message is absorbed byte by byte and the checksum of `a ++ b` continues from that of `a`.
-/

namespace FlightRecorder

/-- One bit: shift left, and subtract the polynomial when a one falls out. -/
def shiftRegister (register : UInt16) : UInt16 :=
  if register &&& 0x8000 = 0 then register <<< 1 else (register <<< 1) ^^^ 0x1021

/-- One byte: it enters the high half of the register, which is then shifted eight times. -/
def absorb (register : UInt16) (byte : UInt8) : UInt16 :=
  Nat.repeat shiftRegister 8 (register ^^^ (byte.toUInt16 <<< 8))

/-- The checksum of a byte string. -/
def checksum (data : Bytes) : UInt16 := data.foldl absorb 0

/-- The checksum of a longer string continues from that of its beginning. -/
theorem checksum_append (first second : Bytes) :
    checksum (first ++ second) = second.foldl absorb (checksum first) := by
  simp [checksum]

end FlightRecorder
