import FlightRecorder.Text.Numeral

/-!
# Faults of a frame

Why a stretch of bytes is no frame, or a payload cannot become one.
-/

namespace FlightRecorder

/-- The reasons for which a frame is refused. -/
inductive FrameFault
  /-- The bytes end inside the frame. -/
  | truncated
  /-- The length field counts fewer bytes than the header has. -/
  | lengthTooSmall (length : UInt16)
  /-- The length field cannot count so many payload bytes. -/
  | payloadTooLarge (size : Nat)
  /-- An escape byte stands before a byte that completes no escape. -/
  | badEscape (byte : UInt8)
  /-- A start byte stands inside a frame. -/
  | strayStart
  /-- The checksum in the header is not the checksum of the frame. -/
  | badChecksum (announced computed : UInt16)
  deriving DecidableEq, Repr

/-- A byte as `0x` and two hexadecimal digits. -/
def showByte (byte : UInt8) : String := "0x" ++ String.ofList (paddedHex 2 byte.toNat)

/-- A word as `0x` and four hexadecimal digits. -/
def showWord (word : UInt16) : String := "0x" ++ String.ofList (paddedHex 4 word.toNat)

/-- The sentence that reports a fault. -/
def FrameFault.message : FrameFault → String
  | .truncated => "frame truncated"
  | .lengthTooSmall length => s!"header length {length.toNat} is smaller than the header itself"
  | .payloadTooLarge size => s!"payload of {size} bytes does not fit a frame"
  | .badEscape byte => "escape byte followed by " ++ showByte byte
  | .strayStart => "start byte inside a frame"
  | .badChecksum announced computed =>
    "CRC mismatch: header " ++ showWord announced ++ ", computed " ++ showWord computed

end FlightRecorder
