import FlightRecorder.Wire.Bytes
import FlightRecorder.Wire.Fault

/-!
# Byte stuffing

Two byte values are reserved: the start byte opens a frame and stands nowhere else on the wire, and
the escape byte announces a replaced byte. Inside a frame each of them is written as an escape pair,
so a receiver that sees a start byte knows that a frame begins there.

* `stuff` — replaces reserved bytes by their pairs
* `unstuff` — puts them back, or names the first place that no stuffed text has
-/

namespace FlightRecorder

/-! ## Reserved bytes -/

/-- Opens every frame. -/
def startByte : UInt8 := 0x73

/-- First byte of an escape pair. -/
def escapeByte : UInt8 := 0x78

/-- Second byte of the pair that stands for `startByte`. -/
def escapedStart : UInt8 := 0x31

/-- Second byte of the pair that stands for `escapeByte`. -/
def escapedEscape : UInt8 := 0x55

/-- The byte that an escape pair with this second byte stands for. -/
def restore? (byte : UInt8) : Option UInt8 :=
  if byte = escapedStart then some startByte
  else if byte = escapedEscape then some escapeByte
  else none

/-! ## Stuffing -/

/-- One byte as it is written inside a frame. -/
def stuffByte (byte : UInt8) : Bytes :=
  if byte = startByte then [escapeByte, escapedStart]
  else if byte = escapeByte then [escapeByte, escapedEscape]
  else [byte]

/-- A byte string as it is written inside a frame. -/
def stuff (data : Bytes) : Bytes := data.flatMap stuffByte

@[simp]
theorem stuff_nil : stuff [] = [] := rfl

@[simp]
theorem stuff_cons (byte : UInt8) (data : Bytes) :
    stuff (byte :: data) = stuffByte byte ++ stuff data := rfl

@[simp]
theorem stuff_append (first second : Bytes) :
    stuff (first ++ second) = stuff first ++ stuff second := by
  simp [stuff]

/-! ## Unstuffing -/

/-- Reads stuffed bytes behind those already restored. -/
def unstuffOnto (restored : Array UInt8) : Bytes → Except FrameFault Bytes
  | [] => .ok restored.toList
  | byte :: rest =>
    if byte = startByte then .error .strayStart
    else if byte = escapeByte then
      match rest with
      | [] => .error .truncated
      | second :: rest =>
        match restore? second with
        | some plain => unstuffOnto (restored.push plain) rest
        | none => .error (.badEscape second)
    else unstuffOnto (restored.push byte) rest

/-- The bytes that a stuffed text stands for; the leftmost defect decides the fault. -/
def unstuff (data : Bytes) : Except FrameFault Bytes := unstuffOnto #[] data

end FlightRecorder
