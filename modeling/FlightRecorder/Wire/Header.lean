import FlightRecorder.Wire.Checksum
import FlightRecorder.Wire.Fault
import FlightRecorder.Wire.MessageType

/-!
# Frame headers

Eight bytes in front of every payload: the length of header and payload together, a version, a
sequence number, the message type and a checksum. Words are little-endian. The checksum covers the
six bytes before it and the payload.

* `Header.build` — the header of a payload; the length of one that is too long stays at its maximum
* `Header.build?` — the same, but refuses a payload that the length field cannot count
* `Header.ofBytes` / `Header.toBytes` — the two directions of the layout
* `Header.payloadLength`, `Header.verify` — what a receiver checks
-/

namespace FlightRecorder

/-- Number of bytes of a header. -/
def headerSize : Nat := 8

/-- Number of header bytes that the checksum covers: all but itself. -/
def coveredHeaderSize : Nat := 6

/-- Size of the longest payload whose frame the length field can count. -/
def maxPayloadSize : Nat := 65535 - headerSize

/-- The version written into every header. -/
def protocolVersion : UInt8 := 0

/-- The fields of a frame header, in their order on the wire. -/
structure Header where
  /-- Bytes of header and payload together. -/
  length : UInt16
  version : UInt8
  sequence : UInt16
  typeCode : UInt8
  checksum : UInt16
  deriving DecidableEq, Repr

namespace Header

/-! ## Layout -/

/-- The bytes that the checksum covers. -/
def coveredBytes (h : Header) : Bytes :=
  littleEndian h.length ++ [h.version] ++ littleEndian h.sequence ++ [h.typeCode]

/-- The header as it is sent, before stuffing. -/
def toBytes (h : Header) : Bytes := h.coveredBytes ++ littleEndian h.checksum

/-- Reads a header from exactly its eight bytes. -/
def ofBytes : Bytes → Except FrameFault Header
  | [l0, l1, v, s0, s1, t, c0, c1] => .ok {
      length := wordOf l0 l1
      version := v
      sequence := wordOf s0 s1
      typeCode := t
      checksum := wordOf c0 c1 }
  | _ => .error .truncated

/-- A header is read back from its bytes. -/
@[simp]
theorem ofBytes_toBytes (h : Header) : ofBytes h.toBytes = .ok h := by
  simp [toBytes, coveredBytes, littleEndian, ofBytes]

@[simp]
theorem length_toBytes (h : Header) : h.toBytes.length = headerSize := rfl

/-! ## Contents -/

/-- The type of the message. -/
def messageType (h : Header) : MessageType := .ofCode h.typeCode

/-- Number of payload bytes that the length field announces. -/
def payloadLength (h : Header) : Except FrameFault Nat :=
  if h.length.toNat < headerSize then .error (.lengthTooSmall h.length)
  else .ok (h.length.toNat - headerSize)

/-- The checksum that belongs to this header and a payload. -/
def computeChecksum (h : Header) (payload : Bytes) : UInt16 :=
  FlightRecorder.checksum (h.coveredBytes ++ payload)

/-- Compares the checksum in the header with that of header and payload. -/
def verify (h : Header) (payload : Bytes) : Except FrameFault Unit :=
  let computed := h.computeChecksum payload
  if computed = h.checksum then .ok () else .error (.badChecksum h.checksum computed)

/-! ## Building -/

/-- The header with a given length field; only the checksum is computed. -/
def withLength (length sequence : UInt16) (type : MessageType) (payload : Bytes) : Header :=
  let blank : Header := {
    length := length
    version := protocolVersion
    sequence := sequence
    typeCode := type.code
    checksum := 0 }
  { blank with checksum := blank.computeChecksum payload }

/-- The header of a payload; a payload that the length field cannot count gets its largest value. -/
def build (sequence : UInt16) (type : MessageType) (payload : Bytes) : Header :=
  withLength (UInt16.ofNat (min (headerSize + payload.length) 65535)) sequence type payload

/-- The header of a payload that the length field can count. -/
def build? (sequence : UInt16) (type : MessageType) (payload : Bytes) :
    Except FrameFault Header :=
  if maxPayloadSize < payload.length then .error (.payloadTooLarge payload.length)
  else .ok (withLength (UInt16.ofNat (headerSize + payload.length)) sequence type payload)

end Header

end FlightRecorder
