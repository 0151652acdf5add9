import FlightRecorder.Wire.Header
import FlightRecorder.Wire.Stuffing

/-!
# Frames

A frame is a header and its payload. On the wire it is the start byte, then both of them stuffed.
The payload of an acknowledgement begins with the sequence number of the request it answers.
-/

namespace FlightRecorder

/-- Number of payload bytes that hold the acknowledged sequence number. -/
def acknowledgedSize : Nat := 2

/-- A message with its header. -/
structure Frame where
  header : Header
  payload : Bytes
  deriving DecidableEq, Repr

namespace Frame

/-- The frame that carries a payload. -/
def build (sequence : UInt16) (type : MessageType) (payload : Bytes) : Frame :=
  { header := .build sequence type payload, payload := payload }

/-- The frame that answers the request numbered `request`. -/
def reply (sequence : UInt16) (type : MessageType) (request : UInt16) (data : Bytes) : Frame :=
  build sequence type (littleEndian request ++ data)

/-- The type of the message. -/
def messageType (f : Frame) : MessageType := f.header.messageType

/-- The sequence number of the frame itself. -/
def sequence (f : Frame) : UInt16 := f.header.sequence

/-- The sequence number of the request that an acknowledgement answers. -/
def acknowledged? (f : Frame) : Option UInt16 :=
  match f.payload with
  | low :: high :: _ => some (wordOf low high)
  | _ => none

/-- The bytes of the frame on the wire. -/
def encode (f : Frame) : Bytes :=
  startByte :: (stuff f.header.toBytes ++ stuff f.payload)

/-- An answer names the request it was built for. -/
@[simp]
theorem acknowledged?_reply (sequence : UInt16) (type : MessageType) (request : UInt16)
    (data : Bytes) : (reply sequence type request data).acknowledged? = some request := by
  simp [reply, build, acknowledged?, littleEndian]

end Frame

end FlightRecorder
