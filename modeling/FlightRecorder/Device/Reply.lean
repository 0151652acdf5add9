import FlightRecorder.Device.Failure
import FlightRecorder.Flight.InfoLine
import FlightRecorder.Text.Utf8
import FlightRecorder.Wire.Decoder

/-!
# Replies

An acknowledgement that answers a request, and what its data means: the description of a record, or
a piece of a record's content.
-/

namespace FlightRecorder

/-- An acknowledgement. -/
structure Reply where
  type : MessageType
  /-- The acknowledged sequence number and the data behind it. -/
  payload : Bytes
  deriving DecidableEq, Repr

/-- The payload behind the acknowledged sequence number. -/
def Reply.data (r : Reply) : Bytes := r.payload.drop acknowledgedSize

/-- The reply to request `sequence`, if a frame is one. -/
def Frame.reply? (f : Frame) (sequence : UInt16) : Option Reply :=
  if f.messageType.isAcknowledgement ∧ f.acknowledged? = some sequence then
    some { type := f.messageType, payload := f.payload }
  else none

/-- The reply to request `sequence`, if there is one in what was received. -/
def Verdict.reply? (sequence : UInt16) : Verdict → Option Reply
  | .accepted frame => frame.reply? sequence
  | .refused _ => none

/-! ## Descriptions of records -/

/-- The flight that a reply describes. -/
def Reply.flight (r : Reply) (index : UInt8) : Except Failure Flight :=
  if r.type ≠ .ack then .error (.unexpectedResponse r.type)
  else if r.data = [] then .error (.insufficientData (acknowledgedSize + 1) r.payload.length)
  else
    let text := trimNulls (decodeText r.data)
    match Flight.parseInfo? text index with
    | some flight => .ok flight
    | none => .error (.invalidInfo (String.ofList text))

/-! ## Pieces of content -/

/-- Place of the progress in the payload. -/
def progressOffset : Nat := 2

/-- Place of the first byte of content in the payload. -/
def contentOffset : Nat := 3

/-- Bytes of the shortest payload that holds a piece of content. -/
def minChunkSize : Nat := 4

/-- Last byte of the payload with which the content ends. -/
def endOfContent : UInt8 := 0x1A

/-- The progress at the end of a transfer. -/
def fullProgress : Nat := 100

/-- A piece of a record's content. -/
structure Chunk where
  /-- How much of the record has been transferred, in percent. -/
  progress : Nat
  data : Bytes
  /-- Whether the content ends with this piece. -/
  isLast : Bool
  deriving DecidableEq, Repr

/-- The piece of content in a payload. -/
def Chunk.ofPayload (payload : Bytes) : Except Failure Chunk :=
  if payload.length < minChunkSize then .error (.insufficientData minChunkSize payload.length)
  else
    let content := payload.drop contentOffset
    let isLast : Bool := content.getLast? = some endOfContent
    .ok {
      progress := min (payload.getD progressOffset 0).toNat fullProgress
      data := if isLast then content.dropLast else content
      isLast := isLast }

/-- The piece of content that a reply carries. -/
def Reply.chunk (r : Reply) : Except Failure Chunk :=
  if r.type ≠ .ack then .error (.unexpectedResponse r.type) else Chunk.ofPayload r.payload

end FlightRecorder
