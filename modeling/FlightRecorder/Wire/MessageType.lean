/-!
# Message types

The kinds of message that a frame can carry. A code without a meaning is kept as `unknown`, so a
frame of any type can be received and reported.
-/

namespace FlightRecorder

/-- What a frame says. -/
inductive MessageType
  | error
  | ping
  | setBaudRate
  | flashUpload
  | exit
  | selectRecord
  | getRecordInfo
  | getIgcData
  | ack
  | nack
  | unknown (code : UInt8)
  deriving DecidableEq, Repr

namespace MessageType

/-- The code that stands in the header. -/
def code : MessageType → UInt8
  | error => 0x00
  | ping => 0x01
  | setBaudRate => 0x02
  | flashUpload => 0x10
  | exit => 0x12
  | selectRecord => 0x20
  | getRecordInfo => 0x21
  | getIgcData => 0x22
  | ack => 0xA0
  | nack => 0xB7
  | unknown code => code

/-- The type that a code in a header means. -/
def ofCode (code : UInt8) : MessageType :=
  if code = 0x00 then error
  else if code = 0x01 then ping
  else if code = 0x02 then setBaudRate
  else if code = 0x10 then flashUpload
  else if code = 0x12 then exit
  else if code = 0x20 then selectRecord
  else if code = 0x21 then getRecordInfo
  else if code = 0x22 then getIgcData
  else if code = 0xA0 then ack
  else if code = 0xB7 then nack
  else unknown code

/-- Reading a code loses nothing. -/
@[simp]
theorem code_ofCode (code : UInt8) : (ofCode code).code = code := by
  fun_cases ofCode code <;> first | rfl | simp only [MessageType.code, *]

/-- The name of the type in the protocol, as progress reports give it. -/
def mnemonic : MessageType → String
  | error => "ERROR"
  | ping => "PING"
  | setBaudRate => "SETBAUDRATE"
  | flashUpload => "FLASHUPLOAD"
  | exit => "EXIT"
  | selectRecord => "SELECTRECORD"
  | getRecordInfo => "GETRECORDINFO"
  | getIgcData => "GETIGCDATA"
  | ack => "ACK"
  | nack => "NACK"
  | unknown _ => "UNKNOWN"

/-- The name of the type in a failure report, which also tells unknown codes apart. -/
def caption : MessageType → String
  | error => "Error"
  | ping => "Ping"
  | setBaudRate => "SetBaudRate"
  | flashUpload => "FlashUpload"
  | exit => "Exit"
  | selectRecord => "SelectRecord"
  | getRecordInfo => "GetRecordInfo"
  | getIgcData => "GetIgcData"
  | ack => "Ack"
  | nack => "Nack"
  | unknown code => s!"Unknown({code.toNat})"

/-- The two types with which a device answers a request. -/
def isAcknowledgement : MessageType → Bool
  | ack => true
  | nack => true
  | _ => false

end MessageType

end FlightRecorder
