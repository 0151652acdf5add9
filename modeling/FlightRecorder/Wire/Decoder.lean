import FlightRecorder.Wire.Frame

/-!
# The receiving side of the wire

Frames are found in a stream one byte at a time. A start byte opens a frame wherever it stands;
eight restored bytes make the header, and the header says how many more make the payload. Bytes
outside a frame are dropped.

* `DecoderState.step` — what one byte does; it settles at most one frame
* `DecoderState.run` — what a byte string does
* `Decoder` — the state together with the frames and faults that nobody has taken yet

A fault closes the frame it stands in, and reading goes on at the next start byte.
-/

namespace FlightRecorder

/-- What becomes of a frame that was opened. -/
inductive Verdict
  | accepted (frame : Frame)
  | refused (fault : FrameFault)
  deriving DecidableEq, Repr

/-- Which part of an open frame is being read. -/
inductive FramePart
  | header
  /-- The payload of `length` bytes that this header announces. -/
  | payload (header : Header) (length : Nat)
  deriving DecidableEq, Repr

/-- Where the stream stands between two bytes. -/
inductive DecoderState
  /-- Outside every frame. -/
  | idle
  /-- Inside a frame: the restored bytes of the current part, and whether the byte read last was an
  escape byte that waits for its second byte. -/
  | within (part : FramePart) (escaped : Bool) (buffer : Array UInt8)
  deriving DecidableEq, Repr

namespace DecoderState

/-! ## One byte -/

/-- The verdict on a frame whose last byte has been read. -/
def settle (header : Header) (payload : Bytes) : Verdict :=
  match header.verify payload with
  | .ok () => .accepted { header := header, payload := payload }
  | .error fault => .refused fault

/-- Goes on behind the restored bytes of a part, which may now be complete. -/
def advance (buffer : Array UInt8) : FramePart → DecoderState × Option Verdict
  | .header =>
    if buffer.size < headerSize then (within .header false buffer, none)
    else
      match Header.ofBytes buffer.toList with
      | .error fault => (idle, some (.refused fault))
      | .ok header =>
        match header.payloadLength with
        | .error fault => (idle, some (.refused fault))
        -- No byte of a payload will come, so the frame is complete now.
        | .ok 0 => (idle, some (settle header []))
        | .ok length => (within (.payload header length) false #[], none)
  | .payload header length =>
    if buffer.size = length then (idle, some (settle header buffer.toList))
    else (within (.payload header length) false buffer, none)

/-- Reads a byte that is no start byte inside a frame. -/
def stepWithin (part : FramePart) (escaped : Bool) (buffer : Array UInt8) (byte : UInt8) :
    DecoderState × Option Verdict :=
  if escaped then
    match restore? byte with
    | some plain => advance (buffer.push plain) part
    | none => (idle, some (.refused (.badEscape byte)))
  else if byte = escapeByte then (within part true buffer, none)
  else advance (buffer.push byte) part

/-- Reads one byte. -/
def step (state : DecoderState) (byte : UInt8) : DecoderState × Option Verdict :=
  match state with
  | idle => if byte = startByte then (within .header false #[], none) else (idle, none)
  | within part escaped buffer =>
    -- Inside a frame the start byte is always stuffed: here the frame has lost its end.
    if byte = startByte then (within .header false #[], some (.refused .strayStart))
    else stepWithin part escaped buffer byte

/-! ## Byte strings -/

/-- Reads one byte and keeps its verdict in front of the earlier ones. -/
def stepOnto (progress : DecoderState × List Verdict) (byte : UInt8) :
    DecoderState × List Verdict :=
  match progress.1.step byte with
  | (state, none) => (state, progress.2)
  | (state, some verdict) => (state, verdict :: progress.2)

/-- Reads a byte string: the state behind it and the verdicts, earliest first. -/
def run (state : DecoderState) (data : Bytes) : DecoderState × List Verdict :=
  let progress := data.foldl stepOnto (state, [])
  (progress.1, progress.2.reverse)

@[simp]
theorem run_nil (state : DecoderState) : state.run [] = (state, []) := rfl

/-- Earlier verdicts do not matter to the bytes that follow. -/
theorem foldl_stepOnto (data : Bytes) (state : DecoderState) (earlier : List Verdict) :
    data.foldl stepOnto (state, earlier)
      = ((data.foldl stepOnto (state, [])).1,
          (data.foldl stepOnto (state, [])).2 ++ earlier) := by
  induction data generalizing state earlier with
  | nil => rfl
  | cons byte data ih =>
    rcases hs : state.step byte with ⟨next, verdict⟩
    cases verdict with
    | none => simpa [stepOnto, hs] using ih next earlier
    | some verdict =>
      simp only [List.foldl_cons, stepOnto, hs]
      rw [ih next (verdict :: earlier), ih next [verdict]]
      simp

/-- A string is read by reading its first byte and then the rest. -/
theorem run_cons (state : DecoderState) (byte : UInt8) (data : Bytes) :
    state.run (byte :: data)
      = (((state.step byte).1.run data).1,
          (state.step byte).2.toList ++ ((state.step byte).1.run data).2) := by
  rcases hs : state.step byte with ⟨next, verdict⟩
  cases verdict with
  | none => simp [run, stepOnto, hs]
  | some verdict =>
    simp only [run, List.foldl_cons, stepOnto, hs]
    rw [foldl_stepOnto data next [verdict]]
    simp

/-- Where a string is cut makes no difference to what is read. -/
theorem run_append (state : DecoderState) (first second : Bytes) :
    state.run (first ++ second)
      = (((state.run first).1.run second).1,
          (state.run first).2 ++ ((state.run first).1.run second).2) := by
  induction first generalizing state with
  | nil => simp
  | cons byte first ih => simp [run_cons, ih, List.append_assoc]

/-- A byte string settles no more frames than it has bytes. -/
theorem length_run_le (state : DecoderState) (data : Bytes) :
    (state.run data).2.length ≤ data.length := by
  induction data generalizing state with
  | nil => simp
  | cons byte data ih =>
    have := ih (state.step byte).1
    rw [run_cons]
    cases (state.step byte).2 <;> simp <;> omega

end DecoderState

/-! ## The decoder of a connection -/

/-- The state of the stream and the verdicts that wait to be taken, earliest first. -/
structure Decoder where
  state : DecoderState
  ready : List Verdict
  deriving DecidableEq, Repr

namespace Decoder

/-- The decoder of a new connection. -/
def fresh : Decoder := { state := .idle, ready := [] }

/-- Reads a byte string. -/
def push (d : Decoder) (data : Bytes) : Decoder :=
  let progress := d.state.run data
  { state := progress.1, ready := d.ready ++ progress.2 }

/-- Takes the earliest verdict. -/
def next (d : Decoder) : Option Verdict × Decoder :=
  match d.ready with
  | [] => (none, d)
  | verdict :: ready => (some verdict, { d with ready := ready })

@[simp]
theorem push_nil (d : Decoder) : d.push [] = d := by simp [push]

/-- Pushing a string in two parts is pushing it at once. -/
theorem push_append (d : Decoder) (first second : Bytes) :
    d.push (first ++ second) = (d.push first).push second := by
  simp [push, DecoderState.run_append, List.append_assoc]

end Decoder

end FlightRecorder
