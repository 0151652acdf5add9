import FlightRecorder.Wire.Decoder

/-!
# What the decoder knows of an open frame

Between two bytes of an open frame the decoder keeps a part, a buffer and a flag. All of it follows
from the bytes that have been restored since the start byte, so each step can be stated in terms of
those bytes alone.

* `judge?` — what is decided once the restored bytes of a frame are exactly these
* `Unsettled` — the restored bytes still leave the frame open
* `reading` — the state of the decoder behind them
* `step_plain`, `step_escape`, `step_escaped`, `step_badEscape`, `step_start` — what one byte does
* `run_stuff` — stuffed bytes lengthen what has been read
-/

namespace FlightRecorder

/-! ## Headers -/

namespace Header

/-- Only the bytes of a header are read as that header. -/
theorem ofBytes_eq_ok_iff {data : Bytes} {h : Header} : ofBytes data = .ok h ↔ data = h.toBytes := by
  constructor
  · intro hok
    unfold ofBytes at hok
    split at hok
    · cases hok
      simp [toBytes, coveredBytes, littleEndian]
    · cases hok
  · rintro rfl
    exact ofBytes_toBytes h

theorem exists_ofBytes_eq_ok {data : Bytes} (hlen : data.length = headerSize) :
    ∃ h, ofBytes data = .ok h := by
  match data, hlen with
  | [_, _, _, _, _, _, _, _], _ => exact ⟨_, rfl⟩

end Header

/-- The bytes of a frame behind its start byte, before stuffing. -/
def Frame.bytes (f : Frame) : Bytes := f.header.toBytes ++ f.payload

/-- The header counts the payload, and its checksum is that of the frame. -/
structure Frame.Consistent (f : Frame) : Prop where
  length_eq : f.header.length.toNat = headerSize + f.payload.length
  verified : f.header.verify f.payload = .ok ()

theorem Frame.encode_eq (f : Frame) : f.encode = startByte :: stuff f.bytes := by
  simp [encode, bytes]

theorem Frame.length_bytes (f : Frame) : f.bytes.length = headerSize + f.payload.length := by
  simp [bytes]

namespace DecoderState

/-! ## Restored bytes -/

/-- What is decided once the restored bytes of a frame are exactly these. -/
def judge? (restored : Bytes) : Option Verdict :=
  match Header.ofBytes (restored.take headerSize) with
  | .error _ => none
  | .ok header =>
    if header.length.toNat < headerSize then some (.refused (.lengthTooSmall header.length))
    else if restored.length = header.length.toNat then
      some (settle header (restored.drop headerSize))
    else none

/-- The header, once it is there, announces more bytes than have been restored. -/
def Unsettled (restored : Bytes) : Prop :=
  ∀ header, Header.ofBytes (restored.take headerSize) = .ok header →
    restored.length < header.length.toNat

/-- The state of the decoder inside a frame of which these bytes have been restored. -/
def reading (restored : Bytes) (escaped : Bool) : DecoderState :=
  match Header.ofBytes (restored.take headerSize) with
  | .error _ => within .header escaped restored.toArray
  | .ok header =>
    within (.payload header (header.length.toNat - headerSize)) escaped
      (restored.drop headerSize).toArray

/-- Where the decoder stands once these bytes have been restored, and what it has decided. -/
def proceed (restored : Bytes) : DecoderState × Option Verdict :=
  match judge? restored with
  | none => (reading restored false, none)
  | some verdict => (idle, some verdict)

/-- The fault of a frame that a start byte cuts off. -/
def strays : DecoderState → List Verdict
  | idle => []
  | within _ _ _ => [.refused .strayStart]

/-- A frame is accepted if it carries its own checksum; if not, both checksums are told. -/
theorem settle_eq (header : Header) (payload : Bytes) :
    settle header payload =
      if header.computeChecksum payload = header.checksum then
        .accepted { header := header, payload := payload }
      else .refused (.badChecksum header.checksum (header.computeChecksum payload)) := by
  simp only [settle, Header.verify]
  by_cases h : header.computeChecksum payload = header.checksum
  · rw [if_pos h, if_pos h]
  · rw [if_neg h, if_neg h]

theorem ofBytes_take_of_short {restored : Bytes} (h : restored.length < headerSize) :
    Header.ofBytes (restored.take headerSize) = .error .truncated := by
  cases hb : Header.ofBytes (restored.take headerSize) with
  | ok header =>
    have hlen := congrArg List.length (Header.ofBytes_eq_ok_iff.mp hb)
    rw [List.length_take, Header.length_toBytes] at hlen
    omega
  | error fault =>
    unfold Header.ofBytes at hb
    split at hb <;> cases hb
    rfl

theorem length_ge_of_ofBytes_take {restored : Bytes} {header : Header}
    (h : Header.ofBytes (restored.take headerSize) = .ok header) :
    headerSize ≤ restored.length := by
  have hlen := congrArg List.length (Header.ofBytes_eq_ok_iff.mp h)
  rw [List.length_take, Header.length_toBytes] at hlen
  omega

theorem ofBytes_take_append {restored : Bytes} {header : Header} (more : Bytes)
    (h : Header.ofBytes (restored.take headerSize) = .ok header) :
    Header.ofBytes ((restored ++ more).take headerSize) = .ok header := by
  rw [List.take_append_of_le_length (length_ge_of_ofBytes_take h), h]

theorem unsettled_nil : Unsettled [] := by
  intro header h
  cases h

/-- What was read before an open frame grew was an open frame. -/
theorem Unsettled.of_append {restored more : Bytes} (h : Unsettled (restored ++ more)) :
    Unsettled restored := by
  intro header hh
  have := h header (ofBytes_take_append more hh)
  rw [List.length_append] at this
  omega

/-- Nothing is decided while the frame is open. -/
theorem Unsettled.judge?_eq_none {restored : Bytes} (h : Unsettled restored) :
    judge? restored = none := by
  unfold judge?
  split
  · rfl
  · next header hh =>
    have hlt := h header hh
    have hge := length_ge_of_ofBytes_take hh
    rw [if_neg (by omega), if_neg (by omega)]

/-- One more byte leaves the frame open unless it decides it. -/
theorem Unsettled.append_byte {restored : Bytes} {byte : UInt8} (h : Unsettled restored)
    (hj : judge? (restored ++ [byte]) = none) : Unsettled (restored ++ [byte]) := by
  intro header hh
  simp only [judge?, hh] at hj
  split at hj
  · cases hj
  · next hbig =>
    split at hj
    · cases hj
    · next hne =>
      rw [List.length_append, List.length_singleton] at hne ⊢
      by_cases hshort : restored.length < headerSize
      · omega
      · -- The header was there before the byte, so the frame was already known to be longer.
        have hold : Header.ofBytes (restored.take headerSize) = .ok header := by
          rw [List.take_append_of_le_length (by omega)] at hh
          exact hh
        have := h header hold
        omega

/-! ## Steps inside a frame -/

theorem advance_header (restored : Bytes) (byte : UInt8) (h : restored.length < headerSize) :
    advance (restored.toArray.push byte) .header = proceed (restored ++ [byte]) := by
  rw [advance]
  simp only [Array.size_push, List.size_toArray]
  by_cases hshort : restored.length + 1 < headerSize
  · have hs : (restored ++ [byte]).length < headerSize := by simpa using hshort
    rw [if_pos hshort, proceed, judge?, reading, ofBytes_take_of_short hs]
    simp
  · have hlen : (restored ++ [byte]).length = headerSize := by simp; omega
    have htake : (restored ++ [byte]).take headerSize = restored ++ [byte] :=
      List.take_of_length_le (Nat.le_of_eq hlen)
    obtain ⟨header, hh⟩ := Header.exists_ofBytes_eq_ok hlen
    rw [if_neg hshort]
    simp only [List.push_toArray, proceed, judge?, reading, htake, hh, Header.payloadLength]
    by_cases hsmall : header.length.toNat < headerSize
    · rw [if_pos hsmall, if_pos hsmall]
    · rw [if_neg hsmall, if_neg hsmall, hlen, List.drop_of_length_le (Nat.le_of_eq hlen)]
      by_cases hzero : header.length.toNat = headerSize
      · simp [hzero]
      · rw [if_neg (fun he => hzero he.symm)]
        have : header.length.toNat - headerSize ≠ 0 := by omega
        split
        · next he => cases he
        · next he =>
          simp only [Except.ok.injEq] at he
          exact absurd he this
        · next he =>
          simp only [Except.ok.injEq] at he
          rw [he]

theorem advance_payload {restored : Bytes} {header : Header} (byte : UInt8)
    (hh : Header.ofBytes (restored.take headerSize) = .ok header) (h : Unsettled restored) :
    advance ((restored.drop headerSize).toArray.push byte)
        (.payload header (header.length.toNat - headerSize))
      = proceed (restored ++ [byte]) := by
  have hge := length_ge_of_ofBytes_take hh
  have hlt := h header hh
  have hdrop : restored.drop headerSize ++ [byte] = (restored ++ [byte]).drop headerSize := by
    rw [List.drop_append_of_le_length hge]
  rw [advance]
  simp only [List.size_toArray, List.length_drop, List.push_toArray, hdrop,
    proceed, judge?, reading, ofBytes_take_append [byte] hh, List.length_append,
    List.length_singleton, if_neg (show ¬ header.length.toNat < headerSize by omega)]
  by_cases hfull : restored.length + 1 = header.length.toNat
  · rw [if_pos hfull, if_pos (by omega)]
  · rw [if_neg hfull, if_neg (by omega)]

/-- Whatever part an open frame is in, a restored byte leads to what the longer frame says. -/
theorem Unsettled.exists_part {restored : Bytes} (h : Unsettled restored) :
    ∃ part buffer, (∀ escaped, reading restored escaped = within part escaped buffer) ∧
      ∀ byte, advance (buffer.push byte) part = proceed (restored ++ [byte]) := by
  cases hh : Header.ofBytes (restored.take headerSize) with
  | error fault =>
    refine ⟨.header, restored.toArray, fun escaped => by rw [reading, hh], fun byte => ?_⟩
    refine advance_header restored byte (Nat.lt_of_not_le fun hlong => ?_)
    have hlen : (restored.take headerSize).length = headerSize := by
      rw [List.length_take]
      omega
    obtain ⟨header, hok⟩ := Header.exists_ofBytes_eq_ok hlen
    rw [hok] at hh
    cases hh
  | ok header =>
    exact ⟨.payload header (header.length.toNat - headerSize), (restored.drop headerSize).toArray,
      fun escaped => by rw [reading, hh], fun byte => advance_payload byte hh h⟩

/-! ## One byte -/

theorem step_idle {byte : UInt8} (h : byte ≠ startByte) : idle.step byte = (idle, none) := by
  simp [step, h]

/-- A start byte opens a frame, whatever was being read. -/
theorem step_start (state : DecoderState) :
    state.step startByte = (reading [] false, state.strays.head?) := by
  cases state <;> rfl

theorem step_plain {restored : Bytes} {byte : UInt8} (h : Unsettled restored)
    (hstart : byte ≠ startByte) (hescape : byte ≠ escapeByte) :
    (reading restored false).step byte = proceed (restored ++ [byte]) := by
  obtain ⟨part, buffer, hreading, hadvance⟩ := h.exists_part
  rw [hreading, step, if_neg hstart, stepWithin, if_neg (by decide), if_neg hescape, hadvance]

theorem step_escape {restored : Bytes} (h : Unsettled restored) :
    (reading restored false).step escapeByte = (reading restored true, none) := by
  obtain ⟨part, buffer, hreading, -⟩ := h.exists_part
  rw [hreading, hreading]
  rfl

theorem step_escaped {restored : Bytes} {second plain : UInt8} (h : Unsettled restored)
    (hsecond : restore? second = some plain) :
    (reading restored true).step second = proceed (restored ++ [plain]) := by
  obtain ⟨part, buffer, hreading, hadvance⟩ := h.exists_part
  have hstart : second ≠ startByte := by
    rintro rfl
    cases hsecond
  rw [hreading, step, if_neg hstart, stepWithin, if_pos rfl]
  simp only [hsecond]
  exact hadvance plain

theorem step_badEscape {restored : Bytes} {second : UInt8} (h : Unsettled restored)
    (hstart : second ≠ startByte) (hsecond : restore? second = none) :
    (reading restored true).step second = (idle, some (.refused (.badEscape second))) := by
  obtain ⟨part, buffer, hreading, -⟩ := h.exists_part
  rw [hreading, step, if_neg hstart, stepWithin, if_pos rfl]
  simp only [hsecond]

/-! ## Stuffed bytes -/

theorem run_start (state : DecoderState) :
    state.run [startByte] = (reading [] false, state.strays) := by
  cases state <;> rfl

/-- A stuffed byte restores that byte with the last byte of its pair, and does nothing before. -/
theorem Unsettled.exists_last_stuffByte {restored : Bytes} (h : Unsettled restored)
    (byte : UInt8) :
    ∃ front last middle, stuffByte byte = front ++ [last] ∧
      (reading restored false).run front = (middle, []) ∧
      middle.step last = proceed (restored ++ [byte]) := by
  have hwait : (reading restored false).run [escapeByte] = (reading restored true, []) := by
    rw [run_cons, step_escape h]
    rfl
  by_cases hstart : byte = startByte
  · subst hstart
    exact ⟨[escapeByte], escapedStart, _, rfl, hwait, step_escaped h rfl⟩
  · by_cases hescape : byte = escapeByte
    · subst hescape
      exact ⟨[escapeByte], escapedEscape, _, rfl, hwait, step_escaped h rfl⟩
    · refine ⟨[], byte, _, ?_, rfl, step_plain h hstart hescape⟩
      rw [stuffByte, if_neg hstart, if_neg hescape]
      rfl

/-- **Stuffed bytes that leave the frame open are read and nothing else happens.** -/
theorem run_stuff {restored : Bytes} (more : Bytes) (h : Unsettled (restored ++ more)) :
    (reading restored false).run (stuff more) = (reading (restored ++ more) false, []) := by
  induction more generalizing restored with
  | nil => simp
  | cons byte more ih =>
    have hlonger : Unsettled (restored ++ [byte] ++ more) := by simpa using h
    have hbyte : Unsettled (restored ++ [byte]) := hlonger.of_append
    obtain ⟨front, last, middle, hstuff, hfront, hlast⟩ :=
      (Unsettled.of_append h).exists_last_stuffByte byte
    rw [proceed, hbyte.judge?_eq_none] at hlast
    -- The byte may be a pair on the wire; it counts when the pair is complete.
    have hone : (reading restored false).run (stuffByte byte)
        = (reading (restored ++ [byte]) false, []) := by
      rw [hstuff, run_append, hfront, run_cons, hlast]
      rfl
    rw [stuff_cons, run_append, hone, ih hlonger]
    simp

end DecoderState

end FlightRecorder
