import FlightRecorder.Proofs.Wire.Reading

/-!
# Frames come back from the wire

The decoder reads an encoded frame from every state it can be in, and it does so with the last byte
of the encoding. The start byte cuts off what was open before, and the bytes behind it make up
exactly the restored bytes of the frame.

* `Frame.Counted.exists_last` — an encoded frame is settled by its last byte
* `Frame.Counted.run_encode` — an encoded frame is read from every state
* `Frame.Consistent.run_encode` — it is accepted if its checksum is right
* `Frame.Consistent.run_front`, `Frame.Consistent.run_back` — a frame that was cut
* `Decoder.push_encode_build` — the round trip, for one frame and for frames among noise
-/

namespace FlightRecorder

open DecoderState

/-! ## Built frames -/

theorem Header.verify_withLength (length sequence : UInt16) (type : MessageType)
    (payload : Bytes) : (withLength length sequence type payload).verify payload = .ok () := by
  simp only [verify, withLength, computeChecksum, coveredBytes, if_pos]

/-- A frame with a payload that the length field can count is consistent. -/
theorem Frame.consistent_build (sequence : UInt16) (type : MessageType) {payload : Bytes}
    (h : payload.length ≤ maxPayloadSize) : (build sequence type payload).Consistent where
  length_eq := by
    rw [maxPayloadSize, headerSize] at h
    show (UInt16.ofNat (min (headerSize + payload.length) 65535)).toNat = _
    rw [headerSize, Nat.min_eq_left (by omega), UInt16.toNat_ofNat', Nat.mod_eq_of_lt (by omega)]
    rfl
  verified := Header.verify_withLength _ sequence type payload

/-! ## Restored bytes of a frame -/

theorem Frame.ofBytes_take_bytes (f : Frame) :
    Header.ofBytes (f.bytes.take headerSize) = .ok f.header := by
  rw [bytes, List.take_left' (Header.length_toBytes f.header), Header.ofBytes_toBytes]

/-- The length field counts header and payload. -/
def Frame.Counted (f : Frame) : Prop := f.header.length.toNat = headerSize + f.payload.length

/-- All bytes of a frame together decide it. -/
theorem Frame.Counted.judge?_bytes {f : Frame} (h : f.Counted) :
    judge? f.bytes = some (settle f.header f.payload) := by
  have hlen : f.header.length.toNat = headerSize + f.payload.length := h
  have hdrop : f.bytes.drop headerSize = f.payload :=
    List.drop_left' (Header.length_toBytes f.header)
  rw [judge?, f.ofBytes_take_bytes]
  simp only [hdrop, f.length_bytes]
  rw [if_neg (by omega), if_pos hlen.symm]

/-- Before its last byte a frame is open. -/
theorem Frame.Counted.unsettled {f : Frame} (h : f.Counted) {front back : Bytes}
    (hbytes : f.bytes = front ++ back) (hback : back ≠ []) : Unsettled front := by
  intro header hh
  have hpos := List.length_pos_iff.mpr hback
  have hall := ofBytes_take_append back hh
  rw [← hbytes, f.ofBytes_take_bytes] at hall
  have hlen := congrArg List.length hbytes
  rw [f.length_bytes, List.length_append] at hlen
  cases hall
  have hcount : f.header.length.toNat = headerSize + f.payload.length := h
  omega

/-! ## Encoded frames -/

/-- **An encoded frame is settled by its last byte**, from whatever state it is read. -/
theorem Frame.Counted.exists_last {f : Frame} (h : f.Counted) :
    ∃ front last, f.encode = front ++ [last] ∧ ∀ state : DecoderState, ∃ middle,
      state.run front = (middle, state.strays) ∧
        middle.step last = (idle, some (settle f.header f.payload)) := by
  have hne : f.bytes ≠ [] := by
    apply List.ne_nil_of_length_pos
    rw [f.length_bytes, headerSize]
    omega
  have hsplit : f.bytes = f.bytes.dropLast ++ [f.bytes.getLast hne] :=
    (List.dropLast_concat_getLast hne).symm
  have hopen : Unsettled f.bytes.dropLast := h.unsettled hsplit (by simp)
  obtain ⟨front, last, middle, hstuff, hfront, hlast⟩ :=
    hopen.exists_last_stuffByte (f.bytes.getLast hne)
  refine ⟨startByte :: (stuff f.bytes.dropLast ++ front), last, ?_, fun state => ⟨middle, ?_, ?_⟩⟩
  · rw [f.encode_eq, hsplit, stuff_append, stuff_cons, stuff_nil, hstuff]
    simp
  · have hread : (reading [] false).run (stuff f.bytes.dropLast)
        = (reading f.bytes.dropLast false, []) := run_stuff f.bytes.dropLast hopen
    rw [← List.singleton_append, run_append, run_start, run_append, hread, hfront]
    simp
  · rw [hlast, ← hsplit, proceed, h.judge?_bytes]

/-- **An encoded frame is read from every state.** -/
theorem Frame.Counted.run_encode {f : Frame} (h : f.Counted) (state : DecoderState) :
    state.run f.encode = (idle, state.strays ++ [settle f.header f.payload]) := by
  obtain ⟨front, last, hencode, hrun⟩ := h.exists_last
  obtain ⟨middle, hfront, hlast⟩ := hrun state
  rw [hencode, run_append, hfront, run_cons, hlast]
  rfl

theorem Frame.Consistent.settle_eq {f : Frame} (h : f.Consistent) :
    settle f.header f.payload = .accepted f := by
  rw [settle, h.verified]

/-- A consistent frame is queued by its last byte, from whatever state it is read. -/
theorem Frame.Consistent.exists_last {f : Frame} (h : f.Consistent) :
    ∃ front last, f.encode = front ++ [last] ∧ ∀ state : DecoderState, ∃ middle,
      state.run front = (middle, state.strays) ∧
        middle.step last = (idle, some (.accepted f)) := by
  have hlast := Counted.exists_last h.length_eq
  rwa [h.settle_eq] at hlast

/-- **A consistent frame is accepted in every state.** -/
theorem Frame.Consistent.run_encode {f : Frame} (h : f.Consistent) (state : DecoderState) :
    state.run f.encode = (idle, state.strays ++ [.accepted f]) := by
  rw [Counted.run_encode h.length_eq, h.settle_eq]

/-! ## Cut frames -/

/-- **In front of its last byte an encoded frame settles nothing**, but cuts off what was open. -/
theorem Frame.Consistent.run_front {f : Frame} (h : f.Consistent) {front back : Bytes}
    (hencode : f.encode = front ++ back) (hfront : front ≠ []) (hback : back ≠ [])
    (state : DecoderState) : (state.run front).2 = state.strays := by
  obtain ⟨whole, last, hwhole, hrun⟩ := h.exists_last
  obtain ⟨middle, hread, -⟩ := hrun state
  have hcut : whole = front ++ back.dropLast := by
    have hlast := congrArg List.dropLast (hwhole.symm.trans hencode)
    rwa [List.dropLast_concat, List.dropLast_append_of_ne_nil hback] at hlast
  rw [hcut, run_append, Prod.mk.injEq] at hread
  -- The start byte is in the front already, and it settles what was open.
  obtain ⟨rest, hstart⟩ : ∃ rest, front = [startByte] ++ rest := by
    cases front with
    | nil => exact absurd rfl hfront
    | cons byte rest =>
      rw [Frame.encode, List.cons_append, List.cons.injEq] at hencode
      exact ⟨rest, by rw [← hencode.1]; rfl⟩
  have hlength := congrArg List.length hread.2
  rw [hstart, run_append, run_start] at hlength ⊢
  simp only [List.length_append] at hlength
  have hnone : ((reading [] false).run rest).2 = [] := List.length_eq_zero_iff.mp (by omega)
  rw [hnone, List.append_nil]

/-- **A frame that was cut is read by its back**, wherever it was cut. -/
theorem Frame.Consistent.run_back {f : Frame} (h : f.Consistent) {front back : Bytes}
    (hencode : f.encode = front ++ back) (hfront : front ≠ []) (hback : back ≠ [])
    (state : DecoderState) : (state.run front).1.run back = (idle, [.accepted f]) := by
  have hwhole := h.run_encode state
  rw [hencode, run_append, h.run_front hencode hfront hback, Prod.mk.injEq] at hwhole
  exact Prod.ext hwhole.1 (List.append_cancel_left hwhole.2)

/-! ## Frames among noise -/

theorem DecoderState.run_noise {noise : Bytes} (h : startByte ∉ noise) :
    idle.run noise = (idle, []) := by
  induction noise with
  | nil => rfl
  | cons byte noise ih =>
    have hbyte : byte ≠ startByte := fun he => h (he ▸ List.mem_cons_self)
    have hrest : startByte ∉ noise := fun hmem => h (List.mem_cons_of_mem byte hmem)
    rw [run_cons, step_idle hbyte, ih hrest]
    rfl

/-- Frames on the wire, each behind some noise. -/
def onWire (stream : List (Bytes × Frame)) : Bytes :=
  stream.flatMap fun (noise, frame) => noise ++ frame.encode

theorem DecoderState.run_onWire {stream : List (Bytes × Frame)}
    (h : ∀ item ∈ stream, startByte ∉ item.1 ∧ item.2.Consistent) :
    idle.run (onWire stream) = (idle, stream.map fun item => .accepted item.2) := by
  induction stream with
  | nil => rfl
  | cons item stream ih =>
    obtain ⟨hnoise, hframe⟩ := h item List.mem_cons_self
    have hrest := ih fun other hother => h other (List.mem_cons_of_mem item hother)
    have hwire : onWire (item :: stream) = item.1 ++ item.2.encode ++ onWire stream := rfl
    rw [hwire, run_append, run_append, run_noise hnoise, hframe.run_encode, hrest]
    rfl

theorem DecoderState.strays_eq (state : DecoderState) :
    state.strays = if state = idle then [] else [.refused .strayStart] := by
  cases state <;> simp [strays]

theorem Decoder.push_encode_of_consistent (d : Decoder) {f : Frame} (h : f.Consistent) :
    d.push f.encode = { state := .idle, ready := d.ready ++ d.state.strays ++ [.accepted f] } := by
  rw [push, h.run_encode]
  simp

/-! ## The round trip -/

/--
**Encoded frames are read back, and every start byte puts the decoder right.**

From any state and behind any queue, a frame that the length field can count adds itself, behind one
fault if another frame was open. So frames among noise without start bytes are read as they are, and
an answer names its request and carries its data.
-/
theorem Decoder.push_encode_build :
    (∀ (d : Decoder) (sequence : UInt16) (type : MessageType) (payload : Bytes),
      payload.length ≤ maxPayloadSize →
      d.push (Frame.build sequence type payload).encode =
        { state := .idle
          ready := d.ready ++ (if d.state = .idle then [] else [.refused .strayStart])
            ++ [.accepted (Frame.build sequence type payload)] }) ∧
    (∀ (stream : List (Bytes × Frame)) (trailing : Bytes),
      (∀ item ∈ stream, startByte ∉ item.1 ∧ ∃ sequence type payload,
        payload.length ≤ maxPayloadSize ∧ item.2 = Frame.build sequence type payload) →
      startByte ∉ trailing →
      Decoder.fresh.push (onWire stream ++ trailing) =
        { state := .idle, ready := stream.map fun item => .accepted item.2 }) ∧
    (∀ (d : Decoder) (sequence : UInt16) (type : MessageType) (request : UInt16) (data : Bytes),
      data.length ≤ maxPayloadSize - acknowledgedSize →
      d.push (Frame.reply sequence type request data).encode =
        { state := .idle
          ready := d.ready ++ (if d.state = .idle then [] else [.refused .strayStart])
            ++ [.accepted (Frame.reply sequence type request data)] } ∧
      (Frame.reply sequence type request data).acknowledged? = some request ∧
      (Frame.reply sequence type request data).payload.drop acknowledgedSize = data) := by
  refine ⟨fun d sequence type payload h => ?_, fun stream trailing hstream htrailing => ?_,
    fun d sequence type request data h => ?_⟩
  · rw [← strays_eq]
    exact d.push_encode_of_consistent (Frame.consistent_build sequence type h)
  · have hwire : idle.run (onWire stream)
        = (idle, stream.map fun item => .accepted item.2) := by
      refine run_onWire fun item hitem => ?_
      obtain ⟨hnoise, sequence, type, payload, hlen, heq⟩ := hstream item hitem
      exact ⟨hnoise, heq ▸ Frame.consistent_build sequence type hlen⟩
    rw [push, fresh, run_append, hwire, run_noise htrailing]
    simp
  · refine ⟨?_, Frame.acknowledged?_reply _ _ _ _, rfl⟩
    have hlen : (littleEndian request ++ data).length ≤ maxPayloadSize := by
      rw [List.length_append]
      rw [maxPayloadSize, headerSize, acknowledgedSize] at *
      simp only [littleEndian, List.length_cons, List.length_nil]
      omega
    rw [← strays_eq]
    exact d.push_encode_of_consistent (Frame.consistent_build sequence type hlen)

/-- A frame full of reserved bytes is read back behind a fault that waits in the queue, although the
decoder is inside a header and waits for the second byte of an escape pair. -/
theorem Decoder.push_encode_reserved :
    Decoder.push
        { state := .within .header true #[0x73], ready := [.refused .truncated] }
        (Frame.build 0x7873 .ack [0x73, 0x78, 0x73]).encode =
      { state := .idle
        ready := [.refused .truncated, .refused .strayStart,
          .accepted (Frame.build 0x7873 .ack [0x73, 0x78, 0x73])] } :=
  push_encode_build.1 _ 0x7873 .ack [0x73, 0x78, 0x73] (by decide)

end FlightRecorder
