import FlightRecorder.Proofs.Wire.RoundTrip
import FlightRecorder.Proofs.Wire.Stuffing

/-!
# Payloads that no length field can count

The header of a payload that is too long carries the largest length there is, while the checksum and
the bytes on the wire are those of the whole payload. A receiver takes the frame to end where the
length field says. The bytes behind that place are stuffed, so none of them opens a frame, and the
receiver is outside every frame when the next one begins.

* `Frame.cutShort` — the frame that a receiver takes such a frame for
* `Frame.encode_eq_cutShort` — its encoding and the surplus make up the encoding of the whole
* `DecoderState.run_encode_of_oversized` — what is decided
* `Decoder.push_oversized` — the frame, the one behind it, and who refuses to build its header
-/

namespace FlightRecorder

open DecoderState

/-! ## Headers -/

namespace Header

theorem toNat_length_build_of_oversized (sequence : UInt16) (type : MessageType) {payload : Bytes}
    (h : maxPayloadSize < payload.length) :
    (build sequence type payload).length.toNat = headerSize + maxPayloadSize := by
  rw [maxPayloadSize, headerSize] at h
  show (UInt16.ofNat (min (headerSize + payload.length) 65535)).toNat = _
  rw [headerSize, Nat.min_eq_right (by omega)]
  rfl

/-- The header carries the checksum of the whole payload, whatever its length field says. -/
theorem checksum_build (sequence : UInt16) (type : MessageType) (payload : Bytes) :
    (build sequence type payload).checksum
      = (build sequence type payload).computeChecksum payload := by
  simp only [build, withLength, computeChecksum, coveredBytes]

theorem coveredBytes_build_of_oversized (sequence : UInt16) (type : MessageType) {payload : Bytes}
    (h : maxPayloadSize < payload.length) :
    (build sequence type payload).coveredBytes
      = [0xFF, 0xFF, protocolVersion] ++ littleEndian sequence ++ [type.code] := by
  have hlength : (build sequence type payload).length = 65535 :=
    UInt16.toNat_inj.mp (toNat_length_build_of_oversized sequence type h)
  have hcovered : (build sequence type payload).coveredBytes
      = littleEndian (build sequence type payload).length ++ [protocolVersion]
        ++ littleEndian sequence ++ [type.code] := rfl
  rw [hcovered, hlength]
  rfl

theorem build?_eq_error_iff (sequence : UInt16) (type : MessageType) (payload : Bytes)
    (fault : FrameFault) :
    build? sequence type payload = .error fault ↔
      maxPayloadSize < payload.length ∧ fault = .payloadTooLarge payload.length := by
  unfold build?
  split
  · next h =>
    rw [Except.error.injEq]
    exact ⟨fun hfault => ⟨h, hfault.symm⟩, fun hfault => hfault.2.symm⟩
  · next h => exact ⟨nofun, fun hfault => absurd hfault.1 h⟩

/-- A payload that the length field can count gets the same header either way, which announces and
verifies it. -/
theorem build?_of_fitting (sequence : UInt16) (type : MessageType) {payload : Bytes}
    (h : payload.length ≤ maxPayloadSize) :
    build? sequence type payload = .ok (build sequence type payload) ∧
      (build sequence type payload).payloadLength = .ok payload.length ∧
      (build sequence type payload).verify payload = .ok () := by
  have hframe := Frame.consistent_build sequence type h
  have hlength : (build sequence type payload).length.toNat = headerSize + payload.length :=
    hframe.length_eq
  have hcounts : min (headerSize + payload.length) 65535 = headerSize + payload.length := by
    rw [maxPayloadSize, headerSize] at h
    rw [headerSize]
    omega
  refine ⟨?_, ?_, hframe.verified⟩
  · rw [build?, if_neg (Nat.not_lt.mpr h), build, hcounts]
  · rw [payloadLength, hlength, if_neg (by omega), Nat.add_sub_cancel_left]

end Header

/-! ## What is taken for the frame -/

/-- The frame with as much of its payload as the length field can count. -/
def Frame.cutShort (f : Frame) : Frame :=
  { header := f.header, payload := f.payload.take maxPayloadSize }

theorem Frame.counted_cutShort (sequence : UInt16) (type : MessageType) {payload : Bytes}
    (h : maxPayloadSize < payload.length) : (build sequence type payload).cutShort.Counted := by
  have hlength : (payload.take maxPayloadSize).length = maxPayloadSize := by
    rw [List.length_take]
    omega
  show (Header.build sequence type payload).length.toNat
    = headerSize + (payload.take maxPayloadSize).length
  rw [hlength, Header.toNat_length_build_of_oversized sequence type h]

theorem Frame.cutShort_ne (sequence : UInt16) (type : MessageType) {payload : Bytes}
    (h : maxPayloadSize < payload.length) :
    (build sequence type payload).cutShort ≠ build sequence type payload := by
  intro hsame
  have hlength : (payload.take maxPayloadSize).length = payload.length :=
    congrArg (fun f => f.payload.length) hsame
  rw [List.length_take] at hlength
  omega

/-- What follows the cut on the wire is stuffed as well. -/
theorem Frame.encode_eq_cutShort (f : Frame) :
    f.encode = f.cutShort.encode ++ stuff (f.payload.drop maxPayloadSize) := by
  have hpayload : stuff f.payload
      = stuff (f.payload.take maxPayloadSize) ++ stuff (f.payload.drop maxPayloadSize) := by
    rw [← stuff_append, List.take_append_drop]
  rw [encode, hpayload, ← List.append_assoc]
  rfl

/-- **A frame that is too long is settled where the length field says**, and the rest of it is
dropped. -/
theorem DecoderState.run_encode_of_oversized (sequence : UInt16) (type : MessageType)
    {payload : Bytes} (h : maxPayloadSize < payload.length) (state : DecoderState) :
    let sent := Frame.build sequence type payload
    state.run sent.encode
      = (idle, state.strays ++ [settle sent.header (payload.take maxPayloadSize)]) := by
  intro sent
  have hcut : state.run sent.cutShort.encode
      = (idle, state.strays ++ [settle sent.header (payload.take maxPayloadSize)]) :=
    (Frame.counted_cutShort sequence type h).run_encode state
  rw [sent.encode_eq_cutShort, run_append, hcut, run_noise (startByte_notMem_stuff _),
    List.append_nil]

/-! ## Both sides -/

/--
**A payload that is too long costs its own frame and no other.**

Outside every frame exactly one thing is decided about it: the frame is accepted with as much of its
payload as can be counted if the checksum of that happens to be the checksum of the whole, and else
refused with both checksums. It is never accepted as it was sent, and a frame behind it is read as
it is. Whoever asks for a header with the payload checked is refused for such payloads and for no
others; for these the header is the same, announces the payload and verifies it.
-/
theorem Decoder.push_oversized :
    (∀ (d : Decoder) (sequence : UInt16) (type : MessageType) (payload : Bytes),
      d.state = .idle → maxPayloadSize < payload.length →
      let sent := Frame.build sequence type payload
      let whole := sent.header.computeChecksum payload
      let computed := sent.header.computeChecksum (payload.take maxPayloadSize)
      let verdict : Verdict :=
        if computed = whole then .accepted sent.cutShort
        else .refused (.badChecksum whole computed)
      d.push sent.encode = { state := .idle, ready := d.ready ++ [verdict] } ∧
      verdict ≠ .accepted sent ∧
      ∀ sequence' type' payload', payload'.length ≤ maxPayloadSize →
        d.push (sent.encode ++ (Frame.build sequence' type' payload').encode) =
          { state := .idle
            ready := d.ready ++ [verdict, .accepted (Frame.build sequence' type' payload')] }) ∧
    (∀ sequence type payload fault, Header.build? sequence type payload = .error fault ↔
      maxPayloadSize < payload.length ∧ fault = .payloadTooLarge payload.length) ∧
    (∀ sequence type payload, payload.length ≤ maxPayloadSize →
      Header.build? sequence type payload = .ok (.build sequence type payload) ∧
      (Header.build sequence type payload).payloadLength = .ok payload.length ∧
      (Header.build sequence type payload).verify payload = .ok ()) := by
  refine ⟨fun d sequence type payload hidle h => ?_, Header.build?_eq_error_iff,
    fun sequence type payload h => Header.build?_of_fitting sequence type h⟩
  intro sent whole computed verdict
  have hannounced : sent.header.checksum = whole := Header.checksum_build sequence type payload
  have hverdict : settle sent.header (payload.take maxPayloadSize) = verdict := by
    rw [settle_eq, hannounced]
    rfl
  have hpush : d.push sent.encode = { state := .idle, ready := d.ready ++ [verdict] } := by
    rw [push, run_encode_of_oversized sequence type h, hidle, hverdict]
    rfl
  refine ⟨hpush, ?_, fun sequence' type' payload' hfits => ?_⟩
  · by_cases hsame : computed = whole
    · rw [show verdict = .accepted sent.cutShort from if_pos hsame]
      exact fun haccepted => Frame.cutShort_ne sequence type h (Verdict.accepted.inj haccepted)
    · rw [show verdict = .refused _ from if_neg hsame]
      intro haccepted
      cases haccepted
  · rw [push_append, hpush, push_encode_of_consistent _ (Frame.consistent_build _ _ hfits)]
    simp [strays]

/-- Null bytes leave an empty register empty. -/
theorem foldl_absorb_replicate_zero (count : Nat) :
    (List.replicate count 0).foldl absorb 0 = 0 := by
  induction count with
  | zero => rfl
  | succ count ih =>
    have hnull : absorb 0 0 = 0 := by decide +kernel
    rw [List.replicate_succ, List.foldl_cons, hnull, ih]

/-- A payload that begins with the checksum of its header and goes on with null bytes: no matter how
many of them are cut off, the checksum is that of the whole. -/
theorem Decoder.push_oversized_of_nulls :
    let payload : Bytes := [0x1E, 0x31] ++ List.replicate maxPayloadSize 0
    let sent := Frame.build 0 .ping payload
    let next := Frame.build 1 .ack [7, 0]
    maxPayloadSize < payload.length ∧
      fresh.push (sent.encode ++ next.encode)
        = { state := .idle, ready := [.accepted sent.cutShort, .accepted next] } ∧
      Header.build? 0 .ping payload = .error (.payloadTooLarge (maxPayloadSize + 2)) ∧
      (Header.build 1 .ack [7, 0]).payloadLength = .ok 2 := by
  intro payload sent next
  have hsize : payload.length = maxPayloadSize + 2 := by
    rw [List.length_append, List.length_replicate]
    exact Nat.add_comm _ _
  have hlong : maxPayloadSize < payload.length := by omega
  have hcovered : sent.header.coveredBytes = [0xFF, 0xFF, 0, 0, 0, 1] :=
    Header.coveredBytes_build_of_oversized 0 .ping hlong
  have hchecksum (count : Nat) :
      sent.header.computeChecksum ([0x1E, 0x31] ++ List.replicate count 0) = 0 := by
    have hempty : checksum [0xFF, 0xFF, 0, 0, 0, 1, 0x1E, 0x31] = 0 := by decide +kernel
    rw [Header.computeChecksum, hcovered, ← List.append_assoc, checksum_append]
    show (List.replicate count 0).foldl absorb (checksum [0xFF, 0xFF, 0, 0, 0, 1, 0x1E, 0x31]) = 0
    rw [hempty, foldl_absorb_replicate_zero]
  have htake : payload.take maxPayloadSize
      = [0x1E, 0x31] ++ List.replicate (maxPayloadSize - 2) 0 := by
    rw [List.take_append, List.take_replicate, Nat.min_eq_left (Nat.sub_le _ _)]
    rfl
  have hsame : sent.header.computeChecksum (payload.take maxPayloadSize)
      = sent.header.computeChecksum payload := by
    rw [htake, hchecksum, hchecksum]
  obtain ⟨hpush, hrefused, hfitting⟩ := push_oversized
  obtain ⟨-, -, hboth⟩ := hpush fresh 0 .ping payload rfl hlong
  refine ⟨hlong, ?_, (hrefused _ _ _ _).mpr ⟨hlong, by rw [hsize]⟩, ?_⟩
  · have hbehind := hboth 1 .ack [7, 0] (by decide)
    rw [if_pos hsame] at hbehind
    exact hbehind
  · exact (hfitting 1 .ack [7, 0] (by decide)).2.1

end FlightRecorder
