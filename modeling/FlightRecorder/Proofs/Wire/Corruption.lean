import FlightRecorder.Proofs.Wire.Checksum
import FlightRecorder.Proofs.Wire.RoundTrip

/-!
# Damaged frames are refused

A frame that was damaged on its way is found out by its checksum if the damage is a burst of at most
two bytes behind the length field, or if only the checksum itself was hit. The length field has to
be as it was, since it says which bytes belong to the frame.

* `Frame.guardedBytes` — what the checksum guards behind the length field
* `Frame.Damaged` — the damages that are found out
* `Frame.Damaged.computeChecksum_ne` — the checksum of a damaged frame is not the one it carries
* `Decoder.push_damaged` — a damaged frame is refused, and nothing else is decided
-/

namespace FlightRecorder

open DecoderState

namespace Frame

/-- The bytes that the checksum guards behind the length field: version, sequence number and type,
and then the payload. -/
def guardedBytes (f : Frame) : Bytes := (f.header.toBytes.drop 2).take 4 ++ f.payload

/-- The checksum of a frame goes on from that of its length field. -/
theorem computeChecksum_eq (f : Frame) :
    f.header.computeChecksum f.payload
      = f.guardedBytes.foldl absorb (checksum (littleEndian f.header.length)) :=
  checksum_append (littleEndian f.header.length) f.guardedBytes

theorem length_guardedBytes (f : Frame) : f.guardedBytes.length = 4 + f.payload.length := by
  rw [guardedBytes, List.length_append]
  rfl

/-- A frame was sent, and another one of the same size and with the same length field comes in. -/
inductive Damaged (sent received : Frame) : Prop
  /-- The checksum is as it was, and the bytes that it guards differ, but nowhere else than at two
  places next to each other. -/
  | burst (place : Nat) (hchecksum : received.header.checksum = sent.header.checksum)
      (hne : received.guardedBytes ≠ sent.guardedBytes)
      (hburst : ∀ j, received.guardedBytes[j]? ≠ sent.guardedBytes[j]? → j = place ∨ j = place + 1)
  /-- Only the checksum differs. -/
  | checksum (hchecksum : received.header.checksum ≠ sent.header.checksum)
      (hsame : received.guardedBytes = sent.guardedBytes)

/-- **A damaged frame does not carry its own checksum.** -/
theorem Damaged.computeChecksum_ne {sent received : Frame} (h : sent.Damaged received)
    (hsent : sent.Consistent) (hpayload : received.payload.length = sent.payload.length)
    (hlength : received.header.length = sent.header.length) :
    received.header.computeChecksum received.payload ≠ received.header.checksum := by
  have hright : sent.header.computeChecksum sent.payload = sent.header.checksum := by
    by_contra hwrong
    have hverified := hsent.verified
    simp only [Header.verify, if_neg hwrong] at hverified
    cases hverified
  rw [computeChecksum_eq] at hright ⊢
  rw [hlength]
  cases h with
  | burst place hchecksum hne hburst =>
    rw [hchecksum, ← hright]
    refine foldl_absorb_ne _ ?_ hne hburst
    rw [length_guardedBytes, length_guardedBytes, hpayload]
  | checksum hchecksum hsame =>
    rw [hsame, hright]
    exact hchecksum.symm

end Frame

/--
**A frame that was damaged by a short burst, or in its checksum, is refused.**

Whatever payload was sent: of the stuffed header and payload that come in instead, outside every
frame, nothing is decided but that the checksum in the header is not the one that was computed.
-/
theorem Decoder.push_damaged {sequence : UInt16} {type : MessageType} {payload : Bytes}
    (hsize : payload.length ≤ maxPayloadSize) {received : Frame}
    (hpayload : received.payload.length = payload.length)
    (hlength : received.header.length = (Header.build sequence type payload).length)
    (hdamaged : (Frame.build sequence type payload).Damaged received) {d : Decoder}
    (hidle : d.state = .idle) :
    ∃ computed, computed ≠ received.header.checksum ∧
      d.push (startByte :: (stuff received.header.toBytes ++ stuff received.payload)) =
        { state := .idle
          ready := d.ready ++ [.refused (.badChecksum received.header.checksum computed)] } := by
  have hsent := Frame.consistent_build sequence type hsize
  have hcounted : received.Counted := by
    rw [Frame.Counted, hlength, hpayload]
    exact hsent.length_eq
  have hne := hdamaged.computeChecksum_ne hsent hpayload hlength
  refine ⟨received.header.computeChecksum received.payload, hne, ?_⟩
  have hrun : d.state.run received.encode = (.idle, [settle received.header received.payload]) := by
    rw [hcounted.run_encode, hidle]
    rfl
  rw [settle_eq, if_neg hne] at hrun
  show d.push received.encode = _
  rw [push, hrun]

/-- The answer to request 7, damaged where the header ends and the payload begins. -/
def damagedAnswer : Frame :=
  { Frame.build 0x0173 .ack [7, 0, 0x78] with
    header := { Header.build 0x0173 .ack [7, 0, 0x78] with typeCode := 0x73 }
    payload := [0x31, 0, 0x78] }

/-- It is refused although the damage looks like a stuffed byte. -/
theorem Decoder.push_damagedAnswer :
    ∃ computed, computed ≠ damagedAnswer.header.checksum ∧
      fresh.push (startByte :: (stuff damagedAnswer.header.toBytes ++ stuff [0x31, 0, 0x78])) =
        { state := .idle
          ready := [.refused (.badChecksum damagedAnswer.header.checksum computed)] } := by
  have hcame : damagedAnswer.guardedBytes = [0, 0x73, 1, 0x73, 0x31, 0, 0x78] := by
    decide +kernel
  have hsent : (Frame.build 0x0173 .ack [7, 0, 0x78]).guardedBytes
      = [0, 0x73, 1, 0xA0, 7, 0, 0x78] := by
    decide +kernel
  have hdamaged : (Frame.build 0x0173 .ack [7, 0, 0x78]).Damaged damagedAnswer := by
    refine .burst 3 (by decide +kernel) ?_ fun j hj => ?_
    · rw [hcame, hsent]
      decide
    · rw [hcame, hsent] at hj
      match j with
      | 0 | 1 | 2 | 5 | 6 => exact absurd rfl hj
      | 3 => exact .inl rfl
      | 4 => exact .inr rfl
      | j + 7 => exact absurd rfl hj
  exact push_damaged (by decide) (by decide) (by decide +kernel) hdamaged rfl

end FlightRecorder
