import FlightRecorder.Proofs.Device.Alike
import FlightRecorder.Proofs.Device.Rollback

/-!
# Noise on the link

In front of the start byte of a frame anything may come: bytes at random, frames that broke off,
frames for somebody else, answers that are too late. The start byte ends all of it. An operation
does the same as without the noise, if nothing in the noise is an answer to one of its requests.

* `Delivery` — a frame with noise in front of it, or a pause
* `relevant_prospects_noisy` — what an operation meets of the noise
* `perform_noisy` — an operation with and without noise
-/

namespace FlightRecorder

open DecoderState Session

/-! ## Frames among noise -/

/-- A part of what a device sends. -/
inductive Delivery
  /-- A frame, with noise directly in front of its start byte. -/
  | frame (noise : Bytes) (f : Frame)
  | pause (kind : Pause)

namespace Delivery

/-- What comes on a link without noise. -/
def clear : Delivery → List Signal
  | frame _ f => f.encode.map .byte
  | pause kind => [.pause kind]

/-- What comes on a link with the noise. -/
def noisy : Delivery → List Signal
  | frame noise f => (noise ++ f.encode).map .byte
  | pause kind => [.pause kind]

/-- The frame was encoded from a header that belongs to its payload. -/
def IsConsistent : Delivery → Prop
  | frame _ f => f.Consistent
  | pause _ => True

/-- Nothing that is found in the noise is a reply to one of these requests. -/
def AnswersNone (requests : List Frame) : Delivery → Prop
  | frame noise _ => ∀ verdict ∈ (idle.run noise).2, ∀ request ∈ requests, ∀ reply,
    ¬ verdict.Answers request.sequence reply
  | pause _ => True

end Delivery

/-- Verdicts that answer none of the numbers in use do not matter. -/
theorem relevant_verdicts_eq_nil {used : List UInt16} {verdicts : List Verdict}
    (h : ∀ verdict ∈ verdicts, ∀ sequence ∈ used, verdict.reply? sequence = none) :
    relevant used (verdicts.map .verdict) = [] := by
  refine List.filter_eq_nil_iff.mpr fun prospect hprospect => ?_
  obtain ⟨verdict, hverdict, rfl⟩ := List.mem_map.mp hprospect
  rw [Prospect.concerns, List.any_eq_true]
  rintro ⟨sequence, hsequence, hsome⟩
  rw [h verdict hverdict sequence hsequence] at hsome
  cases hsome

/-- A frame that a start byte breaks off is no reply. -/
theorem reply?_of_mem_strays {state : DecoderState} {verdict : Verdict}
    (h : verdict ∈ state.strays) (sequence : UInt16) : verdict.reply? sequence = none := by
  cases state with
  | idle => cases h
  | within part escaped buffer =>
    rw [List.mem_singleton.mp h]
    rfl

/-- Neither what is found in the noise matters, nor that the next start byte ends it. -/
theorem relevant_noise_eq_nil {requests : List Frame} {noise : Bytes} {f : Frame}
    (h : (Delivery.frame noise f).AnswersNone requests) :
    relevant (requests.map Frame.sequence)
      (((idle.run noise).2 ++ (idle.run noise).1.strays).map .verdict) = [] := by
  refine relevant_verdicts_eq_nil fun verdict hverdict sequence hsequence => ?_
  obtain ⟨request, hrequest, rfl⟩ := List.mem_map.mp hsequence
  rcases List.mem_append.mp hverdict with hfound | hstray
  · exact Verdict.reply?_eq_none_iff.mpr (h verdict hfound request hrequest)
  · exact reply?_of_mem_strays hstray _

/-- **Of the noise nothing is met that matters**, and the decoder is ready for the next frame behind
each of them. -/
theorem relevant_prospects_noisy {requests : List Frame} {deliveries : List Delivery}
    (hframes : ∀ delivery ∈ deliveries, delivery.IsConsistent)
    (hnoise : ∀ delivery ∈ deliveries, delivery.AnswersNone requests) :
    relevant (requests.map Frame.sequence) (idle.prospects (deliveries.flatMap Delivery.noisy))
      = relevant (requests.map Frame.sequence)
          (idle.prospects (deliveries.flatMap Delivery.clear)) := by
  induction deliveries with
  | nil => rfl
  | cons delivery deliveries ih =>
    have hrest := ih (fun other hother => hframes other (List.mem_cons_of_mem delivery hother))
      (fun other hother => hnoise other (List.mem_cons_of_mem delivery hother))
    have hf := hframes delivery List.mem_cons_self
    have hz := hnoise delivery List.mem_cons_self
    rw [List.flatMap_cons, List.flatMap_cons]
    cases delivery with
    | pause kind =>
      show Prospect.pause kind :: _ = Prospect.pause kind :: _
      exact congrArg _ hrest
    | frame noise f =>
      -- With noise the frame is read from the state in which the noise leaves the decoder, and what
      -- it settles is then the broken frame, if there is one, and the frame itself.
      rw [Delivery.noisy, Delivery.clear, prospects_bytes, prospects_bytes, run_append,
        Frame.Consistent.run_encode hf, Frame.Consistent.run_encode hf]
      dsimp only
      rw [← List.append_assoc, List.map_append, List.append_assoc, relevant_append,
        relevant_noise_eq_nil hz, relevant_append, relevant_append, hrest]
      rfl

/-! ## With and without noise -/

/--
**Noise in front of frames does not change what an operation does.**

A device with its decoder outside a frame is asked the same on two links: one brings frames and
pauses, the other the same with any bytes directly in front of the start bytes of the frames. If no
acknowledgement that is found in these bytes echoes the number of a request of the operation, the
operation ends the same way and at the same time, sends the same bytes, leaves the same files, and
has reported the same to the observer and asked as often.
-/
theorem perform_noisy {op : Operation} {s : Session} {incoming : List Arrival}
    {deliveries : List Delivery} (hidle : s.decoder.state = .idle)
    (hclear : signals s.incoming = deliveries.flatMap Delivery.clear)
    (hnoisy : signals incoming = deliveries.flatMap Delivery.noisy)
    (hframes : ∀ delivery ∈ deliveries, delivery.IsConsistent)
    (hnoise : ∀ delivery ∈ deliveries,
      delivery.AnswersNone (issuedRequests (s.stretch (op.perform s).2))) :
    let noisy : Session := { s with incoming := incoming }
    (op.perform noisy).1 = (op.perform s).1 ∧
      (op.perform noisy).2.clock = (op.perform s).2.clock ∧
      sentBytes (op.perform noisy).2.history = sentBytes (op.perform s).2.history ∧
      (op.perform noisy).2.storage = (op.perform s).2.storage ∧
      (op.perform noisy).2.observer = (op.perform s).2.observer := by
  intro noisy
  -- The numbers in use are those of the run without noise: that the other run sends the same
  -- requests is not known before.
  let requests := issuedRequests (s.stretch (op.perform s).2)
  have hsteady : Steady (requests.map Frame.sequence) op.perform := op.composed.steady
  have halike : s.Alike (requests.map Frame.sequence) noisy :=
    { clock := rfl
      outgoing := rfl
      storage := rfl
      settings := rfl
      nextSequence := rfl
      observer := rfl
      sent := rfl
      prospects := by
        rw [Session.prospects, Session.prospects, hclear]
        show relevant _ (_ ++ s.decoder.state.prospects (signals incoming)) = _
        rw [hnoisy, hidle, relevant_append, relevant_append,
          relevant_prospects_noisy hframes hnoise] }
  have huses : s.Uses (op.perform s).2 (requests.map Frame.sequence) :=
    fun request hrequest => List.mem_map_of_mem hrequest
  obtain ⟨hresult, hagain⟩ := hsteady.agrees halike huses
  exact ⟨hresult, hagain.clock, hagain.sent, hagain.storage, hagain.observer⟩

/-- An answer to a request of long ago, and a header that breaks off. -/
def staleNoise : Bytes := (Frame.reply 77 .ack 65000 [1, 2, 3]).encode ++ [9, startByte, 10]

/-- A header that announces the longest payload, some of that, and half of an escape pair. -/
def brokenNoise : Bytes := [startByte, 255, 255, 1, 78, 0, 0xA0, 5, 6, 1, 0, 9, escapeByte]

/-- A record in two pieces, with noise in front of its selection and of its first piece. -/
def noisyTransfer : List Delivery :=
  [.frame staleNoise (.reply 1 .ack 0 []), .pause (.silence 20),
    .frame brokenNoise (.reply 2 .ack 1 [50, 65, 66]),
    .frame [] (.reply 3 .ack 2 [200, 67, endOfContent])]

/-- The same, as it arrives. -/
def noisyArrivals : List Arrival :=
  [.data staleNoise, .data (Frame.reply 1 .ack 0 []).encode, .silence 20,
    .data (brokenNoise ++ (Frame.reply 2 .ack 1 [50, 65, 66]).encode),
    .data (Frame.reply 3 .ack 2 [200, 67, endOfContent]).encode]

theorem download_among_noise :
    ∃ s', (Operation.download flightInAugust "record.igc").perform
        { sessionWithWholeTransfer with incoming := noisyArrivals } = (.done (.ok ()), s') ∧
      s'.storage.content? "record.igc" = some [65, 66, 67] ∧ s'.clock = 20 := by
  let op := Operation.download flightInAugust "record.igc"
  let calm := op.perform sessionWithWholeTransfer
  have hresult : ((download flightInAugust "record.igc").perform sessionWithWholeTransfer).1
      = .ok () := by decide +kernel
  have hcontent : calm.2.storage.content? "record.igc" = some [65, 66, 67] := by decide +kernel
  have hclock : calm.2.clock = 20 := by decide +kernel
  have hrequests : issuedRequests (sessionWithWholeTransfer.stretch calm.2)
      = [.build 0 .selectRecord [4], .build 1 .getIgcData [], .build 2 .getIgcData []] := by
    decide +kernel
  have hframes : ∀ delivery ∈ noisyTransfer, delivery.IsConsistent := by
    intro delivery hdelivery
    simp only [noisyTransfer, List.mem_cons, List.not_mem_nil, or_false] at hdelivery
    rcases hdelivery with rfl | rfl | rfl | rfl
    · exact Frame.consistent_build _ _ (by decide)
    · trivial
    · exact Frame.consistent_build _ _ (by decide)
    · exact Frame.consistent_build _ _ (by decide)
  have hnone : ∀ noise ∈ [staleNoise, brokenNoise, []], ∀ f,
      (Delivery.frame noise f).AnswersNone
        (issuedRequests (sessionWithWholeTransfer.stretch calm.2)) := by
    have hall : ∀ noise ∈ [staleNoise, brokenNoise, []], ∀ verdict ∈ (idle.run noise).2,
        ∀ request ∈ [Frame.build 0 .selectRecord [4], .build 1 .getIgcData [],
          .build 2 .getIgcData []], verdict.reply? request.sequence = none := by decide +kernel
    rw [hrequests]
    exact fun noise hnoise _ verdict hverdict request hrequest =>
      Verdict.reply?_eq_none_iff.mp (hall noise hnoise verdict hverdict request hrequest)
  have hnoise : ∀ delivery ∈ noisyTransfer,
      delivery.AnswersNone (issuedRequests (sessionWithWholeTransfer.stretch calm.2)) := by
    intro delivery hdelivery
    simp only [noisyTransfer, List.mem_cons, List.not_mem_nil, or_false] at hdelivery
    rcases hdelivery with rfl | rfl | rfl | rfl
    · exact hnone staleNoise (by simp) _
    · trivial
    · exact hnone brokenNoise (by simp) _
    · exact hnone [] (by simp) _
  obtain ⟨hsame, htime, -, hfiles, -⟩ :=
    @perform_noisy op sessionWithWholeTransfer noisyArrivals noisyTransfer rfl
      (by decide +kernel) (by decide +kernel) hframes hnoise
  refine ⟨_, Prod.ext (hsame.trans (congrArg Outcome.done hresult)) rfl, ?_, htime.trans hclock⟩
  rw [hfiles]
  exact hcontent

end FlightRecorder
