import FlightRecorder.Device.Download
import FlightRecorder.Proofs.Device.Asking
import FlightRecorder.Proofs.Storage.Content
import FlightRecorder.Proofs.Wire.RoundTrip

/-!
# A transfer that is answered

A device that answers every request for content in time, piece by piece up to one with the end mark,
has its record downloaded: the file holds the pieces and nothing else, every piece was asked for
once, and every piece moved the position.

* `Piece`, `pieceFrames` — the pieces of a record and the frames that carry them
* `ArriveInTime` — frames on a link, one behind the other, each soon enough
* `Session.Fetched` — some pieces were asked for and received
* `perform_nextChunk_of_upcoming` — one piece
* `transferFrom_of_answered` — all pieces
* `downloadSelected_of_answered` — the file
-/

namespace FlightRecorder

open DecoderState

/-! ## Pieces of a record -/

/-- A piece of a record as a device sends it. -/
structure Piece where
  /-- The device's own number of the frame. -/
  own : UInt16
  progress : UInt8
  data : Bytes
  deriving DecidableEq, Repr

namespace Piece

/-- The mark behind the last piece. -/
def mark (final : Bool) : Bytes := if final then [endOfContent] else []

/-- The answer to a request for this piece. -/
def frame (p : Piece) (request : UInt16) (final : Bool) : Frame :=
  .reply p.own .ack request (p.progress :: (p.data ++ mark final))

/-- The position that the piece moves a transfer to. -/
def position (p : Piece) : Nat := min p.progress.toNat fullProgress

/-- The piece fits a frame, and is not mistaken for a last one or for no piece if it is none. -/
structure Fits (p : Piece) (final : Bool) : Prop where
  length_le : (p.frame 0 final).payload.length ≤ maxPayloadSize
  inner : final = false → p.data ≠ [] ∧ p.data.getLast? ≠ some endOfContent

theorem payload_frame (p : Piece) (request : UInt16) (final : Bool) :
    (p.frame request final).payload
      = littleEndian request ++ p.progress :: (p.data ++ mark final) := rfl

theorem consistent_frame {p : Piece} {final : Bool} (h : p.Fits final) (request : UInt16) :
    (p.frame request final).Consistent :=
  Frame.consistent_build _ _ h.length_le

theorem reply?_frame (p : Piece) (request : UInt16) (final : Bool) :
    (Verdict.accepted (p.frame request final)).reply? request
      = some { type := .ack, payload := (p.frame request final).payload } :=
  Verdict.reply?_eq_some_iff.mpr ⟨_, _, rfl, Or.inl rfl, p.payload_frame request final, rfl⟩

/-- **The chunk in the frame of a piece is the piece**, with its mark taken off. -/
theorem chunk_frame {p : Piece} {final : Bool} (h : p.Fits final) (request : UInt16) :
    Chunk.ofPayload (p.frame request final).payload
      = .ok { progress := p.position, data := p.data, isLast := final } := by
  rw [payload_frame, Chunk.ofPayload]
  have hcontent : (littleEndian request ++ p.progress :: (p.data ++ mark final)).drop contentOffset
      = p.data ++ mark final := rfl
  have hprogress : (littleEndian request ++ p.progress :: (p.data ++ mark final)).getD
      progressOffset 0 = p.progress := rfl
  rw [hcontent, hprogress]
  cases final with
  | true =>
    have hlong : ¬ (littleEndian request ++ p.progress :: (p.data ++ mark true)).length
        < minChunkSize := by
      simp [littleEndian, mark, minChunkSize]
    rw [if_neg hlong]
    simp [mark, position]
  | false =>
    -- Without the mark one byte of data is needed for the payload to be long enough.
    obtain ⟨hne, hlast⟩ := h.inner rfl
    have hpos := List.length_pos_iff.mpr hne
    have hlong : ¬ (littleEndian request ++ p.progress :: (p.data ++ mark false)).length
        < minChunkSize := by
      simp [littleEndian, mark, minChunkSize]
      omega
    rw [if_neg hlong]
    simp [mark, position, hlast]

end Piece

/-- The answers to as many requests as there are pieces, the first of which is number `request`. -/
def pieceFrames (request : UInt16) : List Piece → Piece → List Frame
  | [], last => [last.frame request true]
  | p :: inner, last => p.frame request false :: pieceFrames (request + 1) inner last

theorem consistent_of_mem_pieceFrames {inner : List Piece} {last : Piece}
    (hinner : ∀ p ∈ inner, p.Fits false) (hlast : last.Fits true) {request : UInt16} {f : Frame}
    (h : f ∈ pieceFrames request inner last) : f.Consistent := by
  induction inner generalizing request with
  | nil =>
    rw [List.mem_singleton.mp h]
    exact Piece.consistent_frame hlast request
  | cons p inner ih =>
    rcases List.mem_cons.mp h with rfl | h
    · exact Piece.consistent_frame (hinner p List.mem_cons_self) request
    · exact ih (fun q hq => hinner q (List.mem_cons_of_mem p hq)) h

/-! ## Frames that come in time -/

/-- Frames come one behind the other, each of them whole at most `timeout` behind the one before. -/
def ArriveInTime (timeout : Nat) : Nat → List Frame → List (UInt8 × Nat) → Prop
  | _, [], _ => True
  | now, f :: frames, stream =>
    ∃ front byte moment rest, stream = front ++ (byte, moment) :: rest ∧
      front.map Prod.fst ++ [byte] = f.encode ∧ moment ≤ now + timeout ∧
      ArriveInTime timeout moment frames rest

/-- Frames are found one behind the other, each of them at most `timeout` behind the one before, and
nothing else is found that answers the request for it. -/
def AnsweredInTime (timeout : Nat) : Nat → UInt16 → List Frame → List (Verdict × Nat) → Prop
  | _, _, [], _ => True
  | now, request, f :: frames, found =>
    ∃ skipped moment rest, found = skipped ++ (.accepted f, moment) :: rest ∧
      (∀ item ∈ skipped, item.1.reply? request = none) ∧ moment ≤ now + timeout ∧
      AnsweredInTime timeout moment (request + 1) frames rest

/-- An encoded frame is found at the moment of its last byte, and no reply is found before it. -/
theorem DecoderState.runTimed_encode {f : Frame} (h : f.Consistent) (state : DecoderState)
    {front : List (UInt8 × Nat)} {byte : UInt8} (hbytes : front.map Prod.fst ++ [byte] = f.encode)
    (moment : Nat) (rest : List (UInt8 × Nat)) :
    ∃ skipped, state.runTimed (front ++ (byte, moment) :: rest)
        = skipped ++ (.accepted f, moment) :: idle.runTimed rest ∧
      ∀ item ∈ skipped, ∀ request, item.1.reply? request = none := by
  obtain ⟨front', last, hencode, hrun⟩ := h.exists_last
  obtain ⟨middle, hfront, hlast⟩ := hrun state
  rw [hencode] at hbytes
  obtain ⟨hmap, hbyte⟩ := List.append_inj' hbytes rfl
  cases hbyte
  refine ⟨state.runTimed front, ?_, fun item hitem request => ?_⟩
  · rw [runTimed_append, hmap, hfront, runTimed, hlast]
    rfl
  · -- Before the last byte there is at most the fault of a frame that was open.
    have hfound : item.1 ∈ (state.runTimed front).map Prod.fst := List.mem_map_of_mem hitem
    rw [map_fst_runTimed, hmap, hfront] at hfound
    cases state with
    | idle => cases hfound
    | within part escaped buffer =>
      rw [List.mem_singleton.mp hfound]
      rfl

/-- **Frames that come in time are found in time**, from whatever state the decoder reads them. -/
theorem answeredInTime_of_arriveInTime {timeout now : Nat} {request : UInt16} {frames : List Frame}
    {stream : List (UInt8 × Nat)} {stale : List (Verdict × Nat)} (state : DecoderState)
    (hframes : ∀ f ∈ frames, f.Consistent) (harrive : ArriveInTime timeout now frames stream)
    (hstale : ∀ item ∈ stale, item.1.reply? request = none) :
    AnsweredInTime timeout now request frames (stale ++ state.runTimed stream) := by
  induction frames generalizing now request stream stale state with
  | nil => trivial
  | cons f frames ih =>
    obtain ⟨front, byte, moment, rest, rfl, hbytes, hmoment, hrest⟩ := harrive
    obtain ⟨skipped, hfound, hskipped⟩ :=
      runTimed_encode (hframes f List.mem_cons_self) state hbytes moment rest
    refine ⟨stale ++ skipped, moment, idle.runTimed rest, ?_, fun item hitem => ?_, hmoment, ?_⟩
    · rw [hfound, List.append_assoc]
    · rcases List.mem_append.mp hitem with hitem | hitem
      · exact hstale item hitem
      · exact hskipped item hitem request
    · have hnone : ∀ item ∈ ([] : List (Verdict × Nat)), item.1.reply? (request + 1) = none :=
        fun item hitem => by cases hitem
      exact ih idle (fun g hg => hframes g (List.mem_cons_of_mem f hg)) hrest hnone

/-! ## Requests for content -/

/-- So many requests for content, the first of which is number `sequence`. -/
def contentRequests (sequence : UInt16) : Nat → List Frame
  | 0 => []
  | count + 1 => .build sequence .getIgcData [] :: contentRequests (sequence + 1) count

/-- The bytes of these requests. -/
def contentRequestBytes (sequence : UInt16) (count : Nat) : Bytes :=
  (contentRequests sequence count).flatMap Frame.encode

theorem contentRequestBytes_succ (sequence : UInt16) (count : Nat) :
    contentRequestBytes sequence (count + 1)
      = (Frame.build sequence .getIgcData []).encode ++ contentRequestBytes (sequence + 1) count :=
  rfl

theorem contentRequestBytes_one (sequence : UInt16) :
    contentRequestBytes sequence 1 = (Frame.build sequence .getIgcData []).encode :=
  List.append_nil _

theorem Outgoing.Takes.contentRequest {o : Outgoing} {sequence : UInt16} {count : Nat}
    (h : o.Takes (contentRequestBytes sequence (count + 1)).length) :
    o.Takes (Frame.build sequence .getIgcData []).encode.length ∧
      (o.after (Frame.build sequence .getIgcData []).encode.length).Takes
        (contentRequestBytes (sequence + 1) count).length := by
  rw [contentRequestBytes_succ, List.length_append] at h
  exact ⟨h.mono (Nat.le_add_right _ _), h.after⟩

/-- Pieces were asked for and received one by one, and each moved the position. -/
structure Session.Fetched (s s' : Session) (pieces : List Piece) : Prop where
  outgoing : s'.outgoing
    = s.outgoing.after (contentRequestBytes s.nextSequence pieces.length).length
  settings : s'.settings = s.settings
  nextSequence : s'.nextSequence = s.nextSequence + UInt16.ofNat pieces.length
  cancels : s'.observer.cancels = s.observer.cancels
  ranges : s'.observer.ranges = s.observer.ranges
  positions : s'.observer.positions = s.observer.positions ++ pieces.map Piece.position
  sent : sentBytes s'.history
    = sentBytes s.history ++ contentRequestBytes s.nextSequence pieces.length
  issued : issuedRequests s'.history
    = issuedRequests s.history ++ contentRequests s.nextSequence pieces.length

theorem Session.Fetched.cons {s s' s'' : Session} {p : Piece} {pieces : List Piece}
    (h : s.Fetched s' [p]) (h' : s'.Fetched s'' pieces) : s.Fetched s'' (p :: pieces) := by
  have hnext : s'.nextSequence = s.nextSequence + 1 := h.nextSequence
  have hbytes : contentRequestBytes s.nextSequence (p :: pieces).length
      = contentRequestBytes s.nextSequence [p].length
        ++ contentRequestBytes s'.nextSequence pieces.length := by
    rw [List.length_cons, contentRequestBytes_succ, hnext, List.length_singleton,
      contentRequestBytes_one]
  refine ⟨?_, h'.settings.trans h.settings, ?_, h'.cancels.trans h.cancels,
    h'.ranges.trans h.ranges, ?_, ?_, ?_⟩
  · rw [h'.outgoing, h.outgoing, Outgoing.after_after, hbytes, List.length_append]
  · rw [h'.nextSequence, hnext, List.length_cons, UInt16.ofNat_add, UInt16.add_assoc,
      UInt16.add_comm 1]
    rfl
  · rw [h'.positions, h.positions, List.append_assoc]
    rfl
  · rw [h'.sent, h.sent, hbytes, List.append_assoc]
  · rw [h'.issued, h.issued, hnext, List.append_assoc]
    rfl

/-- Writing to a file does not reach the link. -/
theorem Session.Fetched.saving {s s' : Session} {pieces : List Piece} (h : s.Fetched s' pieces)
    (w : FileWriter) : s.Fetched (s'.saving w) pieces :=
  ⟨h.outgoing, h.settings, h.nextSequence, h.cancels, h.ranges, h.positions, h.sent, h.issued⟩

/-! ## Pieces one by one -/

/-- The observer never stops an operation. -/
def Observer.Patient (o : Observer) : Prop := ∀ polls positions, o.cancels polls positions = false

/-- The session behind a question to an observer who goes on. -/
def Session.polled (s : Session) : Session :=
  { s with observer := { s.observer with polls := s.observer.polls + 1 } }.note (.polled false)

theorem perform_poll_of_patient {s : Session} (h : s.observer.Patient) :
    poll.perform s = (.ok (), s.polled) := by
  rw [poll, Action.perform_ofPerform]
  simp only [h (s.observer.polls + 1) s.observer.positions, Bool.false_eq_true, if_false]
  rfl

theorem Session.sentBytes_polled (s : Session) :
    sentBytes s.polled.history = sentBytes s.history := sentBytes_note rfl

theorem Session.issuedRequests_polled (s : Session) :
    issuedRequests s.polled.history = issuedRequests s.history := issuedRequests_note rfl

/-- The session behind the report of a position to an observer who goes on. -/
def Session.advanced (s : Session) (position : Nat) : Session :=
  let observer := s.polled.observer
  { s.polled with observer := { observer with positions := observer.positions ++ [position] } }.note
    (.positionReported position)

/-- A request for content whose answer moves the position is the fetching of one piece. -/
theorem Session.Asked.fetched {s asked : Session} (p : Piece)
    (h : s.polled.Asked asked (.build s.nextSequence .getIgcData [])) :
    s.Fetched (asked.advanced p.position) [p] where
  outgoing := by
    rw [List.length_singleton, contentRequestBytes_one]
    exact h.outgoing
  settings := h.settings
  nextSequence := h.nextSequence
  cancels := by
    have hcancels := congrArg Observer.cancels h.observer
    exact hcancels
  ranges := by
    have hranges := congrArg Observer.ranges h.observer
    exact hranges
  positions := by
    have hpositions := congrArg Observer.positions h.observer
    exact congrArg (· ++ [p.position]) hpositions
  sent := by
    rw [advanced, sentBytes_note rfl, List.length_singleton, contentRequestBytes_one,
      ← s.sentBytes_polled, ← h.sent]
    exact asked.sentBytes_polled
  issued := by
    rw [advanced, issuedRequests_note rfl, ← s.issuedRequests_polled]
    exact asked.issuedRequests_polled.trans h.issued

/-- **A piece that is there in time is received.** -/
theorem perform_nextChunk_of_upcoming {s : Session} {p : Piece} {final : Bool} {moment : Nat}
    {skipped rest : List (Verdict × Nat)}
    (hlink : s.outgoing.Takes (Frame.build s.nextSequence .getIgcData []).encode.length)
    (hpatient : s.observer.Patient) (hp : p.Fits final)
    (hup : s.upcoming = skipped ++ (.accepted (p.frame s.nextSequence final), moment) :: rest)
    (hskipped : ∀ item ∈ skipped, item.1.reply? s.nextSequence = none)
    (hmoment : moment ≤ s.clock + s.settings.dataTimeout) :
    ∃ s', nextChunk.perform s
        = (.ok { progress := p.position, data := p.data, isLast := final }, s') ∧
      s.Fetched s' [p] ∧ s'.storage = s.storage ∧ s'.clock = moment ∧ s'.upcoming = rest := by
  let answer := p.frame s.nextSequence final
  obtain ⟨asked, hperform, hasked, hclock, hrest⟩ :
      ∃ asked, (exchange .getIgcData [] (·.dataTimeout)).perform s.polled
          = (.ok { type := .ack, payload := answer.payload }, asked) ∧
        s.polled.Asked asked (.build s.nextSequence .getIgcData []) ∧ asked.clock = moment ∧
        asked.upcoming = rest :=
    perform_exchange_of_upcoming hlink hup hskipped (p.reply?_frame s.nextSequence final) hmoment
  have hasks : asked.observer.Patient := by
    rw [hasked.observer]
    exact hpatient
  have hchunk : Reply.chunk { type := .ack, payload := answer.payload }
      = .ok { progress := p.position, data := p.data, isLast := final } := by
    rw [Reply.chunk, if_neg (by simp)]
    exact Piece.chunk_frame hp s.nextSequence
  refine ⟨asked.advanced p.position, ?_, hasked.fetched p, hasked.storage, hclock, hrest⟩
  rw [nextChunk, Action.perform_bind, perform_poll_of_patient hpatient]
  simp only
  rw [Action.perform_bind, hperform]
  simp only
  rw [Action.perform_bind, perform_poll_of_patient hasks]
  simp only [Action.perform_bind, Action.ofResult, Action.perform_ofPerform, hchunk]
  rfl

/-- **A piece that is there in time is appended to the file.** -/
theorem perform_appendChunk_of_upcoming {s : Session} {p : Piece} {final : Bool} {moment : Nat}
    {skipped rest : List (Verdict × Nat)} (w : FileWriter)
    (hlink : s.outgoing.Takes (Frame.build s.nextSequence .getIgcData []).encode.length)
    (hpatient : s.observer.Patient) (hp : p.Fits final)
    (hup : s.upcoming = skipped ++ (.accepted (p.frame s.nextSequence final), moment) :: rest)
    (hskipped : ∀ item ∈ skipped, item.1.reply? s.nextSequence = none)
    (hmoment : moment ≤ s.clock + s.settings.dataTimeout) :
    ∃ s', (appendChunk w).perform s = (.ok (w.append p.data, final), s') ∧ s.Fetched s' [p] ∧
      s'.storage = (w.append p.data).save s.storage ∧ s'.clock = moment ∧ s'.upcoming = rest := by
  obtain ⟨s', hchunk, hfetched, hstorage, hclock, hrest⟩ :=
    perform_nextChunk_of_upcoming hlink hpatient hp hup hskipped hmoment
  refine ⟨s'.saving (w.append p.data), ?_, hfetched.saving _, ?_, hclock, hrest⟩
  · rw [perform_appendChunk, hchunk]
  · rw [Session.saving, hstorage]

/-! ## All pieces -/

theorem transferFrom_eq (w : FileWriter) (s : Session) :
    transferFrom w s =
      match (appendChunk w).perform s with
      | (.error failure, s') => (.error failure, s')
      | (.ok (w', isLast), s') => if isLast then (.ok w', s') else transferFrom w' s' := by
  rw [transferFrom]
  split <;> simp_all

/-- **Pieces that are there in time are all appended to the file**, one behind the other and each of
them once. -/
theorem transferFrom_of_answered {s : Session} {inner : List Piece} {last : Piece} (w : FileWriter)
    (hlink : s.outgoing.Takes (contentRequestBytes s.nextSequence (inner.length + 1)).length)
    (hpatient : s.observer.Patient) (hinner : ∀ p ∈ inner, p.Fits false) (hlast : last.Fits true)
    (hanswered : AnsweredInTime s.settings.dataTimeout s.clock s.nextSequence
      (pieceFrames s.nextSequence inner last) s.upcoming) :
    ∃ s', transferFrom w s = (.ok (w.appendAll ((inner ++ [last]).map Piece.data)), s') ∧
      s.Fetched s' (inner ++ [last]) ∧
      s'.storage = (w.appendAll ((inner ++ [last]).map Piece.data)).save s.storage := by
  -- Between two pieces the session waits at the moment of the last one, with the rest to come.
  induction inner generalizing s w with
  | nil =>
    obtain ⟨skipped, moment, rest, hup, hskipped, hmoment, -⟩ := hanswered
    obtain ⟨s', hchunk, hfetched, hstorage, -, -⟩ := perform_appendChunk_of_upcoming w
      hlink.contentRequest.1 hpatient hlast hup hskipped hmoment
    refine ⟨s', ?_, hfetched, hstorage⟩
    rw [transferFrom_eq, hchunk]
    rfl
  | cons p inner ih =>
    obtain ⟨skipped, moment, rest, hup, hskipped, hmoment, hrest⟩ := hanswered
    obtain ⟨s', hchunk, hfetched, hstorage, hclock, hleft⟩ := perform_appendChunk_of_upcoming w
      hlink.contentRequest.1 hpatient (hinner p List.mem_cons_self) hup hskipped hmoment
    have hnext : s'.nextSequence = s.nextSequence + 1 := hfetched.nextSequence
    have hlink' : s'.outgoing.Takes
        (contentRequestBytes s'.nextSequence (inner.length + 1)).length := by
      rw [hfetched.outgoing, hnext, List.length_singleton, contentRequestBytes_one]
      exact hlink.contentRequest.2
    have hpatient' : s'.observer.Patient := by
      rw [Observer.Patient, hfetched.cancels]
      exact hpatient
    rw [← hclock, ← hfetched.settings, ← hnext, ← hleft] at hrest
    obtain ⟨s'', htransfer, hfetched', hstorage'⟩ := ih (w.append p.data) hlink' hpatient'
      (fun q hq => hinner q (List.mem_cons_of_mem p hq)) hrest
    refine ⟨s'', ?_, hfetched.cons hfetched', ?_⟩
    · rw [transferFrom_eq, hchunk]
      exact htransfer
    · rw [hstorage', hstorage]
      exact FileWriter.save_save (by simp) _

/-! ## The file -/

/-- The session behind the creation of a file and the report of the range. -/
def Session.opened (s : Session) (place : Place) (created : Storage) : Session :=
  let s' := { s with storage := created }.note (.created place)
  { s' with observer := { s'.observer with ranges := s'.observer.ranges ++ [downloadRange] } }.note
    (.rangeReported downloadRange)

theorem Session.sentBytes_opened (s : Session) (place : Place) (created : Storage) :
    sentBytes (s.polled.opened place created).history = sentBytes s.history := by
  rw [opened, sentBytes_note rfl]
  exact (sentBytes_note rfl).trans s.sentBytes_polled

theorem Session.issuedRequests_opened (s : Session) (place : Place) (created : Storage) :
    issuedRequests (s.polled.opened place created).history = issuedRequests s.history := by
  rw [opened, issuedRequests_note rfl]
  exact (issuedRequests_note rfl).trans s.issuedRequests_polled

/-- **A download is the transfer of all pieces** between the creation of the file and the last
writing to it. -/
theorem perform_downloadSelected_of_transferred {s s' : Session} {path : String} {place : Place}
    {created : Storage} {w : FileWriter} (hpatient : s.observer.Patient)
    (hcreate : s.storage.create path = .ok (place, created))
    (htransfer : transferFrom (.start place) (s.polled.opened place created) = (.ok w, s')) :
    (downloadSelected path).perform s = (.ok (), s'.saving w.flush) := by
  have hcreated : (createFile path).perform s.polled
      = (.ok place, { s.polled with storage := created }.note (.created place)) := by
    have hsame : s.polled.storage.create path = .ok (place, created) := hcreate
    rw [createFile, Action.perform_ofPerform]
    simp only [hsame]
  rw [downloadSelected, Action.perform_bind, perform_poll_of_patient hpatient]
  simp only
  rw [Action.perform_bind, hcreated]
  simp only [reportRange, Action.perform_bind, Action.perform_modify, Action.perform_ofPerform]
  rw [Session.opened] at htransfer
  rw [htransfer]

/--
**A record whose pieces come in time is downloaded whole.**

The file holds the data of the pieces and nothing else, whatever was there before, and no other place
of the tree is changed. There is one request for each piece, under consecutive numbers, the range is
reported once, and the position once for each piece. What comes behind the last piece does not
matter.
-/
theorem downloadSelected_of_answered {s : Session} {path : String} {place : Place}
    {created : Storage} {inner : List Piece} {last : Piece}
    (hlink : s.outgoing.Takes (contentRequestBytes s.nextSequence (inner.length + 1)).length)
    (hpatient : s.observer.Patient) (hcreate : s.storage.create path = .ok (place, created))
    (hinner : ∀ p ∈ inner, p.Fits false) (hlast : last.Fits true)
    (hstale : ∀ verdict ∈ s.decoder.ready, ∀ reply, ¬ verdict.Answers s.nextSequence reply)
    (harrive : ArriveInTime s.settings.dataTimeout s.clock (pieceFrames s.nextSequence inner last)
      (timedBytes s.clock s.incoming)) :
    ∃ s', (downloadSelected path).perform s = (.ok (), s') ∧
      s'.storage.content? path = some ((inner ++ [last]).flatMap Piece.data) ∧
      (∀ other, other ≠ place → s'.storage.get? other = s.storage.get? other) ∧
      issuedRequests s'.history
        = issuedRequests s.history ++ contentRequests s.nextSequence (inner.length + 1) ∧
      sentBytes s'.history
        = sentBytes s.history ++ contentRequestBytes s.nextSequence (inner.length + 1) ∧
      s'.nextSequence = s.nextSequence + UInt16.ofNat (inner.length + 1) ∧
      s'.observer.ranges = s.observer.ranges ++ [downloadRange] ∧
      s'.observer.positions = s.observer.positions ++ (inner ++ [last]).map Piece.position := by
  let opened := s.polled.opened place created
  have hready : ∀ item ∈ s.decoder.ready.map (·, s.clock),
      item.1.reply? s.nextSequence = none := by
    intro item hitem
    obtain ⟨verdict, hverdict, rfl⟩ := List.mem_map.mp hitem
    exact Verdict.reply?_eq_none_iff.mpr (hstale verdict hverdict)
  have hanswered : AnsweredInTime opened.settings.dataTimeout opened.clock opened.nextSequence
      (pieceFrames opened.nextSequence inner last) opened.upcoming :=
    answeredInTime_of_arriveInTime s.decoder.state
      (fun _ hf => consistent_of_mem_pieceFrames hinner hlast hf) harrive hready
  have htaken : opened.outgoing.Takes
      (contentRequestBytes opened.nextSequence (inner.length + 1)).length := hlink
  obtain ⟨s', htransfer, hfetched, hsaved⟩ :=
    transferFrom_of_answered (.start place) htaken hpatient hinner hlast hanswered
  obtain ⟨hlocate, rfl⟩ := Storage.create_eq_ok_iff.mp hcreate
  let w := (FileWriter.start place).appendAll ((inner ++ [last]).map Piece.data)
  have hplace : w.place = place := FileWriter.place_appendAll _ _
  have hcontent : w.content = (inner ++ [last]).flatMap Piece.data :=
    FileWriter.content_start_appendAll _ _ _
  -- What was in the file before the last writing does not matter.
  have hstorage : (s'.saving w.flush).storage
      = s.storage.put place (.file ((inner ++ [last]).flatMap Piece.data)) := by
    show w.flush.save s'.storage = _
    rw [hsaved, FileWriter.save_save w.place_flush, FileWriter.save_flush, hcontent, hplace]
    exact Storage.put_put _ _ _ _
  have hcount : (inner ++ [last]).length = inner.length + 1 := by
    rw [List.length_append, List.length_singleton]
  refine ⟨_, perform_downloadSelected_of_transferred hpatient hcreate htransfer, ?_, ?_, ?_, ?_, ?_,
    hfetched.ranges, hfetched.positions⟩
  · rw [hstorage]
    exact Storage.content?_put _ hlocate
  · intro other hother
    rw [hstorage, Storage.get?_put_other _ _ hother]
  · have hissued := hfetched.issued
    rw [hcount, Session.issuedRequests_opened] at hissued
    exact hissued
  · have hsent := hfetched.sent
    rw [hcount, Session.sentBytes_opened] at hsent
    exact hsent
  · have hnext := hfetched.nextSequence
    rw [hcount] at hnext
    exact hnext

/-- A session in the middle of a frame, with an old file in its tree. A record of two pieces is on
its way, cut where no frame ends, and behind it the start of something that nobody asks for. -/
def sessionWithOldRecord : Session where
  clock := 10
  incoming :=
    [.data [0x73, 14, 0, 0, 7], .silence 2000,
      .data [0, 160, 0, 5, 255, 255, 50, 65, 26, 66, 0x73, 14, 0], .silentUntil 4000,
      .data [0, 8, 0, 160, 63, 209, 0, 0, 200, 67, 26, 26, 0x73, 12], .hangup]
  outgoing := { pieceSize := some 3, trouble := some (.failing, 18), taken := 0 }
  storage := Storage.empty.put ["record.igc"] (.file [1, 2, 3])
  settings := .standard
  decoder := { state := .within .header true #[9], ready := [.refused .strayStart] }
  nextSequence := 65535
  observer := .patient
  journal := []

theorem downloadSelected_over_old_record :
    ∃ s', (downloadSelected "record.igc").perform sessionWithOldRecord = (.ok (), s') ∧
      s'.storage.content? "record.igc" = some [65, 26, 66, 67, 26] ∧ s'.nextSequence = 1 ∧
      s'.observer.ranges = [100] ∧ s'.observer.positions = [50, 100] := by
  let first : Piece := { own := 7, progress := 50, data := [65, 26, 66] }
  let last : Piece := { own := 8, progress := 200, data := [67, 26] }
  have hlink : sessionWithOldRecord.outgoing.Takes
      (contentRequestBytes sessionWithOldRecord.nextSequence ([first].length + 1)).length := by
    have hlength : (contentRequestBytes sessionWithOldRecord.nextSequence
        ([first].length + 1)).length = 18 := by decide +kernel
    rw [hlength]
    exact ⟨by decide, Nat.le_refl 18⟩
  have hnames : Storage.pathNames "record.igc" = ["record.igc"] := by decide +kernel
  have hlocate : sessionWithOldRecord.storage.locate "record.igc" = .ok ["record.igc"] := by
    refine Storage.locate_eq_ok_iff.mpr ⟨by decide, by decide +kernel, "record.igc", [], ?_,
      by decide, ?_, by decide +kernel, rfl⟩
    · rw [hnames]
      rfl
    · rw [hnames, Storage.origin, if_neg (by decide +kernel)]
      rfl
  have hcreate := Storage.create_eq_ok_iff.mpr ⟨hlocate, rfl⟩
  have hinner : ∀ p ∈ [first], p.Fits false := by
    intro p hp
    rw [List.mem_singleton.mp hp]
    exact ⟨by decide, fun _ => by decide⟩
  have hlast : last.Fits true := ⟨by decide, fun h => by cases h⟩
  have hstale : ∀ verdict ∈ sessionWithOldRecord.decoder.ready, ∀ reply,
      ¬ verdict.Answers sessionWithOldRecord.nextSequence reply := by
    intro verdict hverdict
    rw [← Verdict.reply?_eq_none_iff, List.mem_singleton.mp hverdict]
    rfl
  have harrive : ArriveInTime sessionWithOldRecord.settings.dataTimeout sessionWithOldRecord.clock
      (pieceFrames sessionWithOldRecord.nextSequence [first] last)
      (timedBytes sessionWithOldRecord.clock sessionWithOldRecord.incoming) := by
    refine ⟨[0x73, 14, 0, 0, 7].map (·, 10) ++ [0, 160, 0, 5, 255, 255, 50, 65, 26].map (·, 2010),
      66, 2010, [0x73, 14, 0].map (·, 2010)
        ++ [0, 8, 0, 160, 63, 209, 0, 0, 200, 67, 26, 26, 0x73, 12].map (·, 4000),
      by decide +kernel, by decide +kernel, by decide, ?_⟩
    exact ⟨[0x73, 14, 0].map (·, 2010) ++ [0, 8, 0, 160, 63, 209, 0, 0, 200, 67, 26].map (·, 4000),
      26, 4000, [0x73, 12].map (·, 4000), by decide +kernel, by decide +kernel, by decide, trivial⟩
  obtain ⟨s', hperform, hcontent, -, -, -, hnext, hranges, hpositions⟩ :=
    downloadSelected_of_answered hlink (fun _ _ => rfl) hcreate hinner hlast hstale harrive
  exact ⟨s', hperform, hcontent, hnext.trans (by decide), hranges, hpositions⟩

end FlightRecorder
