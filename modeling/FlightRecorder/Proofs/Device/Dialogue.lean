import FlightRecorder.Proofs.Device.Transfer

/-!
# A dialogue with a device that answers

A dialogue is a list of turns: a request, and the acknowledgement with which the device answers it.
The requests have consecutive numbers, and each answer names the number of its request. A session
that expects the answers of a dialogue gets through it turn by turn: after each exchange it expects
those that are left.

* `Turn` — a request and its answer
* `Session.Expects` — the link takes all requests, and each answer is there in time
* `Session.Prepared` — besides, the observer is patient
* `Session.Discussed` — some turns were taken, with nothing else sent, and the tree of files was left
  alone
* `perform_exchange_of_expects` — one turn
* `Session.Expects.of_arriveInTime` — which frames on a link are answers in time
-/

namespace FlightRecorder

/-! ## Turns -/

/-- A request and the acknowledgement that answers it. -/
structure Turn where
  type : MessageType
  payload : Bytes
  /-- The device's own number of the answer. -/
  own : UInt16
  accepted : Bool
  /-- What the answer carries behind the number of the request. -/
  data : Bytes
  deriving DecidableEq, Repr

namespace Turn

/-- The type of the answer. -/
def answerType (t : Turn) : MessageType := if t.accepted then .ack else .nack

/-- The request, as number `sequence`. -/
def request (t : Turn) (sequence : UInt16) : Frame := .build sequence t.type t.payload

/-- The frame that answers request `sequence`. -/
def answer (t : Turn) (sequence : UInt16) : Frame := .reply t.own t.answerType sequence t.data

/-- The answer, as it is received. -/
def reply (t : Turn) (sequence : UInt16) : Reply :=
  { type := t.answerType, payload := littleEndian sequence ++ t.data }

/-- The answer fits a frame. -/
def Fits (t : Turn) : Prop := acknowledgedSize + t.data.length ≤ maxPayloadSize

instance (t : Turn) : Decidable t.Fits :=
  inferInstanceAs (Decidable (acknowledgedSize + t.data.length ≤ maxPayloadSize))

theorem consistent_answer {t : Turn} (h : t.Fits) (sequence : UInt16) :
    (t.answer sequence).Consistent := by
  refine Frame.consistent_build _ _ ?_
  rw [List.length_append]
  exact h

theorem messageType_answer (t : Turn) (sequence : UInt16) :
    (t.answer sequence).messageType = t.answerType := by
  unfold answer answerType
  cases t.accepted <;> rfl

theorem reply?_answer (t : Turn) (sequence : UInt16) :
    (Verdict.accepted (t.answer sequence)).reply? sequence = some (t.reply sequence) := by
  refine Verdict.reply?_eq_some_iff.mpr ⟨_, t.data, rfl, ?_, rfl, ?_⟩
  · rw [messageType_answer, answerType]
    cases t.accepted with
    | true => exact .inl rfl
    | false => exact .inr rfl
  · rw [messageType_answer]
    rfl

end Turn

/-- The requests of a dialogue, the first of which is number `sequence`. -/
def requestsOf (sequence : UInt16) : List Turn → List Frame
  | [] => []
  | t :: turns => t.request sequence :: requestsOf (sequence + 1) turns

/-- The answers to them. -/
def answersOf (sequence : UInt16) : List Turn → List Frame
  | [] => []
  | t :: turns => t.answer sequence :: answersOf (sequence + 1) turns

/-- The bytes of the requests. -/
def requestBytes (sequence : UInt16) (turns : List Turn) : Bytes :=
  (requestsOf sequence turns).flatMap Frame.encode

theorem requestsOf_append (sequence : UInt16) (turns turns' : List Turn) :
    requestsOf sequence (turns ++ turns')
      = requestsOf sequence turns ++ requestsOf (sequence + UInt16.ofNat turns.length) turns' := by
  induction turns generalizing sequence with
  | nil => simp [requestsOf]
  | cons t turns ih =>
    rw [List.cons_append, requestsOf, ih, List.length_cons, UInt16.ofNat_add, UInt16.add_assoc,
      UInt16.add_comm 1]
    rfl

theorem requestBytes_append (sequence : UInt16) (turns turns' : List Turn) :
    requestBytes sequence (turns ++ turns')
      = requestBytes sequence turns
        ++ requestBytes (sequence + UInt16.ofNat turns.length) turns' := by
  rw [requestBytes, requestsOf_append, List.flatMap_append]
  rfl

theorem consistent_of_mem_answersOf {turns : List Turn} (hfits : ∀ t ∈ turns, t.Fits)
    {sequence : UInt16} {f : Frame} (h : f ∈ answersOf sequence turns) : f.Consistent := by
  induction turns generalizing sequence with
  | nil => cases h
  | cons t turns ih =>
    rcases List.mem_cons.mp h with rfl | h
    · exact t.consistent_answer (hfits t List.mem_cons_self) sequence
    · exact ih (fun u hu => hfits u (List.mem_cons_of_mem t hu)) h

theorem Outgoing.Takes.turn {o : Outgoing} {sequence : UInt16} {t : Turn} {turns : List Turn}
    (h : o.Takes (requestBytes sequence (t :: turns)).length) :
    o.Takes (t.request sequence).encode.length ∧
      (o.after (t.request sequence).encode.length).Takes
        (requestBytes (sequence + 1) turns).length := by
  rw [requestBytes, requestsOf, List.flatMap_cons, List.length_append] at h
  exact ⟨h.mono (Nat.le_add_right _ _), h.after⟩

/-! ## Answers one by one -/

/-- A link that brings frames one by one, each behind a silence. -/
def oneByOne (frames : List (Nat × Frame)) : List Arrival :=
  frames.flatMap fun item => [.silence item.1, .data item.2.encode]

theorem arriveInTime_oneByOne {timeout now : Nat} {frames : List (Nat × Frame)}
    (h : ∀ item ∈ frames, item.1 ≤ timeout) :
    ArriveInTime timeout now (frames.map Prod.snd) (timedBytes now (oneByOne frames)) := by
  induction frames generalizing now with
  | nil => trivial
  | cons item frames ih =>
    have hne : item.2.encode ≠ [] := List.cons_ne_nil _ _
    have hlast := List.dropLast_concat_getLast hne
    refine ⟨item.2.encode.dropLast.map (·, now + item.1), item.2.encode.getLast hne, now + item.1,
      timedBytes (now + item.1) (oneByOne frames), ?_, ?_,
      Nat.add_le_add_left (h item List.mem_cons_self) now,
      ih fun other hother => h other (List.mem_cons_of_mem item hother)⟩
    · rw [List.append_cons, ← List.map_singleton (f := (·, now + item.1)), ← List.map_append, hlast]
      rfl
    · rw [List.map_map]
      exact (congrArg (· ++ _) (List.map_id _)).trans hlast

/-! ## Prepared for a dialogue -/

/-- The link takes all requests of a dialogue, and each answer is there in time. -/
structure Session.Expects (s : Session) (turns : List Turn) : Prop where
  link : s.outgoing.Takes (requestBytes s.nextSequence turns).length
  answered : AnsweredInTime s.settings.controlTimeout s.clock s.nextSequence
    (answersOf s.nextSequence turns) s.upcoming

/-- Besides, the observer lets the dialogue go on. -/
structure Session.Prepared (s : Session) (turns : List Turn) : Prop extends s.Expects turns where
  patient : s.observer.Patient

/-- Some turns were taken, and besides nothing was done but listening and reporting. -/
structure Session.Discussed (s s' : Session) (turns : List Turn) : Prop where
  nextSequence : s'.nextSequence = s.nextSequence + UInt16.ofNat turns.length
  storage : s'.storage = s.storage
  settings : s'.settings = s.settings
  issued : issuedRequests s'.history
    = issuedRequests s.history ++ requestsOf s.nextSequence turns
  sent : sentBytes s'.history = sentBytes s.history ++ requestBytes s.nextSequence turns

namespace Session

/-- What is not about the link, the time or the rule of the observer does not matter. -/
theorem Prepared.of_same {s s' : Session} {turns : List Turn} (h : s.Prepared turns)
    (hclock : s'.clock = s.clock) (hupcoming : s'.upcoming = s.upcoming)
    (houtgoing : s'.outgoing = s.outgoing) (hsettings : s'.settings = s.settings)
    (hnext : s'.nextSequence = s.nextSequence)
    (hcancels : s'.observer.cancels = s.observer.cancels) : s'.Prepared turns where
  link := by
    rw [houtgoing, hnext]
    exact h.link
  answered := by
    rw [hsettings, hclock, hnext, hupcoming]
    exact h.answered
  patient := by
    rw [Observer.Patient, hcancels]
    exact h.patient

theorem Prepared.polled {s : Session} {turns : List Turn} (h : s.Prepared turns) :
    s.polled.Prepared turns := h.of_same rfl rfl rfl rfl rfl rfl

theorem Prepared.note {s : Session} {turns : List Turn} (h : s.Prepared turns) (event : Event) :
    (s.note event).Prepared turns := h.of_same rfl rfl rfl rfl rfl rfl

theorem Prepared.reportPosition {s : Session} {turns : List Turn} (h : s.Prepared turns)
    (position : Nat) : ((reportPosition position).perform s).2.Prepared turns :=
  h.of_same rfl rfl rfl rfl rfl rfl

theorem Prepared.reportRange {s : Session} {turns : List Turn} (h : s.Prepared turns)
    (range : Nat) : ((reportRange range).perform s).2.Prepared turns :=
  h.of_same rfl rfl rfl rfl rfl rfl

theorem Discussed.refl (s : Session) : s.Discussed s [] where
  nextSequence := (UInt16.add_zero _).symm
  storage := rfl
  settings := rfl
  issued := (List.append_nil _).symm
  sent := (List.append_nil _).symm

theorem Discussed.of_note {s s' : Session} {event : Event}
    (hnext : s'.nextSequence = s.nextSequence) (hstorage : s'.storage = s.storage)
    (hsettings : s'.settings = s.settings) (hjournal : s'.journal = event :: s.journal)
    (hissued : issuedRequests [event] = []) (hsent : sentBytes [event] = []) :
    s.Discussed s' [] where
  nextSequence := hnext.trans (UInt16.add_zero _).symm
  storage := hstorage
  settings := hsettings
  issued := by
    rw [requestsOf, List.append_nil, history_of_journal hjournal, issuedRequests_append, hissued,
      List.append_nil]
  sent := by
    rw [history_of_journal hjournal, sentBytes_append, hsent]
    rfl

theorem Discussed.polled (s : Session) : s.Discussed s.polled [] :=
  .of_note rfl rfl rfl rfl rfl rfl

theorem Discussed.note (s : Session) {event : Event} (hissued : issuedRequests [event] = [])
    (hsent : sentBytes [event] = []) : s.Discussed (s.note event) [] :=
  .of_note rfl rfl rfl rfl hissued hsent

theorem Discussed.reportPosition (s : Session) (position : Nat) :
    s.Discussed ((FlightRecorder.reportPosition position).perform s).2 [] :=
  .of_note rfl rfl rfl rfl rfl rfl

theorem Discussed.reportRange (s : Session) (range : Nat) :
    s.Discussed ((FlightRecorder.reportRange range).perform s).2 [] :=
  .of_note rfl rfl rfl rfl rfl rfl

theorem Discussed.trans {s s' s'' : Session} {turns turns' : List Turn} (h : s.Discussed s' turns)
    (h' : s'.Discussed s'' turns') : s.Discussed s'' (turns ++ turns') where
  nextSequence := by
    rw [h'.nextSequence, h.nextSequence, List.length_append, UInt16.ofNat_add, UInt16.add_assoc]
  storage := h'.storage.trans h.storage
  settings := h'.settings.trans h.settings
  issued := by rw [h'.issued, h.issued, h.nextSequence, requestsOf_append, List.append_assoc]
  sent := by rw [h'.sent, h.sent, h.nextSequence, requestBytes_append, List.append_assoc]

theorem Asked.discussed {s s' : Session} {t : Turn} (h : s.Asked s' (t.request s.nextSequence)) :
    s.Discussed s' [t] where
  nextSequence := h.nextSequence
  storage := h.storage
  settings := h.settings
  issued := h.issued
  sent := by
    rw [h.sent]
    exact congrArg (sentBytes s.history ++ ·) (List.append_nil _).symm

/-- **Frames that come in time are answers in time**, in whatever state the decoder is. -/
theorem Expects.of_arriveInTime {s : Session} {turns : List Turn}
    (hlink : s.outgoing.Takes (requestBytes s.nextSequence turns).length)
    (hfits : ∀ t ∈ turns, t.Fits)
    (hstale : ∀ verdict ∈ s.decoder.ready, ∀ reply, ¬ verdict.Answers s.nextSequence reply)
    (harrive : ArriveInTime s.settings.controlTimeout s.clock (answersOf s.nextSequence turns)
      (timedBytes s.clock s.incoming)) : s.Expects turns where
  link := hlink
  answered := by
    refine answeredInTime_of_arriveInTime s.decoder.state
      (fun _ hf => consistent_of_mem_answersOf hfits hf) harrive fun item hitem => ?_
    obtain ⟨verdict, hverdict, rfl⟩ := List.mem_map.mp hitem
    exact Verdict.reply?_eq_none_iff.mpr (hstale verdict hverdict)

/-- Frames that come in time prepare a session for their dialogue. -/
theorem Prepared.of_arriveInTime {s : Session} {turns : List Turn}
    (hlink : s.outgoing.Takes (requestBytes s.nextSequence turns).length)
    (hpatient : s.observer.Patient) (hfits : ∀ t ∈ turns, t.Fits)
    (hstale : ∀ verdict ∈ s.decoder.ready, ∀ reply, ¬ verdict.Answers s.nextSequence reply)
    (harrive : ArriveInTime s.settings.controlTimeout s.clock (answersOf s.nextSequence turns)
      (timedBytes s.clock s.incoming)) : s.Prepared turns :=
  ⟨.of_arriveInTime hlink hfits hstale harrive, hpatient⟩

end Session

/-! ## One turn -/

/-- **A turn whose answer comes in time is taken.** -/
theorem perform_exchange_of_expects {s : Session} {t : Turn} {turns : List Turn}
    (h : s.Expects (t :: turns)) :
    ∃ s', (exchange t.type t.payload (·.controlTimeout)).perform s
        = (.ok (t.reply s.nextSequence), s') ∧
      s'.Expects turns ∧ s.Asked s' (t.request s.nextSequence) := by
  obtain ⟨skipped, moment, rest, hup, hskipped, hmoment, hrest⟩ := h.answered
  obtain ⟨s', hperform, hasked, hclock, hleft⟩ := perform_exchange_of_upcoming h.link.turn.1 hup
    hskipped (t.reply?_answer s.nextSequence) hmoment
  refine ⟨s', hperform, ⟨?_, ?_⟩, hasked⟩
  · rw [hasked.outgoing, hasked.nextSequence]
    exact h.link.turn.2
  · rw [hasked.settings, hclock, hasked.nextSequence, hleft]
    exact hrest

/-- A patient observer stays patient while a turn is taken. -/
theorem Session.Prepared.of_asked {s s' : Session} {request : Frame} {turns turns' : List Turn}
    (h : s.Prepared turns) (hasked : s.Asked s' request) (hexpects : s'.Expects turns') :
    s'.Prepared turns' := by
  refine ⟨hexpects, ?_⟩
  rw [hasked.observer]
  exact h.patient

end FlightRecorder
