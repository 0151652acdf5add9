import FlightRecorder.Proofs.Device.Waiting
import FlightRecorder.Proofs.Link.Sending

/-!
# Requests on a link that takes them

A link that is not in trouble yet takes a request whole and at once, so what is left of an exchange
is the wait for its reply.

* `Session.Sent` — bytes were sent, and nothing else was done
* `Session.Asked` — a request was sent, and nothing was done but listening
* `perform_request_of_takes` — a request
* `perform_exchange_of_upcoming` — a request and its reply
-/

namespace FlightRecorder

/-! ## Actions -/

@[simp]
theorem Action.perform_get (s : Session) : Action.perform (get : Action Session) s = (.ok s, s) :=
  rfl

@[simp]
theorem Action.perform_modify (f : Session → Session) (s : Session) :
    Action.perform (modify f : Action PUnit) s = (.ok ⟨⟩, f s) := rfl

/-! ## What the history tells -/

/-- The requests that were given a sequence number in a stretch of history. -/
def issuedRequests (history : List Event) : List Frame :=
  history.filterMap fun
    | .issued request => some request
    | _ => none

@[simp]
theorem sentBytes_append (first second : List Event) :
    sentBytes (first ++ second) = sentBytes first ++ sentBytes second := by
  simp [sentBytes]

@[simp]
theorem issuedRequests_append (first second : List Event) :
    issuedRequests (first ++ second) = issuedRequests first ++ issuedRequests second := by
  simp [issuedRequests]

/-- What is put in front of the journal comes last in the history. -/
theorem Session.history_of_journal {s s' : Session} {event : Event}
    (h : s'.journal = event :: s.journal) : s'.history = s.history ++ [event] := by
  rw [history, h, List.reverse_cons]
  rfl

@[simp]
theorem Session.history_note (s : Session) (event : Event) :
    (s.note event).history = s.history ++ [event] := history_of_journal rfl

theorem Session.sentBytes_note {s : Session} {event : Event} (h : sentBytes [event] = []) :
    sentBytes (s.note event).history = sentBytes s.history := by
  rw [history_note, sentBytes_append, h, List.append_nil]

theorem Session.issuedRequests_note {s : Session} {event : Event}
    (h : issuedRequests [event] = []) :
    issuedRequests (s.note event).history = issuedRequests s.history := by
  rw [history_note, issuedRequests_append, h, List.append_nil]

theorem Session.Listened.sentBytes_eq {s s' : Session} (h : s.Listened s') :
    sentBytes s'.history = sentBytes s.history := by
  obtain ⟨events, hj, hheard⟩ := h.journal
  have hnone : sentBytes events.reverse = [] := by
    refine List.flatMap_eq_nil_iff.mpr fun event hevent => ?_
    have := hheard event (List.mem_reverse.mp hevent)
    cases event <;> first | rfl | exact this.elim
  rw [history, hj, List.reverse_append, sentBytes_append, hnone, List.append_nil]
  rfl

theorem Session.Listened.issuedRequests_eq {s s' : Session} (h : s.Listened s') :
    issuedRequests s'.history = issuedRequests s.history := by
  obtain ⟨events, hj, hheard⟩ := h.journal
  have hnone : issuedRequests events.reverse = [] := by
    refine List.filterMap_eq_nil_iff.mpr fun event hevent => ?_
    have := hheard event (List.mem_reverse.mp hevent)
    cases event <;> first | rfl | exact this.elim
  rw [history, hj, List.reverse_append, issuedRequests_append, hnone, List.append_nil]
  rfl

/-! ## Requests -/

/-- The session behind bytes that the link has taken. -/
def Session.sending (s : Session) (bytes : Bytes) : Session :=
  { s with outgoing := s.outgoing.after bytes.length }.note (.sent bytes)

theorem perform_transmit_of_takes {s : Session} {bytes : Bytes} (h : s.outgoing.Takes bytes.length)
    (timeout : Nat) : (transmit bytes timeout).perform s = (.ok (), s.sending bytes) := by
  have hall : bytes.take ((s.outgoing.after bytes.length).taken - s.outgoing.taken) = bytes := by
    rw [Outgoing.after, Nat.add_sub_cancel_left, List.take_length]
  rw [transmit, Action.perform_ofPerform]
  simp only [Outgoing.send_of_takes h, Outgoing.canFlush_after h, if_true, hall]
  rfl

/-- Bytes were sent, and nothing else was done. -/
structure Session.Sent (s s' : Session) (bytes : Bytes) : Prop where
  clock : s'.clock = s.clock
  incoming : s'.incoming = s.incoming
  decoder : s'.decoder = s.decoder
  outgoing : s'.outgoing = s.outgoing.after bytes.length
  storage : s'.storage = s.storage
  settings : s'.settings = s.settings
  nextSequence : s'.nextSequence = s.nextSequence
  observer : s'.observer = s.observer
  sent : sentBytes s'.history = sentBytes s.history ++ bytes
  issued : issuedRequests s'.history = issuedRequests s.history

theorem Session.sent_sending (s : Session) (bytes : Bytes) : s.Sent (s.sending bytes) bytes where
  clock := rfl
  incoming := rfl
  decoder := rfl
  outgoing := rfl
  storage := rfl
  settings := rfl
  nextSequence := rfl
  observer := rfl
  sent := by
    have hone : sentBytes [.sent bytes] = bytes := List.append_nil bytes
    rw [sending, history_note, sentBytes_append, hone]
    rfl
  issued := issuedRequests_note rfl

theorem Session.Sent.trans {s s' s'' : Session} {first second : Bytes} (h : s.Sent s' first)
    (h' : s'.Sent s'' second) : s.Sent s'' (first ++ second) where
  clock := h'.clock.trans h.clock
  incoming := h'.incoming.trans h.incoming
  decoder := h'.decoder.trans h.decoder
  outgoing := by rw [h'.outgoing, h.outgoing, Outgoing.after_after, List.length_append]
  storage := h'.storage.trans h.storage
  settings := h'.settings.trans h.settings
  nextSequence := h'.nextSequence.trans h.nextSequence
  observer := h'.observer.trans h.observer
  sent := by rw [h'.sent, h.sent, List.append_assoc]
  issued := h'.issued.trans h.issued

/-- A request was sent whole, and besides nothing was done but listening. -/
structure Session.Asked (s s' : Session) (request : Frame) : Prop where
  outgoing : s'.outgoing = s.outgoing.after request.encode.length
  storage : s'.storage = s.storage
  settings : s'.settings = s.settings
  nextSequence : s'.nextSequence = s.nextSequence + 1
  observer : s'.observer = s.observer
  sent : sentBytes s'.history = sentBytes s.history ++ request.encode
  issued : issuedRequests s'.history = issuedRequests s.history ++ [request]

theorem Session.Asked.trans_listened {s s' s'' : Session} {request : Frame}
    (h : s.Asked s' request) (h' : s'.Listened s'') : s.Asked s'' request where
  outgoing := h'.outgoing.trans h.outgoing
  storage := h'.storage.trans h.storage
  settings := h'.settings.trans h.settings
  nextSequence := h'.nextSequence.trans h.nextSequence
  observer := h'.observer.trans h.observer
  sent := h'.sentBytes_eq.trans h.sent
  issued := h'.issuedRequests_eq.trans h.issued

/-- The session behind the numbering of a request. -/
def Session.issuing (s : Session) (request : Frame) : Session :=
  { s with nextSequence := s.nextSequence + 1 }.note (.issued request)

/-- The session behind a request that the link has taken. -/
def Session.requesting (s : Session) (type : MessageType) (payload : Bytes) : Session :=
  let f := Frame.build s.nextSequence type payload
  let headed := ((s.issuing f).sending [startByte]).sending (stuff f.header.toBytes)
  if payload = [] then headed else headed.sending (stuff payload)

theorem Session.sent_requesting (s : Session) (type : MessageType) (payload : Bytes) :
    (s.issuing (.build s.nextSequence type payload)).Sent (s.requesting type payload)
      (Frame.build s.nextSequence type payload).encode := by
  let f := Frame.build s.nextSequence type payload
  have hencode : f.encode = [startByte] ++ stuff f.header.toBytes ++ stuff payload := rfl
  have hheaded : (s.issuing f).Sent
      (((s.issuing f).sending [startByte]).sending (stuff f.header.toBytes))
      ([startByte] ++ stuff f.header.toBytes) :=
    (sent_sending _ _).trans (sent_sending _ _)
  rw [hencode]
  by_cases hp : payload = []
  · have hnone : [startByte] ++ stuff f.header.toBytes ++ stuff payload
        = [startByte] ++ stuff f.header.toBytes := by rw [hp, stuff_nil, List.append_nil]
    rw [requesting, if_pos hp, hnone]
    exact hheaded
  · rw [requesting, if_neg hp]
    exact hheaded.trans (sent_sending _ _)

theorem Session.asked_requesting (s : Session) (type : MessageType) (payload : Bytes) :
    s.Asked (s.requesting type payload) (.build s.nextSequence type payload) := by
  let f := Frame.build s.nextSequence type payload
  have hsent : (s.issuing f).Sent (s.requesting type payload) f.encode :=
    s.sent_requesting type payload
  have hissued : issuedRequests (s.issuing f).history = issuedRequests s.history ++ [f] := by
    rw [issuing, history_note, issuedRequests_append]
    rfl
  exact {
    outgoing := hsent.outgoing
    storage := hsent.storage
    settings := hsent.settings
    nextSequence := hsent.nextSequence
    observer := hsent.observer
    sent := hsent.sent.trans (congrArg (· ++ f.encode) (sentBytes_note rfl))
    issued := hsent.issued.trans hissued }

/-- What a session is going to receive does not depend on what it sends. -/
theorem Session.upcoming_requesting (s : Session) (type : MessageType) (payload : Bytes) :
    (s.requesting type payload).clock = s.clock ∧
      (s.requesting type payload).upcoming = s.upcoming := by
  have hsent := s.sent_requesting type payload
  exact ⟨hsent.clock, upcoming_congr hsent.clock hsent.incoming hsent.decoder⟩

/-- **A request that the link takes is sent whole.** -/
theorem perform_request_of_takes {s : Session} {type : MessageType} {payload : Bytes}
    (h : s.outgoing.Takes (Frame.build s.nextSequence type payload).encode.length) :
    (request type payload).perform s = (.ok s.nextSequence, s.requesting type payload) := by
  let f := Frame.build s.nextSequence type payload
  have hlength : f.encode.length
      = [startByte].length + ((stuff f.header.toBytes).length + (stuff payload).length) := by
    show ([startByte] ++ stuff f.header.toBytes ++ stuff payload).length = _
    rw [List.length_append, List.length_append, Nat.add_assoc]
  rw [hlength] at h
  have hheader : (s.outgoing.after [startByte].length).Takes (stuff f.header.toBytes).length :=
    h.after.mono (Nat.le_add_right _ _)
  have hpayload : ((s.outgoing.after [startByte].length).after
      (stuff f.header.toBytes).length).Takes (stuff payload).length := h.after.after
  unfold request sendStart sendHeader sendStuffed prepareHeader
  simp only [Action.perform_bind, Action.perform_ofPerform, Action.perform_modify,
    Action.perform_get]
  rw [perform_transmit_of_takes]
  · simp only
    rw [perform_transmit_of_takes]
    · by_cases hp : payload = []
      · subst hp
        rfl
      · simp only [ne_eq, hp, not_false_eq_true, if_true, Session.requesting, if_false]
        rw [Action.perform_bind, perform_transmit_of_takes]
        · rfl
        · exact hpayload
    · exact hheader
  · exact h.mono (Nat.le_add_right _ _)

/-- **A request whose reply is there in time is answered by it**, whatever else is there before. -/
theorem perform_exchange_of_upcoming {s : Session} {type : MessageType} {payload : Bytes}
    {timeout : Settings → Nat} {moment : Nat} {skipped rest : List (Verdict × Nat)}
    {verdict : Verdict} {reply : Reply}
    (h : s.outgoing.Takes (Frame.build s.nextSequence type payload).encode.length)
    (hup : s.upcoming = skipped ++ (verdict, moment) :: rest)
    (hskipped : ∀ item ∈ skipped, item.1.reply? s.nextSequence = none)
    (hreply : verdict.reply? s.nextSequence = some reply)
    (hmoment : moment ≤ s.clock + timeout s.settings) :
    ∃ s', (exchange type payload timeout).perform s = (.ok reply, s') ∧
      s.Asked s' (Frame.build s.nextSequence type payload) ∧ s'.clock = moment ∧
      s'.upcoming = rest := by
  let asked := s.requesting type payload
  have hasked : s.Asked asked (Frame.build s.nextSequence type payload) :=
    s.asked_requesting type payload
  obtain ⟨hclock, hsame⟩ := s.upcoming_requesting type payload
  have hperform : (exchange type payload timeout).perform s
      = awaitFrom s.nextSequence (s.clock + timeout s.settings) asked := by
    rw [exchange, Action.perform_bind, perform_request_of_takes h]
    simp only [Action.perform_bind, Action.perform_get, awaitReply, Action.perform_ofPerform]
    rw [hclock, hasked.settings]
  obtain ⟨hok, hend, hrest⟩ := awaitFrom_of_upcoming
    (show asked.clock ≤ s.clock + timeout s.settings by
      rw [hclock]
      exact Nat.le_add_right _ _)
    (hsame.trans hup) hskipped hreply hmoment
  refine ⟨(awaitFrom s.nextSequence (s.clock + timeout s.settings) asked).2, ?_,
    hasked.trans_listened (listened_awaitFrom _ _ _), hend, hrest⟩
  rw [hperform, ← hok]

end FlightRecorder
