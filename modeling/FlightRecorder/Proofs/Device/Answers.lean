import FlightRecorder.Proofs.Device.Conduct

/-!
# Which reply answered which request

A history tells it: between the numbering of a request and the next one every verdict that is looked
at is held against that number, and the first reply to it is the answer. An exchange that succeeds
adds one answer, and so does every piece of content.

* `answersFrom`, `answers` — the answers in a stretch of history, with their requests
* `contentReplies` — the answers to requests for content
* `Session.Quiet`, `Session.Answered` — between two sessions there were no answers, or these
* `answered_exchange` — an exchange that has succeeded
* `answered_nextChunk` — a piece of content that was received
-/

namespace FlightRecorder

/-! ## Answers -/

/-- The answer that a verdict is to the request that is waiting for one. -/
def answer? (asked : Option Frame) (verdict : Verdict) : Option (Frame × Reply) :=
  asked.bind fun request => (verdict.reply? request.sequence).map (request, ·)

/-- The answers in a stretch of history at whose beginning `asked` waits for one. -/
def answersFrom (asked : Option Frame) : List Event → List (Frame × Reply)
  | [] => []
  | .issued request :: events => answersFrom (some request) events
  | .examined verdict :: events =>
    match answer? asked verdict with
    | some answer => answer :: answersFrom none events
    | none => answersFrom asked events
  | _ :: events => answersFrom asked events

/-- The answers in a stretch of history, each behind the request that it answers. -/
def answers (history : List Event) : List (Frame × Reply) := answersFrom none history

/-- The answers to requests for content. -/
def contentReplies (history : List Event) : List Reply :=
  (answers history).filterMap fun answer =>
    if answer.1.messageType = .getIgcData then some answer.2 else none

/-- No request is numbered and no verdict is looked at. -/
def Event.IsQuiet : Event → Prop
  | issued _ => False
  | examined _ => False
  | _ => True

theorem answersFrom_append_of_quiet {events : List Event} (h : ∀ event ∈ events, event.IsQuiet)
    (asked : Option Frame) (rest : List Event) :
    answersFrom asked (events ++ rest) = answersFrom asked rest := by
  induction events with
  | nil => rfl
  | cons event events ih =>
    have hrest := ih fun other hother => h other (List.mem_cons_of_mem event hother)
    have hquiet := h event List.mem_cons_self
    cases event with
    | issued request => exact hquiet.elim
    | examined verdict => exact hquiet.elim
    | _ => exact hrest

/-! ## Between two sessions -/

/-- Between two sessions no request was numbered and no verdict was looked at. -/
def Session.Quiet (s s' : Session) : Prop := s.Adds Event.IsQuiet s'

/-- Between two sessions these requests were answered, by these replies, and no others. -/
def Session.Answered (s s' : Session) (given : List (Frame × Reply)) : Prop :=
  ∃ events, s'.history = s.history ++ events ∧
    ∀ rest, answersFrom none (events ++ rest) = given ++ answersFrom none rest

namespace Session

theorem Quiet.of_told {s s' : Session} (h : s.Told s') : s.Quiet s' := by
  refine h.adds.mono fun event htold => ?_
  cases event with
  | issued _ => exact htold
  | examined _ => exact htold
  | _ => trivial

theorem Quiet.answered {s s' : Session} (h : s.Quiet s') : s.Answered s' [] := by
  obtain ⟨events, heq, hquiet⟩ := h
  exact ⟨events, heq, fun rest => answersFrom_append_of_quiet hquiet none rest⟩

theorem Answered.trans {s s' s'' : Session} {given given' : List (Frame × Reply)}
    (h : s.Answered s' given) (h' : s'.Answered s'' given') : s.Answered s'' (given ++ given') := by
  obtain ⟨events, heq, hgiven⟩ := h
  obtain ⟨events', heq', hgiven'⟩ := h'
  refine ⟨events ++ events', by rw [heq', heq, List.append_assoc], fun rest => ?_⟩
  rw [List.append_assoc, hgiven, hgiven', List.append_assoc]

end Session

/-! ## Exchanges -/

open Session

theorem leads_quiet_poll : poll.Leads Quiet := fun s => .of_told (leads_told_poll s)

/-- A request that was sent is known by its number. -/
theorem eq_sequence_of_deliver {request : Frame} {s s' : Session} {sequence : UInt16}
    (h : (deliver request).perform s = (.ok sequence, s')) : sequence = request.sequence := by
  obtain ⟨now, s0, -, h⟩ := Action.exists_of_perform_bind_eq_ok h
  obtain ⟨_, s1, -, h⟩ := Action.exists_of_perform_bind_eq_ok h
  obtain ⟨_, s2, -, h⟩ := Action.exists_of_perform_bind_eq_ok h
  split at h
  · obtain ⟨_, s3, -, h⟩ := Action.exists_of_perform_bind_eq_ok h
    cases h
    rfl
  · cases h
    rfl

/-- A wait that is answered looks at verdicts up to the answer. -/
theorem exists_history_of_awaitFrom {request : Frame} {sequence : UInt16} {deadline : Nat}
    {s : Session} {reply : Reply} (hsequence : request.sequence = sequence)
    (h : (awaitFrom sequence deadline s).1 = .ok reply) :
    ∃ events, (awaitFrom sequence deadline s).2.history = s.history ++ events ∧
      ∀ rest, answersFrom (some request) (events ++ rest)
        = (request, reply) :: answersFrom none rest := by
  fun_induction awaitFrom sequence deadline s with
  | case1 s verdict ready hr found hv =>
    cases h
    have hanswer : answer? (some request) verdict = some (request, reply) := by
      rw [answer?, Option.bind_some, hsequence, hv]
      rfl
    refine ⟨[.examined verdict], history_note _ _, fun rest => ?_⟩
    rw [List.singleton_append, answersFrom, hanswer]
  | case2 s verdict ready hr hv ih =>
    have hanswer : answer? (some request) verdict = none := by
      rw [answer?, Option.bind_some, hsequence, hv]
      rfl
    obtain ⟨events, heq, hgiven⟩ := ih h
    refine ⟨.examined verdict :: events, ?_, fun rest => ?_⟩
    · rw [heq, examine, history_note, List.append_assoc]
      rfl
    · rw [List.cons_append, answersFrom, hanswer]
      exact hgiven rest
  | case3 s hr bytes clock incoming hb ih =>
    obtain ⟨events, heq, hgiven⟩ := ih h
    refine ⟨.waited clock :: .received bytes :: events, ?_, hgiven⟩
    rw [heq, Session.absorb, history_note, waitUntil, history_note, List.append_assoc,
      List.append_assoc]
    rfl
  | case4 => cases h
  | case5 => cases h
  | case6 => cases h

/-- **An exchange that has succeeded is one answer to one request.** -/
theorem answered_exchange {type : MessageType} {payload : Bytes} {timeout : Settings → Nat}
    {s s' : Session} {reply : Reply}
    (h : (exchange type payload timeout).perform s = (.ok reply, s')) :
    s.Answered s' [(.build s.nextSequence type payload, reply)] := by
  let f := Frame.build s.nextSequence type payload
  obtain ⟨sequence, sent, hrequest, h⟩ := Action.exists_of_perform_bind_eq_ok h
  rw [perform_request] at hrequest
  have hsequence : f.sequence = sequence := (eq_sequence_of_deliver hrequest).symm
  have hquiet : (s.issuing f).Quiet sent :=
    (leads_deliver (Adds.refl Event.IsQuiet) Adds.trans
      (fun bytes limit s => Quiet.of_told (leads_told_transmit bytes limit s)) f).of_perform
        hrequest
  obtain ⟨now, same, hget, h⟩ := Action.exists_of_perform_bind_eq_ok h
  cases hget
  obtain ⟨events, heq, hgiven⟩ := exists_history_of_awaitFrom hsequence (congrArg Prod.fst h)
  have hs' : (awaitFrom sequence (sent.clock + timeout sent.settings) sent).2 = s' :=
    congrArg Prod.snd h
  obtain ⟨sends, hsends, hnone⟩ := hquiet
  refine ⟨.issued f :: (sends ++ events), ?_, fun rest => ?_⟩
  · rw [← hs', heq, hsends, issuing, history_note, List.append_assoc, List.append_assoc]
    rfl
  · rw [List.cons_append, answersFrom, List.append_assoc, answersFrom_append_of_quiet hnone, hgiven]
    rfl

theorem leads_nextSequence_poll :
    poll.Leads fun s s' => s'.nextSequence = s.nextSequence := by
  intro s
  rw [poll, Action.perform_ofPerform]
  dsimp only
  split <;> rfl

/-- **A piece of content is one answer to one request for content.** -/
theorem answered_nextChunk {s s' : Session} {chunk : Chunk}
    (h : nextChunk.perform s = (.ok chunk, s')) :
    ∃ reply, s.Answered s' [(.build s.nextSequence .getIgcData [], reply)] ∧
      reply.chunk = .ok chunk := by
  obtain ⟨_, asking, hpoll, h⟩ := Action.exists_of_perform_bind_eq_ok h
  obtain ⟨reply, asked, hexchange, h⟩ := Action.exists_of_perform_bind_eq_ok h
  obtain ⟨_, polled, hpoll', h⟩ := Action.exists_of_perform_bind_eq_ok h
  obtain ⟨read, same, hchunk, h⟩ := Action.exists_of_perform_bind_eq_ok h
  obtain ⟨_, reported, hreport, hdone⟩ := Action.exists_of_perform_bind_eq_ok h
  rw [Action.ofResult, Action.perform_ofPerform, Prod.mk.injEq] at hchunk
  obtain ⟨hread, rfl⟩ := hchunk
  rw [Action.perform_pure, Prod.mk.injEq, Except.ok.injEq] at hdone
  obtain ⟨rfl, rfl⟩ := hdone
  have hnumber : asking.nextSequence = s.nextSequence :=
    leads_nextSequence_poll.of_perform hpoll
  have hreported : polled.Quiet reported :=
    .of_told ((leads_told_reportPosition _).of_perform hreport)
  have hbefore := (leads_quiet_poll.of_perform hpoll).answered
  have hasked := answered_exchange hexchange
  have hbehind := (leads_quiet_poll.of_perform hpoll').answered.trans hreported.answered
  rw [hnumber] at hasked
  exact ⟨reply, (hbefore.trans hasked).trans hbehind, hread⟩

end FlightRecorder
