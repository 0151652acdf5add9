import FlightRecorder.Proofs.Device.Intake
import FlightRecorder.Proofs.Device.Numbering

/-!
# The transcript of a history

A history tells of every request whether it was answered: between its numbering and that of the next
request, the first verdict that replies to it is its answer. The transcript lists all requests like
that, also those that got no answer, so an exchange adds one entry to it however the exchange ends.

* `replyTo`, `transcript` — the reply to a request, and all requests with their replies
* `Session.Transcribed` — what was asked and answered between two sessions
* `transcribed_exchange` — an exchange
* `exists_answers_of_mem_transcript` — a reply in a transcript answers its request
-/

namespace FlightRecorder

open Session

/-! ## Requests and their replies -/

/-- The reply to a request in what happened behind it. -/
def replyTo (request : Frame) : List Event → Option Reply
  | [] => none
  | .issued _ :: _ => none
  | .examined verdict :: events =>
    match verdict.reply? request.sequence with
    | some reply => some reply
    | none => replyTo request events
  | _ :: events => replyTo request events

/-- Requests, each with its reply if it got one. -/
abbrev Transcript := List (Frame × Option Reply)

/-- The requests in a stretch of history, each with its reply. -/
def transcript : List Event → Transcript
  | [] => []
  | .issued request :: events => (request, replyTo request events) :: transcript events
  | _ :: events => transcript events

/-- The transcript names the requests that were issued. -/
theorem map_fst_transcript (events : List Event) :
    (transcript events).map Prod.fst = issuedRequests events := by
  induction events with
  | nil => rfl
  | cons event events ih =>
    cases event with
    | issued request => exact congrArg (request :: ·) ih
    | _ => exact ih

/-- A stretch of history that answers nothing that was asked before it. -/
def AnswersNothing (events : List Event) : Prop := ∀ request, replyTo request events = none

theorem replyTo_append {rest : List Event} (h : AnswersNothing rest) (request : Frame)
    (events : List Event) : replyTo request (events ++ rest) = replyTo request events := by
  induction events with
  | nil => exact h request
  | cons event events ih =>
    cases event with
    | issued other => rfl
    | examined verdict =>
      rw [List.cons_append, replyTo, replyTo, ih]
    | _ => exact ih

theorem transcript_append {rest : List Event} (h : AnswersNothing rest) (events : List Event) :
    transcript (events ++ rest) = transcript events ++ transcript rest := by
  induction events with
  | nil => rfl
  | cons event events ih =>
    cases event with
    | issued request =>
      rw [List.cons_append, transcript, transcript, replyTo_append h, ih]
      rfl
    | _ => exact ih

theorem AnswersNothing.append {events events' : List Event} (h : AnswersNothing events)
    (h' : AnswersNothing events') : AnswersNothing (events ++ events') := by
  intro request
  rw [replyTo_append h']
  exact h request

theorem answersNothing_of_quiet {events : List Event} (h : ∀ event ∈ events, event.IsQuiet) :
    AnswersNothing events := by
  intro request
  induction events with
  | nil => rfl
  | cons event events ih =>
    have hquiet := h event List.mem_cons_self
    have hrest := ih fun other hother => h other (List.mem_cons_of_mem event hother)
    cases event with
    | issued other => exact hquiet.elim
    | examined verdict => exact hquiet.elim
    | _ => exact hrest

theorem issuedRequests_of_quiet {events : List Event} (h : ∀ event ∈ events, event.IsQuiet) :
    issuedRequests events = [] := by
  refine List.filterMap_eq_nil_iff.mpr fun event hevent => ?_
  have hone := h event hevent
  cases event <;> first | rfl | exact hone.elim

theorem examinedVerdicts_of_quiet {events : List Event} (h : ∀ event ∈ events, event.IsQuiet) :
    examinedVerdicts events = [] := by
  refine List.filterMap_eq_nil_iff.mpr fun event hevent => ?_
  have hone := h event hevent
  cases event <;> first | rfl | exact hone.elim

/-- Where no request is issued, the transcript has no entry. -/
theorem transcript_eq_nil {events : List Event} (h : issuedRequests events = []) :
    transcript events = [] := by
  rw [← map_fst_transcript] at h
  exact List.map_eq_nil_iff.mp h

/-- Up to the next request, the reply is the first one among the verdicts that are looked at. -/
theorem replyTo_eq_findSome? {events : List Event} (h : issuedRequests events = [])
    (request : Frame) :
    replyTo request events
      = (examinedVerdicts events).findSome? (·.reply? request.sequence) := by
  induction events with
  | nil => rfl
  | cons event events ih =>
    cases event with
    | issued other => cases h
    | examined verdict =>
      have hcons : examinedVerdicts (.examined verdict :: events)
          = verdict :: examinedVerdicts events := rfl
      rw [hcons, replyTo, List.findSome?_cons, ih h]
      cases verdict.reply? request.sequence <;> rfl
    | _ => exact ih h

theorem exists_answers_of_replyTo {request : Frame} {reply : Reply} {events : List Event}
    (h : replyTo request events = some reply) :
    ∃ verdict : Verdict, verdict.Answers request.sequence reply := by
  induction events with
  | nil => cases h
  | cons event events ih =>
    cases event with
    | issued other => cases h
    | examined verdict =>
      rw [replyTo] at h
      cases hreply : verdict.reply? request.sequence with
      | some found =>
        rw [hreply] at h
        cases h
        exact ⟨verdict, Verdict.reply?_eq_some_iff.mp hreply⟩
      | none =>
        rw [hreply] at h
        exact ih h
    | _ => exact ih h

/-- **A reply in a transcript answers its request.** -/
theorem exists_answers_of_mem_transcript {request : Frame} {reply : Reply} {events : List Event}
    (h : (request, some reply) ∈ transcript events) :
    ∃ verdict : Verdict, verdict.Answers request.sequence reply := by
  induction events with
  | nil => cases h
  | cons event events ih =>
    cases event with
    | issued other =>
      rcases List.mem_cons.mp h with heq | hrest
      · obtain ⟨rfl, hreply⟩ := Prod.mk.inj heq
        exact exists_answers_of_replyTo hreply.symm
      · exact ih hrest
    | _ => exact ih h

/-! ## Between two sessions -/

/-- Between two sessions of one run this was asked and answered, and nothing that was asked before was
answered. -/
def Session.Transcribed (s : Session) (asked : Transcript) (s' : Session) : Prop :=
  ∃ events, s'.history = s.history ++ events ∧ AnswersNothing events ∧ transcript events = asked

namespace Session.Transcribed

variable {s s' s'' : Session} {asked asked' : Transcript}

theorem of_quiet (h : s.Quiet s') : s.Transcribed [] s' := by
  obtain ⟨events, heq, hquiet⟩ := h
  exact ⟨events, heq, answersNothing_of_quiet hquiet,
    transcript_eq_nil (issuedRequests_of_quiet hquiet)⟩

theorem trans (h : s.Transcribed asked s') (h' : s'.Transcribed asked' s'') :
    s.Transcribed (asked ++ asked') s'' := by
  obtain ⟨events, heq, hnone, hasked⟩ := h
  obtain ⟨events', heq', hnone', hasked'⟩ := h'
  refine ⟨events ++ events', by rw [heq', heq, List.append_assoc], hnone.append hnone', ?_⟩
  rw [transcript_append hnone', hasked, hasked']

/-- What nothing is asked in leaves the transcript as it is. -/
theorem then_quiet (h : s.Transcribed asked s') (h' : s'.Quiet s'') : s.Transcribed asked s'' := by
  have hboth := h.trans (of_quiet h')
  rwa [List.append_nil] at hboth

theorem after_quiet (h : s.Quiet s') (h' : s'.Transcribed asked s'') : s.Transcribed asked s'' :=
  (of_quiet h).trans h'

/-- **What was asked and answered is what the stretch of history tells.** -/
theorem stretch (h : s.Transcribed asked s') : transcript (s.stretch s') = asked := by
  obtain ⟨events, heq, -, hasked⟩ := h
  rw [stretch_eq heq, hasked]

end Session.Transcribed

/-! ## Exchanges -/

/-- The first reply among the verdicts that a wait takes is the one that it returns. -/
theorem TakesUpToReply.findSome?_eq {sequence : UInt16} {result : Except Failure Reply}
    {consumed : List Verdict} (h : TakesUpToReply sequence result consumed) :
    consumed.findSome? (·.reply? sequence) = result.toOption := by
  obtain ⟨discarded, hdiscarded, hend⟩ := h
  have hnone : discarded.findSome? (·.reply? sequence) = none :=
    List.findSome?_eq_none_iff.mpr fun verdict hmem =>
      Verdict.reply?_eq_none_iff.mpr (hdiscarded verdict hmem)
  cases result with
  | error failure =>
    have hconsumed : consumed = discarded := hend
    rw [hconsumed]
    exact hnone
  | ok reply =>
    obtain ⟨verdict, hverdict, rfl⟩ := hend
    rw [List.findSome?_append, hnone, Option.none_or, List.findSome?_singleton]
    exact Verdict.reply?_eq_some_iff.mpr hverdict

/-- A wait is a stretch of history without requests, and its reply is the reply in it. -/
theorem exists_history_awaitFrom (sequence : UInt16) (deadline : Nat) (s : Session) :
    ∃ events, (awaitFrom sequence deadline s).2.history = s.history ++ events ∧
      issuedRequests events = [] ∧
      (examinedVerdicts events).findSome? (·.reply? sequence)
        = (awaitFrom sequence deadline s).1.toOption := by
  obtain ⟨received, consumed, hheard, htakes, -⟩ := exists_heard_awaitFrom sequence deadline s
  obtain ⟨events, heq, -, hconsumed⟩ := hheard.adds
  refine ⟨events, heq, ?_, ?_⟩
  · have hissued := (listened_awaitFrom sequence deadline s).issuedRequests_eq
    rw [heq, issuedRequests_append] at hissued
    exact List.append_right_eq_self.mp hissued
  · rw [hconsumed]
    exact htakes.findSome?_eq

/-- Behind its number a request is sent without another one, and nothing is looked at. -/
theorem quiet_request (type : MessageType) (payload : Bytes) (s : Session) :
    (s.issuing (.build s.nextSequence type payload)).Quiet ((request type payload).perform s).2 := by
  rw [perform_request]
  exact leads_deliver (Adds.refl Event.IsQuiet) Adds.trans
    (fun bytes limit s => Quiet.of_told (leads_told_transmit bytes limit s)) _ _

/-- **An exchange is one request with its reply**, or without one if it fails. -/
theorem transcribed_exchange (type : MessageType) (payload : Bytes) (timeout : Settings → Nat)
    (s : Session) :
    s.Transcribed [(.build s.nextSequence type payload,
        ((exchange type payload timeout).perform s).1.toOption)]
      ((exchange type payload timeout).perform s).2 := by
  let f := Frame.build s.nextSequence type payload
  have hissuing : (s.issuing f).history = s.history ++ [.issued f] := history_note _ _
  have hquiet := quiet_request type payload s
  rcases perform_exchange_cases type payload timeout s with
    ⟨failure, s', hrequest, hexchange⟩ | ⟨sequence, s', hrequest, hexchange⟩
  · rw [hrequest] at hquiet
    obtain ⟨sends, heq, hsends⟩ := hquiet
    rw [hexchange]
    refine ⟨.issued f :: sends, ?_, fun _ => rfl, ?_⟩
    · rw [heq, hissuing, List.append_assoc]
      rfl
    · rw [transcript, answersNothing_of_quiet hsends f,
        transcript_eq_nil (issuedRequests_of_quiet hsends)]
      rfl
  · have hsequence : sequence = f.sequence := by
      rw [perform_request] at hrequest
      exact eq_sequence_of_deliver hrequest
    rw [hrequest] at hquiet
    obtain ⟨sends, heq, hsends⟩ := hquiet
    obtain ⟨heard, heq', hnone, hreply⟩ :=
      exists_history_awaitFrom sequence (s'.clock + timeout s'.settings) s'
    have hunissued : issuedRequests (sends ++ heard) = [] := by
      rw [issuedRequests_append, hnone, List.append_nil]
      exact issuedRequests_of_quiet hsends
    rw [hexchange]
    refine ⟨.issued f :: (sends ++ heard), ?_, fun _ => rfl, ?_⟩
    · rw [heq', heq, hissuing, List.append_assoc, List.append_assoc]
      rfl
    · rw [transcript, transcript_eq_nil hunissued, replyTo_eq_findSome? hunissued,
        examinedVerdicts_append, examinedVerdicts_of_quiet hsends, List.nil_append, ← hsequence,
        hreply]

end FlightRecorder
