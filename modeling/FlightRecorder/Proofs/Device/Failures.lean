import FlightRecorder.CommandLine.Run
import FlightRecorder.Proofs.Device.Cancellation
import FlightRecorder.Proofs.Device.Intake

/-!
# What operations fail with

A wait fails when the link fails, ends or stays silent too long, and it returns nothing but
acknowledgements and refusals. All that an operation can fail with follows from that: an answer that it
does not expect is a refusal, a frame that cannot be read is never its failure, and the code for any
other answer is never reached.

* `Failure.OfLink`, `Failure.OfAnswer`, `Failure.OfCall` — the failures, sorted by where they come from
* `EndsAs`, `Ends` — what a run may fail with and what it may give
* `ends_exchange`, `ends_findRecord`, `ends_download` — the operations
* `findRecordOr`, `listFromOr`, `describeRecordOr` — the code with something else in the branches that
  are never reached
* `failures_of_calls` — the failures of every call
-/

namespace FlightRecorder

open Session

/-! ## Failures -/

/-- The failures of a link on which this is still to come. -/
inductive Failure.OfLink (incoming : List Arrival) : Failure → Prop
  | broken : OfLink incoming (.system .link)
  | stuck : OfLink incoming (.system .writeZero)
  | late : OfLink incoming .timeout
  | ended (h : incoming.head? = some .hangup) : OfLink incoming .closed

/-- The failures of an answer that has arrived. -/
inductive Failure.OfAnswer : Failure → Prop
  | refused : OfAnswer (.unexpectedResponse .nack)
  | unreadable (text : String) : OfAnswer (.invalidInfo text)
  | short (expected actual : Nat) : OfAnswer (.insufficientData expected actual)

/-- The failures of a run that nothing but the link and the observer can end. -/
inductive Failure.OfTalk (incoming : List Arrival) : Failure → Prop
  | ofLink {failure : Failure} (h : failure.OfLink incoming) : OfTalk incoming failure
  | cancelled : OfTalk incoming .cancelled

/-- The failures of any call. -/
inductive Failure.OfCall (incoming : List Arrival) : Failure → Prop
  | ofTalk {failure : Failure} (h : failure.OfTalk incoming) : OfCall incoming failure
  | ofAnswer {failure : Failure} (h : failure.OfAnswer) : OfCall incoming failure
  | ofStorage (fault : StorageFault) : OfCall incoming (.system (.storage fault))

section OfCall

variable {incoming : List Arrival}

/-- An answer that a call did not expect is a refusal. -/
theorem Failure.OfCall.eq_nack {type : MessageType}
    (h : OfCall incoming (.unexpectedResponse type)) : type = .nack := by
  cases h with
  | ofTalk h =>
    cases h with
    | ofLink h => cases h
  | ofAnswer h =>
    cases h
    rfl

theorem Failure.OfCall.not_malformedFrame {fault : FrameFault} :
    ¬ OfCall incoming (.malformedFrame fault) := by
  intro h
  cases h with
  | ofTalk h =>
    cases h with
    | ofLink h => cases h
  | ofAnswer h => cases h

theorem Failure.OfCall.head?_of_closed (h : OfCall incoming .closed) :
    incoming.head? = some .hangup := by
  cases h with
  | ofTalk h =>
    cases h with
    | ofLink h =>
      cases h with
      | ended hend => exact hend
  | ofAnswer h => cases h

/-- The failures that end a listing. -/
theorem Failure.OfTalk.mem {failure : Failure} (h : failure.OfTalk incoming) :
    failure ∈ [.system .link, .system .writeZero, .timeout, .closed, .cancelled] := by
  cases h with
  | cancelled => decide
  | ofLink h => cases h <;> decide

end OfCall

/-- The types of replies. -/
def MessageType.IsReply (type : MessageType) : Prop := type = .ack ∨ type = .nack

theorem MessageType.IsReply.eq_nack {type : MessageType} (h : type.IsReply) (hne : type ≠ .ack) :
    type = .nack := h.resolve_left hne

/-! ## Runs and their ends -/

/-- A run has failed with such a failure, or has given such a result. -/
inductive EndsAs {α : Type} (P : List Arrival → Failure → Prop) (Q : α → Prop) :
    Except Failure α × Session → Prop
  | failed {failure : Failure} {s' : Session} (h : P s'.incoming failure) :
    EndsAs P Q (.error failure, s')
  | gave {a : α} {s' : Session} (h : Q a) : EndsAs P Q (.ok a, s')

/-- A run fails with nothing but such failures and gives nothing but such results. -/
def Ends {α : Type} (P : List Arrival → Failure → Prop) (Q : α → Prop)
    (run : Session → Except Failure α × Session) : Prop := ∀ s, EndsAs P Q (run s)

/-- Any result. -/
def AnyResult {α : Type} : α → Prop := fun _ => True

section Rules

variable {α β : Type} {P P' : List Arrival → Failure → Prop} {Q R : α → Prop}

theorem EndsAs.failure {ending : Except Failure α × Session} (h : EndsAs P Q ending)
    {failure : Failure} (hfailed : ending.1 = .error failure) : P ending.2.incoming failure := by
  cases h with
  | failed hP =>
    cases hfailed
    exact hP
  | gave => cases hfailed

theorem EndsAs.result {ending : Except Failure α × Session} (h : EndsAs P Q ending) {a : α}
    (hgave : ending.1 = .ok a) : Q a := by
  cases h with
  | failed => cases hgave
  | gave hQ =>
    cases hgave
    exact hQ

theorem Ends.mono {run : Session → Except Failure α × Session} (h : Ends P Q run)
    (hP : ∀ {incoming failure}, P incoming failure → P' incoming failure)
    (hQ : ∀ {a}, Q a → R a) : Ends P' R run := by
  intro s
  have hs := h s
  generalize run s = ending at hs
  cases hs with
  | failed hfailed => exact .failed (hP hfailed)
  | gave hgave => exact .gave (hQ hgave)

theorem ends_pure {a : α} (h : Q a) : Ends P Q (Action.perform (pure a)) := fun _ => .gave h

theorem ends_get : Ends P AnyResult (Action.perform get) := fun _ => .gave trivial

theorem Ends.bind {first : Action α} {second : α → Action β} {R : β → Prop}
    (h1 : Ends P Q first.perform) (h2 : ∀ a, Q a → Ends P R (second a).perform) :
    Ends P R (Action.perform (first >>= second)) := by
  intro s
  have hfirst := h1 s
  rcases Action.perform_bind_cases first second s with ⟨failure, s', hp, heq⟩ | ⟨a, s', hp, heq⟩
  · rw [heq]
    rw [hp] at hfirst
    exact .failed (hfirst.failure rfl)
  · rw [heq]
    rw [hp] at hfirst
    exact h2 a (hfirst.result rfl) s'

/-- What comes behind an action matters for the results that the action can give. -/
theorem Ends.bind_congr {first : Action α} {second second' : α → Action β}
    (h : Ends P Q first.perform)
    (hsame : ∀ a, Q a → ∀ s, (second a).perform s = (second' a).perform s) (s : Session) :
    Action.perform (first >>= second) s = Action.perform (first >>= second') s := by
  have hfirst := h s
  rw [Action.perform_bind, Action.perform_bind]
  generalize first.perform s = ending at hfirst
  cases hfirst with
  | failed => rfl
  | gave hgave => exact hsame _ hgave _

end Rules

/-! ## Requests and waits -/

theorem head?_of_receive_closed {deadline now later : Nat} {incoming rest : List Arrival}
    (h : receive deadline now incoming = (.closed, later, rest)) : rest.head? = some .hangup := by
  fun_induction receive deadline now incoming with
  | case1 => cases h
  | case2 now rest ih => exact ih h
  | case3 => cases h
  | case4 now duration rest _ ih => exact ih h
  | case5 => cases h
  | case6 now moment rest _ ih => exact ih h
  | case7 => cases h
  | case8 => cases h
  | case9 now rest =>
    cases h
    rfl

theorem ends_transmit (bytes : Bytes) (timeout : Nat) :
    Ends Failure.OfLink AnyResult (transmit bytes timeout).perform := by
  intro s
  rw [transmit, Action.perform_ofPerform]
  dsimp only
  split
  · split
    · exact .gave trivial
    · exact .failed .broken
  · exact .failed .broken
  · exact .failed .stuck
  · exact .failed .late

theorem ends_deliver (request : Frame) :
    Ends Failure.OfLink AnyResult (deliver request).perform := by
  refine .bind ends_get fun s _ => .bind (.bind ends_get fun _ _ => ends_transmit _ _) fun _ _ =>
    .bind (ends_transmit _ _) fun _ _ => ?_
  split
  · exact .bind (ends_transmit _ _) fun _ _ => ends_pure trivial
  · exact ends_pure trivial

theorem ends_request (type : MessageType) (payload : Bytes) :
    Ends Failure.OfLink AnyResult (request type payload).perform := by
  intro s
  rw [perform_request]
  exact ends_deliver _ _

/-- **A wait fails with the link and gives an acknowledgement or a refusal.** -/
theorem endsAs_awaitFrom (sequence : UInt16) (deadline : Nat) (s : Session) :
    EndsAs Failure.OfLink (fun reply : Reply => reply.type.IsReply)
      (awaitFrom sequence deadline s) := by
  fun_induction awaitFrom sequence deadline s with
  | case1 s verdict ready hr reply hv =>
    obtain ⟨f, data, -, htype, -, rfl⟩ := Verdict.reply?_eq_some_iff.mp hv
    exact .gave htype
  | case2 s verdict ready hr hv ih => exact ih
  | case3 s hr bytes clock incoming hb ih => exact ih
  | case4 s hr clock incoming hb => exact .failed .broken
  | case5 s hr clock incoming hb => exact .failed (.ended (head?_of_receive_closed hb))
  | case6 s hr clock incoming hb => exact .failed .late

theorem ends_awaitReply (sequence : UInt16) (timeout : Nat) :
    Ends Failure.OfLink (fun reply : Reply => reply.type.IsReply)
      (awaitReply sequence timeout).perform := fun s => endsAs_awaitFrom sequence _ s

theorem ends_awaitAcknowledgement (sequence : UInt16) (timeout : Nat) :
    Ends Failure.OfLink MessageType.IsReply (awaitAcknowledgement sequence timeout).perform :=
  .bind (ends_awaitReply sequence timeout) fun _ h => ends_pure h

/-- **An exchange fails with the link and gives an acknowledgement or a refusal.** -/
theorem ends_exchange (type : MessageType) (payload : Bytes) (timeout : Settings → Nat) :
    Ends Failure.OfLink (fun reply : Reply => reply.type.IsReply)
      (exchange type payload timeout).perform :=
  .bind (ends_request type payload) fun _ _ => .bind ends_get fun _ _ => ends_awaitReply _ _

/-! ## Control operations -/

/-- The failures of an exchange with a device that need not do what it is asked. -/
def Failure.OfExchange (incoming : List Arrival) (failure : Failure) : Prop :=
  failure.OfLink incoming ∨ failure.OfAnswer

theorem Failure.OfExchange.ofCall {incoming : List Arrival} {failure : Failure}
    (h : failure.OfExchange incoming) : failure.OfCall incoming := by
  rcases h with h | h
  · exact .ofTalk (.ofLink h)
  · exact .ofAnswer h

theorem ends_ping : Ends Failure.OfExchange AnyResult ping.perform := by
  refine .bind ((ends_exchange _ _ _).mono .inl id) fun reply hreply => ?_
  split
  · next hne =>
    rw [hreply.eq_nack hne]
    exact fun _ => .failed (.inr .refused)
  · exact ends_pure trivial

theorem ends_exitBinaryMode : Ends Failure.OfLink AnyResult exitBinaryMode.perform :=
  .bind (ends_request _ _) fun _ _ => ends_pure trivial

theorem ends_selectRecord (index : UInt8) :
    Ends Failure.OfLink MessageType.IsReply (selectRecord index).perform :=
  .bind (ends_exchange _ _ _) fun _ h => ends_pure h

theorem Reply.ofAnswer_of_flight {reply : Reply} (hreply : reply.type.IsReply) {index : UInt8}
    {failure : Failure} (h : reply.flight index = .error failure) : failure.OfAnswer := by
  unfold Reply.flight at h
  split at h
  · next hne =>
    cases h
    rw [hreply.eq_nack hne]
    exact .refused
  · split at h
    · cases h
      exact .short _ _
    · dsimp only at h
      split at h
      · cases h
      · cases h
        exact .unreadable _

theorem Reply.ofAnswer_of_chunk {reply : Reply} (hreply : reply.type.IsReply) {failure : Failure}
    (h : reply.chunk = .error failure) : failure.OfAnswer := by
  unfold Reply.chunk Chunk.ofPayload at h
  split at h
  · next hne =>
    cases h
    rw [hreply.eq_nack hne]
    exact .refused
  · split at h
    · cases h
      exact .short _ _
    · cases h

/-- What an answer means fails as the answer does. -/
theorem ends_ofResult {α : Type} {P : List Arrival → Failure → Prop} {result : Except Failure α}
    (h : ∀ failure, result = .error failure → ∀ incoming, P incoming failure) :
    Ends P AnyResult (Action.ofResult result).perform := by
  intro s
  rw [Action.ofResult, Action.perform_ofPerform]
  cases result with
  | error failure => exact .failed (h failure rfl _)
  | ok a => exact .gave trivial

theorem ends_readInfo (index : UInt8) :
    Ends Failure.OfExchange AnyResult (readInfo index).perform :=
  .bind ((ends_exchange _ _ _).mono .inl id) fun _ hreply =>
    ends_ofResult fun _ h _ => .inr (Reply.ofAnswer_of_flight hreply h)

/-! ## Listing -/

theorem ends_poll : Ends Failure.OfTalk AnyResult poll.perform := by
  intro s
  rw [poll, Action.perform_ofPerform]
  dsimp only
  split
  · exact .failed .cancelled
  · exact .gave trivial

theorem ends_reportRange {P : List Arrival → Failure → Prop} (range : Nat) :
    Ends P AnyResult (reportRange range).perform := fun _ => .gave trivial

theorem ends_reportPosition {P : List Arrival → Failure → Prop} (position : Nat) :
    Ends P AnyResult (reportPosition position).perform := fun _ => .gave trivial

theorem ends_attempt {α : Type} {P : List Arrival → Failure → Prop} (action : Action α) :
    Ends P AnyResult action.attempt.perform := by
  intro s
  have hattempt : action.attempt.perform s
      = (.ok (action.perform s).1.toOption, (action.perform s).2) :=
    Action.perform_attempt_of_perform rfl
  rw [hattempt]
  exact .gave trivial

/-- The selection in the way in which listing and downloading use it. -/
theorem ends_selectRecord_of_talk (index : UInt8) :
    Ends Failure.OfTalk MessageType.IsReply (selectRecord index).perform :=
  (ends_selectRecord index).mono .ofLink id

/-- **Looking for a record fails with the link or is stopped.** -/
theorem ends_findRecord (index : UInt8) :
    Ends Failure.OfTalk AnyResult (findRecord index).perform := by
  refine .bind (ends_reportPosition _) fun _ _ => .bind ends_poll fun _ _ =>
    .bind (ends_selectRecord_of_talk index) fun type htype => ?_
  split
  · exact ends_pure trivial
  · next hnack =>
    rw [if_pos (htype.resolve_right hnack)]
    refine .bind ends_poll fun _ _ => .bind (ends_attempt _) fun flight? _ =>
      .bind ends_poll fun _ _ => ?_
    cases flight? with
    | some flight => exact ends_pure trivial
    | none => exact ends_pure trivial

/-- **A listing fails with the link or is stopped**, whatever the descriptions are like. -/
theorem endsAs_listing (left : Nat) (list : FlightList) (s : Session) :
    EndsAs Failure.OfTalk AnyResult ((listing left list s).1.1, (listing left list s).2) := by
  induction left generalizing list s with
  | zero => exact .gave trivial
  | succ left ih =>
    by_cases hfull : list.isFull
    · rw [listing, listFrom, if_pos hfull]
      exact .gave trivial
    · have hfound := ends_findRecord (UInt8.ofNat (recordCount - (left + 1))) s
      rw [listing_succ hfull]
      generalize (findRecord (UInt8.ofNat (recordCount - (left + 1)))).perform s = found at hfound
      cases hfound with
      | failed hfailed => exact .failed hfailed
      | @gave finding s' _ =>
        cases finding with
        | nothing => exact .gave trivial
        | unreadable => exact ih list s'
        | described flight =>
          dsimp only [listingBehind]
          cases list.push flight with
          | ok longer => exact ih longer _
          | error _ => exact .gave trivial

/-! ## Downloading -/

theorem ends_nextChunk : Ends Failure.OfCall AnyResult nextChunk.perform := by
  have hpoll : Ends Failure.OfCall AnyResult poll.perform := ends_poll.mono .ofTalk id
  have hexchange : Ends Failure.OfCall (fun reply : Reply => reply.type.IsReply)
      (exchange .getIgcData [] (·.dataTimeout)).perform :=
    (ends_exchange _ _ _).mono (fun h => .ofTalk (.ofLink h)) id
  exact .bind hpoll fun _ _ => .bind hexchange fun reply hreply => .bind hpoll fun _ _ =>
    .bind (ends_ofResult fun _ h _ => .ofAnswer (Reply.ofAnswer_of_chunk hreply h)) fun _ _ =>
      .bind (ends_reportPosition _) fun _ _ => ends_pure trivial

theorem ends_appendChunk (w : FileWriter) :
    Ends Failure.OfCall AnyResult (appendChunk w).perform :=
  .bind ends_nextChunk fun _ _ _ => .gave trivial

theorem ends_transferFrom (w : FileWriter) :
    Ends Failure.OfCall AnyResult (transferFrom w) := by
  intro s
  fun_induction transferFrom w s with
  | case1 w s failure s' h => exact .failed ((h ▸ ends_appendChunk w s).failure rfl)
  | case2 w s w' s' h => exact .gave trivial
  | case3 w s w' isLast s' h hlast ih => exact ih

theorem ends_createFile (path : String) :
    Ends Failure.OfCall AnyResult (createFile path).perform := by
  intro s
  rw [createFile, Action.perform_ofPerform]
  split
  · exact .failed (.ofStorage _)
  · exact .gave trivial

theorem ends_downloadSelected (path : String) :
    Ends Failure.OfCall AnyResult (downloadSelected path).perform :=
  .bind (ends_poll.mono .ofTalk id) fun _ _ => .bind (ends_createFile path) fun _ _ =>
    .bind (ends_reportRange _) fun _ _ =>
      .bind (ends_transferFrom _) fun _ _ _ => .gave trivial

/-- The removal of the file does not change why a download has failed. -/
theorem Ends.removingOnFailure {α : Type} {P : List Arrival → Failure → Prop} {Q : α → Prop}
    {action : Action α} (h : Ends P Q action.perform) (path : String) :
    Ends P Q (action.removingOnFailure path).perform := by
  intro s
  have hs := h s
  rw [Action.removingOnFailure, Action.perform_ofPerform]
  generalize action.perform s = ending at hs
  cases hs with
  | failed hfailed => exact .failed hfailed
  | gave hgave => exact .gave hgave

theorem ends_download (flight : Flight) (path : String) :
    Ends Failure.OfCall AnyResult (download flight path).perform := by
  have hpoll : Ends Failure.OfCall AnyResult poll.perform := ends_poll.mono .ofTalk id
  have hrest := (ends_downloadSelected path).removingOnFailure path
  refine .bind hpoll fun _ _ => .bind ((ends_selectRecord_of_talk _).mono .ofTalk id)
    fun type htype => ?_
  split
  · next hne =>
    rw [htype.eq_nack hne]
    exact .bind (Q := AnyResult) (fun _ => .failed (.ofAnswer .refused)) fun _ _ =>
      .bind hpoll fun _ _ => hrest
  · exact .bind hpoll fun _ _ => hrest

/-! ## Every call -/

/-- Why a call failed, if it did. -/
def CallResult.failure? : CallResult → Option Failure
  | operated outcome => outcome.failure?
  | prepared (.error failure) => some failure
  | sent (.error failure) => some failure
  | replied (.error failure) => some failure
  | acknowledged (.error failure) => some failure
  | _ => none

theorem Ends.of_yielding {α : Type} {Q : α → Prop} {action : Action α}
    {outcome : Except Failure α → Outcome} (h : Ends Failure.OfCall Q action.perform)
    (houtcome : ∀ result failure, (outcome result).failure? = some failure →
      result = .error failure) {s : Session} {failure : Failure}
    (hfailed : (action.yielding outcome s).1.failure? = some failure) :
    failure.OfCall (action.yielding outcome s).2.incoming :=
  (h s).failure (houtcome _ _ hfailed)

/-- **An operation fails with nothing but the failures of a call.** -/
theorem Operation.ofCall_of_failure {op : Operation} {s : Session} {failure : Failure}
    (h : (op.perform s).1.failure? = some failure) : failure.OfCall (op.perform s).2.incoming := by
  have hdone : ∀ (result : Except Failure Unit) failure,
      (Outcome.done result).failure? = some failure → result = .error failure := by
    rintro (_ | _) failure ⟨⟩
    rfl
  cases op with
  | ping => exact (ends_ping.mono Failure.OfExchange.ofCall id).of_yielding hdone h
  | exitBinaryMode =>
    exact (ends_exitBinaryMode.mono (fun h => .ofTalk (.ofLink h)) id).of_yielding hdone h
  | selectRecord index =>
    refine ((ends_selectRecord_of_talk index).mono .ofTalk id).of_yielding ?_ h
    rintro (_ | _) failure ⟨⟩
    rfl
  | readInfo index =>
    refine ((ends_readInfo index).mono Failure.OfExchange.ofCall id).of_yielding ?_ h
    rintro (_ | _) failure ⟨⟩
    rfl
  | listRecords list =>
    have hlisted : ∀ {result : Except Failure Unit} {list : FlightList} {failure : Failure},
        (Outcome.listed result list).failure? = some failure → result = .error failure := by
      rintro (_ | _) list failure ⟨⟩
      rfl
    have hends := endsAs_listing recordCount list ((reportRange listRange).perform s).2
    exact .ofTalk (hends.failure (hlisted h))
  | downloadSelected path => exact (ends_downloadSelected path).of_yielding hdone h
  | download flight path => exact (ends_download flight path).of_yielding hdone h

/-- **A call fails with nothing but the failures of a call.** -/
theorem DeviceCall.ofCall_of_failure {call : DeviceCall} {s : Session} {failure : Failure}
    (h : (call.perform s).1.failure? = some failure) :
    failure.OfCall (call.perform s).2.incoming := by
  have hsent : ∀ {result : Except Failure Unit} {failure : Failure},
      (CallResult.sent result).failure? = some failure → result = .error failure := by
    rintro (_ | _) failure ⟨⟩
    rfl
  have hpiece : ∀ bytes timeout, Ends Failure.OfCall AnyResult (transmit bytes timeout).perform :=
    fun bytes timeout => (ends_transmit bytes timeout).mono (fun h => .ofTalk (.ofLink h)) id
  cases call with
  | operate op observer => exact Operation.ofCall_of_failure h
  | prepareHeader type payload => cases h
  | sendStart => exact (hpiece _ _ s).failure (hsent h)
  | sendHeader header timeout => exact (hpiece _ _ s).failure (hsent h)
  | sendStuffed bytes timeout => exact (hpiece _ _ s).failure (hsent h)
  | awaitReply sequence timeout =>
    have hreplied : ∀ {result : Except Failure Reply} {failure : Failure},
        (CallResult.replied result).failure? = some failure → result = .error failure := by
      rintro (_ | _) failure ⟨⟩
      rfl
    have hends := endsAs_awaitFrom sequence (s.clock + timeout) s
    exact .ofTalk (.ofLink (hends.failure (hreplied h)))
  | awaitAcknowledgement sequence timeout =>
    have hreplied : ∀ {result : Except Failure MessageType} {failure : Failure},
        (CallResult.acknowledged result).failure? = some failure → result = .error failure := by
      rintro (_ | _) failure ⟨⟩
      rfl
    have hends := ends_awaitAcknowledgement sequence timeout s
    exact .ofTalk (.ofLink (hends.failure (hreplied h)))

/-! ## The end of the link -/

/-- What is still to come in front of the end of the link. -/
def beforeHangup (incoming : List Arrival) : List Arrival := incoming.takeWhile (· ≠ .hangup)

theorem arrivingBytes_beforeHangup_receive (deadline now : Nat) (incoming : List Arrival) :
    arrivingBytes (beforeHangup incoming) = (receive deadline now incoming).1.bytes
      ++ arrivingBytes (beforeHangup (receive deadline now incoming).2.2) := by
  fun_induction receive deadline now incoming with
  | case1 => rfl
  | case2 now rest ih => exact ih
  | case3 now byte bytes rest =>
    show (byte :: bytes) ++ arrivingBytes (beforeHangup rest) = (byte :: bytes).take readSize
      ++ ((byte :: bytes).drop readSize ++ arrivingBytes (beforeHangup rest))
    rw [← List.append_assoc, List.take_append_drop]
  | case4 now duration rest _ ih => exact ih
  | case5 => rfl
  | case6 now moment rest _ ih => exact ih
  | case7 => rfl
  | case8 => rfl
  | case9 => rfl

/-- The end of the link is never read away. -/
theorem hangup_mem_receive (deadline now : Nat) (incoming : List Arrival) :
    .hangup ∈ (receive deadline now incoming).2.2 ↔ .hangup ∈ incoming := by
  fun_induction receive deadline now incoming <;> simp_all

/-- Between two sessions the link was read on, but not past its end. -/
structure Session.ReadsOn (s s' : Session) : Prop where
  hangup : .hangup ∈ s'.incoming ↔ .hangup ∈ s.incoming
  bytes : ∃ events, s'.history = s.history ++ events ∧
    arrivingBytes (beforeHangup s.incoming)
      = receivedBytes events ++ arrivingBytes (beforeHangup s'.incoming)

namespace Session.ReadsOn

variable {s s' s'' : Session}

theorem trans (h : s.ReadsOn s') (h' : s'.ReadsOn s'') : s.ReadsOn s'' where
  hangup := h'.hangup.trans h.hangup
  bytes := by
    obtain ⟨events, heq, hbytes⟩ := h.bytes
    obtain ⟨events', heq', hbytes'⟩ := h'.bytes
    refine ⟨events ++ events', by rw [heq', heq, List.append_assoc], ?_⟩
    rw [hbytes, hbytes', receivedBytes_append, List.append_assoc]

theorem of_unheard (h : s.Unheard s') : s.ReadsOn s' where
  hangup := by rw [h.incoming]
  bytes := by
    obtain ⟨events, heq, hreceived, -⟩ := h.heard.adds
    exact ⟨events, heq, by rw [hreceived, h.incoming, List.nil_append]⟩

/-- A link at its end has been read up to its end. -/
theorem of_closed (h : s.ReadsOn s') (hend : s'.incoming.head? = some .hangup) :
    .hangup ∈ s.incoming ∧
      receivedBytes (s.stretch s') = arrivingBytes (beforeHangup s.incoming) := by
  obtain ⟨rest, hrest⟩ := List.head?_eq_some_iff.mp hend
  refine ⟨h.hangup.mp (hrest ▸ List.mem_cons_self), ?_⟩
  obtain ⟨events, heq, hbytes⟩ := h.bytes
  have hnone : arrivingBytes (beforeHangup s'.incoming) = [] := by
    rw [hrest]
    rfl
  rw [stretch_eq heq, hbytes, hnone, List.append_nil]

end Session.ReadsOn

theorem readsOn_awaitFrom (sequence : UInt16) (deadline : Nat) (s : Session) :
    s.ReadsOn (awaitFrom sequence deadline s).2 := by
  have hwaited : ∀ {s : Session} {reception : Reception} {clock : Nat} {incoming : List Arrival},
      receive deadline s.clock s.incoming = (reception, clock, incoming) →
      reception.bytes = [] → s.ReadsOn (s.waited clock incoming) := by
    intro s reception clock incoming h hnone
    have hmem := hangup_mem_receive deadline s.clock s.incoming
    have hbytes := arrivingBytes_beforeHangup_receive deadline s.clock s.incoming
    rw [h] at hmem hbytes
    exact ⟨hmem, [.waited clock], history_note _ _, hbytes.trans (by rw [hnone]; rfl)⟩
  fun_induction awaitFrom sequence deadline s with
  | case1 s verdict ready hr _ _ => exact ⟨.rfl, [.examined verdict], history_note _ _, rfl⟩
  | case2 s verdict ready hr _ ih =>
    have hexamine : s.ReadsOn (s.examine verdict ready) :=
      ⟨.rfl, [.examined verdict], history_note _ _, rfl⟩
    exact hexamine.trans ih
  | case3 s hr bytes clock incoming hb ih =>
    have hmem := hangup_mem_receive deadline s.clock s.incoming
    have hbytes := arrivingBytes_beforeHangup_receive deadline s.clock s.incoming
    rw [hb] at hmem hbytes
    obtain ⟨events, heq, hreceived, -⟩ := (Heard.absorb hb).adds
    have habsorb : s.ReadsOn (s.absorb bytes clock incoming) :=
      ⟨hmem, events, heq, hreceived.symm ▸ hbytes⟩
    exact habsorb.trans ih
  | case4 s hr clock incoming hb => exact hwaited hb rfl
  | case5 s hr clock incoming hb => exact hwaited hb rfl
  | case6 s hr clock incoming hb => exact hwaited hb rfl

/-- **However a call ends, the link is read on, but not past its end.** -/
theorem DeviceCall.readsOn (call : DeviceCall) (s : Session) : s.ReadsOn (call.perform s).2 := by
  obtain ⟨waits, hwaits⟩ := call.leads callSpanning_waitsOnce s
  generalize (call.perform s).2 = s' at hwaits
  induction hwaits with
  | quiet hquiet => exact .of_unheard hquiet
  | cons hquiet hwait _ ih =>
    obtain ⟨sequence, deadline, -, rfl⟩ := hwait
    exact (ReadsOn.of_unheard hquiet).trans ((readsOn_awaitFrom sequence deadline _).trans ih)

/-! ## Branches that are never reached -/

/-- The search for a record, with something else done when the selection gets another answer. -/
def findRecordOr (other : MessageType → Action Finding) (index : UInt8) : Action Finding := do
  reportPosition (index.toNat % listRange)
  poll
  let type ← selectRecord index
  if type = .nack then pure .nothing
  else if type = .ack then
    poll
    let flight? ← (readInfo index).attempt
    poll
    match flight? with
    | some flight => pure (.described flight)
    | none => pure .unreadable
  else other type

theorem perform_findRecordOr (other : MessageType → Action Finding) (index : UInt8) (s : Session) :
    (findRecordOr other index).perform s = (findRecord index).perform s := by
  refine (ends_reportPosition (P := Failure.OfTalk) _).bind_congr (fun _ _ s => ?_) s
  refine ends_poll.bind_congr (fun _ _ s => ?_) s
  refine (ends_selectRecord index).bind_congr (fun type htype s => ?_) s
  rcases htype with rfl | rfl <;> rfl

/-- The listing of the records that are left, with something else done when a selection gets another
answer, and when a list that is not full does not take a flight. -/
def listFromOr (other : MessageType → Action Finding)
    (rejected : FlightList → Session → Except Failure Unit × FlightList × Session) :
    Nat → FlightList → Session → Except Failure Unit × FlightList × Session
  | 0, list, s => (.ok (), list, s)
  | left + 1, list, s =>
    if list.isFull then (.ok (), list, s)
    else
      match (findRecordOr other (UInt8.ofNat (recordCount - (left + 1)))).perform s with
      | (.error failure, s') => (.error failure, list, s')
      | (.ok .nothing, s') => (.ok (), list, s')
      | (.ok .unreadable, s') => listFromOr other rejected left list s'
      | (.ok (.described flight), s') =>
        match list.push flight with
        | .ok list' => listFromOr other rejected left list' (s'.note (.listed flight))
        | .error _ => rejected list s'

/-- **Neither branch of a listing is ever reached**: with anything else in them the listing is the
same. -/
theorem listFromOr_eq (other : MessageType → Action Finding)
    (rejected : FlightList → Session → Except Failure Unit × FlightList × Session) (left : Nat)
    (list : FlightList) (s : Session) :
    listFromOr other rejected left list s = listFrom left list s := by
  induction left generalizing list s with
  | zero => rfl
  | succ left ih =>
    rw [listFromOr, listFrom, perform_findRecordOr]
    by_cases hfull : list.isFull
    · rw [if_pos hfull, if_pos hfull]
    · rw [if_neg hfull, if_neg hfull]
      rcases (findRecord (UInt8.ofNat (recordCount - (left + 1)))).perform s with
        ⟨_ | _ | _ | flight, s'⟩
      · rfl
      · rfl
      · exact ih list s'
      · obtain ⟨list', hpush⟩ :=
          (list.push_eq_ok_iff flight).mpr (Bool.eq_false_iff.mpr hfull)
        simp only [hpush]
        exact ih list' _

/-- The description of one record, with something else done when the selection gets another
answer. -/
def describeRecordOr (other : MessageType → Session → Except Report Flight × Session)
    (index : UInt8) (s : Session) : Except Report Flight × Session :=
  match (selectRecord index).perform s with
  | (.error failure, s') => (.error (.ofFailure failure), s')
  | (.ok type, s') =>
    if type = .ack then
      match (readInfo index).perform s' with
      | (.error failure, s'') =>
        (.error ((Report.ofFailure failure).within
          s!"Failed to read info of record #{index.toNat}"), s'')
      | (.ok flight, s'') => (.ok flight, s'')
    else if type = .nack then
      (.error (.ofSentence s!"No record #{index.toNat} on the device"), s')
    else other type s'

theorem describeRecordOr_eq (other : MessageType → Session → Except Report Flight × Session)
    (index : UInt8) (s : Session) : describeRecordOr other index s = describeRecord index s := by
  rw [describeRecordOr, describeRecord]
  have hselected := ends_selectRecord index s
  generalize (selectRecord index).perform s = selected at hselected
  cases hselected with
  | failed => rfl
  | gave htype => rcases htype with rfl | rfl <;> rfl

/-! ## All failures -/

/--
**What calls fail with, and what they never fail with.**

Whatever the device sends, however the link, the tree of files and the observer behave, and in
whatever state the connection is: an answer that a call did not expect is a refusal, and no call
fails with a frame that cannot be read. A call finds the link closed only when all that was in front
of the end of the link has been read and the end is reached. Waits and selections return
acknowledgements and refusals only, so a listing ends with the link's failures or because it is
stopped; whatever stands in the code for other answers, and for a list with room that does not take
a flight, makes no difference.
-/
theorem failures_of_calls (s : Session) :
    (∀ (call : DeviceCall) (failure : Failure), (call.perform s).1.failure? = some failure →
      (∀ type, failure = .unexpectedResponse type → type = .nack) ∧
      (∀ fault, failure ≠ .malformedFrame fault) ∧
      (failure = .closed →
        (call.perform s).2.incoming.head? = some .hangup ∧ .hangup ∈ s.incoming ∧
        receivedBytes (s.stretch (call.perform s).2)
          = arrivingBytes (beforeHangup s.incoming))) ∧
    (∀ sequence timeout type,
      ((awaitAcknowledgement sequence timeout).perform s).1 = .ok type →
        type = .ack ∨ type = .nack) ∧
    (∀ index type, ((selectRecord index).perform s).1 = .ok type → type = .ack ∨ type = .nack) ∧
    (∀ list failure, (listRecords list s).1 = .error failure →
      failure ∈ [.system .link, .system .writeZero, .timeout, .closed, .cancelled]) ∧
    (∀ other rejected left list,
      listFromOr other rejected left list s = listFrom left list s) ∧
    ∀ other index, describeRecordOr other index s = describeRecord index s := by
  refine ⟨fun call failure h => ?_, fun sequence timeout type h => ?_, fun index type h => ?_,
    fun list failure h => ?_, fun other rejected left list => listFromOr_eq other rejected left list s,
    fun other index => describeRecordOr_eq other index s⟩
  · have hcall := DeviceCall.ofCall_of_failure h
    refine ⟨?_, ?_, ?_⟩
    · rintro type rfl
      exact hcall.eq_nack
    · rintro fault rfl
      exact hcall.not_malformedFrame
    · rintro rfl
      exact ⟨hcall.head?_of_closed, (call.readsOn s).of_closed hcall.head?_of_closed⟩
  · exact (ends_awaitAcknowledgement sequence timeout s).result h
  · exact (ends_selectRecord index s).result h
  · exact ((endsAs_listing recordCount list _).failure h).mem

end FlightRecorder
