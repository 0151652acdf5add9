import FlightRecorder.Device.Download
import FlightRecorder.Device.Listing
import FlightRecorder.Proofs.Device.Asking

/-!
# What an action leaves alone

However an action ends, some things are as they were before it. A relation between the session
before and the session behind it is shown of the smallest actions and then holds of everything that
is put together from them, if it is reflexive and transitive.

* `Session.stretch` — what happened between two sessions of one run
* `Session.Adds` — what may have happened
* `Action.Leads` — a relation between before and behind, for every end of an action
* `Session.Told` — something was sent or reported
* `Session.Talked` — the link and the observer may have been used, the tree of files was not
* `leads_talked_exchange`, `leads_talked_nextChunk` — the operations that only talk
-/

namespace FlightRecorder

/-! ## Stretches of history -/

/-- What happened between two sessions of one run, earliest first. -/
def Session.stretch (s s' : Session) : List Event := s'.history.drop s.history.length

theorem Session.stretch_eq {s s' : Session} {events : List Event}
    (h : s'.history = s.history ++ events) : s.stretch s' = events := by
  rw [stretch, h, List.drop_left]

/-- The later session goes on with the history of the earlier one, by such events. -/
def Session.Adds (P : Event → Prop) (s s' : Session) : Prop :=
  ∃ events, s'.history = s.history ++ events ∧ ∀ event ∈ events, P event

namespace Session.Adds

variable {P Q : Event → Prop} {s s' s'' : Session}

theorem refl (P : Event → Prop) (s : Session) : s.Adds P s :=
  ⟨[], (List.append_nil _).symm, fun _ hmem => by cases hmem⟩

theorem trans (h : s.Adds P s') (h' : s'.Adds P s'') : s.Adds P s'' := by
  obtain ⟨events, heq, hall⟩ := h
  obtain ⟨events', heq', hall'⟩ := h'
  refine ⟨events ++ events', by rw [heq', heq, List.append_assoc], fun event hmem => ?_⟩
  rcases List.mem_append.mp hmem with hmem | hmem
  · exact hall event hmem
  · exact hall' event hmem

theorem mono (h : s.Adds P s') (hPQ : ∀ event, P event → Q event) : s.Adds Q s' := by
  obtain ⟨events, heq, hall⟩ := h
  exact ⟨events, heq, fun event hmem => hPQ event (hall event hmem)⟩

theorem of_note {event : Event} (hjournal : s'.journal = event :: s.journal) (hevent : P event) :
    s.Adds P s' := by
  refine ⟨[event], history_of_journal hjournal, fun other hmem => ?_⟩
  rw [List.mem_singleton.mp hmem]
  exact hevent

theorem of_listened (h : s.Listened s') : s.Adds Event.IsHeard s' := by
  obtain ⟨events, hjournal, hheard⟩ := h.journal
  refine ⟨events.reverse, ?_, fun event hmem => hheard event (List.mem_reverse.mp hmem)⟩
  rw [history, hjournal, List.reverse_append]
  rfl

/-- Events that a reading of the history passes over leave what it reads as it was. -/
theorem filterMap_eq {α : Type} {f : Event → Option α} (h : s.Adds P s')
    (hnone : ∀ event, P event → f event = none) :
    s'.history.filterMap f = s.history.filterMap f := by
  obtain ⟨events, heq, hall⟩ := h
  have hpassed : events.filterMap f = [] :=
    List.filterMap_eq_nil_iff.mpr fun event hmem => hnone event (hall event hmem)
  rw [heq, List.filterMap_append, hpassed, List.append_nil]

end Session.Adds

/-! ## Actions and relations -/

/-- However an action ends, the session behind it stands in a relation to the session before it. -/
def Action.Leads {α : Type} (R : Session → Session → Prop) (action : Action α) : Prop :=
  ∀ s, R s (action.perform s).2

namespace Action

variable {α β : Type} {R : Session → Session → Prop}

/-- A sequence of two actions ends with the first one, or goes on with the second one. -/
theorem perform_bind_cases (first : Action α) (second : α → Action β) (s : Session) :
    (∃ failure s', first.perform s = (.error failure, s') ∧
      Action.perform (first >>= second) s = (.error failure, s')) ∨
    ∃ a s', first.perform s = (.ok a, s') ∧
      Action.perform (first >>= second) s = (second a).perform s' := by
  rw [perform_bind]
  rcases first.perform s with ⟨failure | a, s'⟩
  · exact .inl ⟨failure, s', rfl, rfl⟩
  · exact .inr ⟨a, s', rfl, rfl⟩

/-- A sequence of two actions has succeeded only if both have. -/
theorem exists_of_perform_bind_eq_ok {first : Action α} {second : α → Action β} {s s' : Session}
    {b : β} (h : Action.perform (first >>= second) s = (.ok b, s')) :
    ∃ a middle, first.perform s = (.ok a, middle) ∧ (second a).perform middle = (.ok b, s') := by
  rcases perform_bind_cases first second s with ⟨failure, middle, -, heq⟩ | ⟨a, middle, hfirst, heq⟩
  · rw [heq] at h
    cases h
  · exact ⟨a, middle, hfirst, heq.symm.trans h⟩

theorem Leads.bind {first : Action α} {second : α → Action β}
    (htrans : ∀ {s s' s''}, R s s' → R s' s'' → R s s'') (h1 : first.Leads R)
    (h2 : ∀ a, (second a).Leads R) : Leads R (first >>= second) := by
  intro s
  have hfirst := h1 s
  rcases perform_bind_cases first second s with ⟨failure, s', hp, heq⟩ | ⟨a, s', hp, heq⟩
  · rw [hp] at hfirst
    rw [heq]
    exact hfirst
  · rw [hp] at hfirst
    rw [heq]
    exact htrans hfirst (h2 a s')

theorem Leads.of_perform {action : Action α} (h : action.Leads R) {s s' : Session}
    {result : Except Failure α} (hperform : action.perform s = (result, s')) : R s s' := by
  have hs := h s
  rw [hperform] at hs
  exact hs

theorem leads_pure (hrefl : ∀ s, R s s) (a : α) : Leads R (pure a : Action α) := fun s => hrefl s

theorem leads_get (hrefl : ∀ s, R s s) : Leads R (get : Action Session) := fun s => hrefl s

theorem leads_ofResult (hrefl : ∀ s, R s s) (result : Except Failure α) :
    Leads R (ofResult result) := fun s => hrefl s

theorem perform_attempt_of_perform {action : Action α} {s s' : Session} {result : Except Failure α}
    (h : action.perform s = (result, s')) :
    action.attempt.perform s = (.ok result.toOption, s') := by
  rw [attempt, perform_ofPerform, h]
  cases result <;> rfl

theorem Leads.attempt {action : Action α} (h : action.Leads R) : Leads R action.attempt := by
  intro s
  have hs := h s
  rw [Action.attempt, perform_ofPerform]
  rcases hp : action.perform s with ⟨result, s'⟩
  rw [hp] at hs
  cases result <;> exact hs

end Action

/-! ## Requests and waits -/

/-- Sends a request that has its number. -/
def deliver (request : Frame) : Action UInt16 := do
  let s ← get
  sendStart
  sendHeader request.header s.settings.controlTimeout
  if request.payload ≠ [] then sendStuffed request.payload s.settings.controlTimeout
  pure request.header.sequence

/-- A request is numbered and then sent. -/
theorem perform_request (type : MessageType) (payload : Bytes) (s : Session) :
    (request type payload).perform s
      = (deliver (.build s.nextSequence type payload)).perform
          (s.issuing (.build s.nextSequence type payload)) := rfl

section Requests

variable {R : Session → Session → Prop}

/-- Sending a piece changes the link and notes what was taken; a link that stalls lets the time of the
piece run out. -/
theorem leads_transmit (htrans : ∀ {s s' s''}, R s s' → R s' s'' → R s s'')
    (hsent : ∀ s outgoing taken,
      R s (({ s with outgoing := outgoing } : Session).note (.sent taken)))
    (hwaited : ∀ s moment, R s (s.waitUntil moment)) (bytes : Bytes) (timeout : Nat) :
    (transmit bytes timeout).Leads R := by
  intro s
  rw [transmit, Action.perform_ofPerform]
  dsimp only
  split
  · split <;> exact hsent _ _ _
  · exact hsent _ _ _
  · exact hsent _ _ _
  · exact htrans (hsent _ _ _) (hwaited _ _)

theorem leads_deliver (hrefl : ∀ s, R s s) (htrans : ∀ {s s' s''}, R s s' → R s' s'' → R s s'')
    (htransmit : ∀ bytes timeout, (transmit bytes timeout).Leads R) (request : Frame) :
    (deliver request).Leads R := by
  refine .bind htrans (Action.leads_get hrefl) fun s => ?_
  refine .bind htrans (.bind htrans (Action.leads_get hrefl) fun _ => htransmit _ _) fun _ =>
    .bind htrans (htransmit _ _) fun _ => ?_
  split
  · exact .bind htrans (htransmit _ _) fun _ => Action.leads_pure hrefl _
  · exact Action.leads_pure hrefl _

theorem leads_request (hrefl : ∀ s, R s s) (htrans : ∀ {s s' s''}, R s s' → R s' s'' → R s s'')
    (hissuing : ∀ s request, R s (s.issuing request))
    (htransmit : ∀ bytes timeout, (transmit bytes timeout).Leads R) (type : MessageType)
    (payload : Bytes) : (request type payload).Leads R := by
  intro s
  rw [perform_request]
  exact htrans (hissuing s _) (leads_deliver hrefl htrans htransmit _ _)

/-- An exchange ends with its request, or goes on to the wait for the reply. -/
theorem perform_exchange_cases (type : MessageType) (payload : Bytes) (timeout : Settings → Nat)
    (s : Session) :
    (∃ failure s', (request type payload).perform s = (.error failure, s') ∧
      (exchange type payload timeout).perform s = (.error failure, s')) ∨
    ∃ sequence s', (request type payload).perform s = (.ok sequence, s') ∧
      (exchange type payload timeout).perform s
        = awaitFrom sequence (s'.clock + timeout s'.settings) s' :=
  Action.perform_bind_cases (request type payload)
    (fun sequence => do let s ← get; awaitReply sequence (timeout s.settings)) s

theorem leads_exchange_of_await (hrefl : ∀ s, R s s)
    (htrans : ∀ {s s' s''}, R s s' → R s' s'' → R s s'')
    (hawait : ∀ sequence deadline s, R s (awaitFrom sequence deadline s).2) {type : MessageType}
    {payload : Bytes} (hrequest : (request type payload).Leads R) (timeout : Settings → Nat) :
    (exchange type payload timeout).Leads R :=
  .bind htrans hrequest fun _ =>
    .bind htrans (Action.leads_get hrefl) fun _ s => hawait _ _ s

theorem leads_exchange (hrefl : ∀ s, R s s) (htrans : ∀ {s s' s''}, R s s' → R s' s'' → R s s'')
    (hissuing : ∀ s request, R s (s.issuing request))
    (htransmit : ∀ bytes timeout, (transmit bytes timeout).Leads R)
    (hlistened : ∀ {s s'}, s.Listened s' → R s s') (type : MessageType) (payload : Bytes)
    (timeout : Settings → Nat) : (exchange type payload timeout).Leads R :=
  leads_exchange_of_await hrefl htrans
    (fun sequence deadline s => hlistened (listened_awaitFrom sequence deadline s))
    (leads_request hrefl htrans hissuing htransmit type payload) timeout

end Requests

/-! ## Sending and reporting -/

/-- What is noted when bytes are sent and when the observer is asked or told something. -/
def Event.IsTold : Event → Prop
  | waited _ => True
  | sent _ => True
  | polled _ => True
  | rangeReported _ => True
  | positionReported _ => True
  | _ => False

/-- Between two sessions nothing was done but sending and reporting. -/
structure Session.Told (s s' : Session) : Prop where
  storage : s'.storage = s.storage
  adds : s.Adds Event.IsTold s'

open Session FlightRecorder.Action

theorem leads_told_poll : poll.Leads Told := by
  intro s
  rw [poll, perform_ofPerform]
  dsimp only
  split <;> exact ⟨rfl, .of_note rfl trivial⟩

theorem leads_told_reportPosition (position : Nat) : (reportPosition position).Leads Told :=
  fun _ => ⟨rfl, .of_note rfl trivial⟩

theorem leads_told_transmit (bytes : Bytes) (timeout : Nat) :
    (transmit bytes timeout).Leads Told :=
  leads_transmit (fun h h' => ⟨h'.storage.trans h.storage, h.adds.trans h'.adds⟩)
    (fun _ _ _ => ⟨rfl, .of_note rfl trivial⟩) (fun _ _ => ⟨rfl, .of_note rfl trivial⟩) bytes timeout

/-! ## Nothing but talking -/

/-- No file is created. -/
def Event.CreatesNothing (event : Event) : Prop := ∀ place, event ≠ .created place

/-- Between two sessions the tree of files was left alone, whatever was said to the device and to
the observer. -/
structure Session.Talked (s s' : Session) : Prop where
  storage : s'.storage = s.storage
  adds : s.Adds Event.CreatesNothing s'

namespace Session.Talked

theorem refl (s : Session) : s.Talked s := ⟨rfl, .refl _ s⟩

theorem trans {s s' s'' : Session} (h : s.Talked s') (h' : s'.Talked s'') : s.Talked s'' :=
  ⟨h'.storage.trans h.storage, h.adds.trans h'.adds⟩

theorem of_told {s s' : Session} (h : s.Told s') : s.Talked s' :=
  ⟨h.storage, h.adds.mono fun event htold place hcreated => by
    rw [hcreated] at htold
    exact htold⟩

theorem of_listened {s s' : Session} (h : s.Listened s') : s.Talked s' :=
  ⟨h.storage, (Adds.of_listened h).mono fun event hheard place hcreated => by
    rw [hcreated] at hheard
    exact hheard⟩

theorem of_issuing (s : Session) (request : Frame) : s.Talked (s.issuing request) :=
  ⟨rfl, .of_note rfl fun _ hcreated => by cases hcreated⟩

end Session.Talked

theorem leads_talked_poll : poll.Leads Talked := fun s => .of_told (leads_told_poll s)

theorem leads_talked_exchange (type : MessageType) (payload : Bytes) (timeout : Settings → Nat) :
    (exchange type payload timeout).Leads Talked :=
  leads_exchange Talked.refl Talked.trans Talked.of_issuing
    (fun bytes limit s => .of_told (leads_told_transmit bytes limit s)) .of_listened type payload
    timeout

theorem leads_talked_nextChunk : nextChunk.Leads Talked :=
  .bind Talked.trans leads_talked_poll fun _ =>
    .bind Talked.trans (leads_talked_exchange _ _ _) fun _ =>
      .bind Talked.trans leads_talked_poll fun _ =>
        .bind Talked.trans (leads_ofResult Talked.refl _) fun _ =>
          .bind Talked.trans (fun s => .of_told (leads_told_reportPosition _ s)) fun _ =>
            leads_pure Talked.refl _

end FlightRecorder
