import FlightRecorder.Proofs.Device.Observing

/-!
# Stopping an operation

Listing and downloading ask the observer whether to go on: before each request, and behind each
reply. So every request has his consent, given after the request before it, and when he withdraws
his consent nothing happens any more but the return.

* `Consent`, `Consent.behind?` — whether the observer has agreed to the next request
* `Consent.exists_polled_of_given`, `Consent.eq_nil_of_polled_true` — what the history of an
  operation that keeps to it looks like
* `Session.Heeded`, `Heeds` — an operation that keeps to it, however it ends
* `heeds_exchange`, `heeds_nextChunk`, `heeds_findRecord` — the steps of listing and downloading
* `LongOperation.stops_when_told` — every listing and every download
-/

namespace FlightRecorder

open Session

/-! ## Consent -/

/-- Whether the observer has agreed to the next request. -/
inductive Consent
  /-- He was not asked since the last request. -/
  | pending
  /-- He was asked and lets the operation go on. -/
  | given
  /-- He stops the operation. -/
  | withdrawn
  deriving DecidableEq, Repr

namespace Consent

/-- The consent behind one more event, if the event may happen. -/
def next? : Consent → Event → Option Consent
  | withdrawn, _ => none
  | _, .polled true => some withdrawn
  | _, .polled false => some given
  | given, .issued _ => some pending
  | pending, .issued _ => none
  | c, _ => some c

/-- The consent behind a stretch of history, if all of it may happen. -/
def behind? (c : Consent) (events : List Event) : Option Consent := events.foldlM next? c

/-- The operation has not been stopped. -/
def IsOpen (c : Consent) : Prop := c ≠ withdrawn

/-- The next request is agreed to. -/
def IsGiven (c : Consent) : Prop := c = given

theorem IsGiven.isOpen {c : Consent} (h : c.IsGiven) : c.IsOpen := by
  rintro rfl
  cases h

theorem behind?_cons (c : Consent) (event : Event) (events : List Event) :
    c.behind? (event :: events) = (c.next? event).bind (·.behind? events) := List.foldlM_cons

theorem behind?_append (c : Consent) (events events' : List Event) :
    c.behind? (events ++ events') = (c.behind? events).bind (·.behind? events') :=
  List.foldlM_append

/-- Nothing may happen any more once the operation has been stopped. -/
theorem eq_nil_of_withdrawn {events : List Event} {c : Consent}
    (h : withdrawn.behind? events = some c) : events = [] ∧ c = withdrawn := by
  cases events with
  | nil => exact ⟨rfl, (Option.some.inj h).symm⟩
  | cons event events => cases h

/-- The observer withdraws his consent at the end of the history or not at all. -/
theorem eq_nil_of_polled_true {c c' : Consent} {before after : List Event}
    (h : c.behind? (before ++ .polled true :: after) = some c') : after = [] ∧ c' = withdrawn := by
  rw [behind?_append] at h
  obtain ⟨middle, -, hrest⟩ := Option.bind_eq_some_iff.mp h
  cases middle with
  | withdrawn => cases hrest
  | pending => exact eq_nil_of_withdrawn hrest
  | given => exact eq_nil_of_withdrawn hrest

/-- Consent is there because the observer has just given it, or because it has not been used. -/
theorem eq_of_next?_eq_given {c : Consent} {event : Event} (h : c.next? event = some given) :
    event = .polled false ∨ (c = given ∧ issuedRequests [event] = []) := by
  unfold next? at h
  split at h
  · cases h
  · cases h
  · exact .inl rfl
  · cases h
  · cases h
  · next hissued _ =>
    cases h
    refine .inr ⟨rfl, ?_⟩
    cases event with
    | issued request => exact absurd rfl (hissued request rfl)
    | _ => rfl

/-- Consent that is there was there before, or was given behind the last request. -/
theorem exists_polled_of_given {c : Consent} {events : List Event}
    (h : c.behind? events = some given) :
    (c = given ∧ issuedRequests events = []) ∨
      ∃ front gap, events = front ++ .polled false :: gap ∧ issuedRequests gap = [] := by
  induction events generalizing c with
  | nil => exact .inl ⟨Option.some.inj h, rfl⟩
  | cons event events ih =>
    rw [behind?_cons] at h
    obtain ⟨middle, hnext, hrest⟩ := Option.bind_eq_some_iff.mp h
    rcases ih hrest with ⟨rfl, hnone⟩ | ⟨front, gap, rfl, hgap⟩
    · rcases eq_of_next?_eq_given hnext with rfl | ⟨rfl, hevent⟩
      · exact .inr ⟨[], events, rfl, hnone⟩
      · refine .inl ⟨rfl, ?_⟩
        show issuedRequests ([event] ++ events) = []
        rw [issuedRequests_append, hevent, hnone]
        rfl
    · exact .inr ⟨event :: front, gap, rfl, hgap⟩

/-- **The consent to a request was given behind the request before.** -/
theorem exists_polled_of_issued {c : Consent} {before after : List Event} {request : Frame}
    (h : pending.behind? (before ++ .issued request :: after) = some c) :
    ∃ front gap, before = front ++ .polled false :: gap ∧ issuedRequests gap = [] := by
  rw [behind?_append] at h
  obtain ⟨middle, hbefore, hrest⟩ := Option.bind_eq_some_iff.mp h
  cases middle with
  | withdrawn => cases hrest
  | pending => cases hrest
  | given =>
    rcases exists_polled_of_given hbefore with ⟨hgiven, -⟩ | hpolled
    · cases hgiven
    · exact hpolled

/-- An operation is stopped by the observer only. -/
theorem polled_true_mem {c : Consent} (hc : c.IsOpen) {events : List Event}
    (h : c.behind? events = some withdrawn) : .polled true ∈ events := by
  induction events generalizing c with
  | nil => exact absurd (Option.some.inj h) hc
  | cons event events ih =>
    rw [behind?_cons] at h
    obtain ⟨middle, hnext, hrest⟩ := Option.bind_eq_some_iff.mp h
    by_cases hmiddle : middle = withdrawn
    · subst hmiddle
      unfold next? at hnext
      split at hnext
      · cases hnext
      · exact List.mem_cons_self
      · cases hnext
      · cases hnext
      · cases hnext
      · exact absurd (Option.some.inj hnext) hc
    · exact List.mem_cons_of_mem event (ih hmiddle hrest)

end Consent

/-! ## What asks for no consent -/

/-- All that happens besides requests and the answers of the observer. -/
def Event.IsIndifferent : Event → Prop
  | issued _ => False
  | polled _ => False
  | _ => True

/-- Between two sessions all that happened was allowed, and this is what it did to the consent. -/
def Session.Goes (s : Session) (c c' : Consent) (s' : Session) : Prop :=
  ∃ events, s'.history = s.history ++ events ∧ c.behind? events = some c'

namespace Session.Goes

variable {s s' s'' : Session} {c c' c'' : Consent}

theorem trans (h : s.Goes c c' s') (h' : s'.Goes c' c'' s'') : s.Goes c c'' s'' := by
  obtain ⟨events, heq, hbehind⟩ := h
  obtain ⟨events', heq', hbehind'⟩ := h'
  refine ⟨events ++ events', by rw [heq', heq, List.append_assoc], ?_⟩
  rw [Consent.behind?_append, hbehind]
  exact hbehind'

theorem of_note {event : Event} (hjournal : s'.journal = event :: s.journal)
    (hnext : c.next? event = some c') : s.Goes c c' s' := by
  refine ⟨[event], history_of_journal hjournal, ?_⟩
  rw [Consent.behind?_cons, hnext]
  rfl

theorem of_adds (h : s.Adds Event.IsIndifferent s') (hc : c.IsOpen) : s.Goes c c s' := by
  obtain ⟨events, heq, hall⟩ := h
  refine ⟨events, heq, ?_⟩
  clear heq
  induction events with
  | nil => rfl
  | cons event events ih =>
    have hnext : c.next? event = some c := by
      have hevent := hall event List.mem_cons_self
      cases c with
      | withdrawn => exact absurd rfl hc
      | pending => cases event <;> first | rfl | exact hevent.elim
      | given => cases event <;> first | rfl | exact hevent.elim
    rw [Consent.behind?_cons, hnext]
    exact ih fun other hother => hall other (List.mem_cons_of_mem event hother)

end Session.Goes

/-! ## Runs that keep to the consent -/

/-- However a run from this session ended, all that happened was allowed. It ended as stopped exactly
if the observer stopped it, and if it succeeded, the consent behind it is of this kind. -/
def Session.Heeded {α : Type} (s : Session) (c : Consent) (Q : Consent → Prop)
    (ending : Except Failure α × Session) : Prop :=
  ∃ c', s.Goes c c' ending.2 ∧ (ending.1 = .error .cancelled ↔ c' = .withdrawn) ∧
    ∀ a, ending.1 = .ok a → Q c'

/-- A run that keeps to the consent where it begins with one kind of consent; its success leaves
another kind. -/
def Heeds {α : Type} (P Q : Consent → Prop) (run : Session → Except Failure α × Session) : Prop :=
  ∀ (s : Session) (c : Consent), P c → s.Heeded c Q (run s)

/-- An action that never ends as stopped. -/
def Action.NeverStops {α : Type} (action : Action α) : Prop :=
  ∀ s, (action.perform s).1 ≠ .error .cancelled

section Rules

variable {α β : Type} {P Q R : Consent → Prop} {s s' : Session} {c c' : Consent}

/-- A run that does not end as stopped leaves what it makes of the consent. -/
theorem Session.Goes.heeded {ending : Except Failure α × Session} (h : s.Goes c c' ending.2)
    (hresult : ending.1 ≠ .error .cancelled) (hc' : c'.IsOpen) (hQ : Q c') :
    s.Heeded c Q ending := by
  refine ⟨c', h, ?_, fun _ _ => hQ⟩
  constructor
  · intro hstopped
    exact absurd hstopped hresult
  · intro hwithdrawn
    exact absurd hwithdrawn hc'

theorem Session.Heeded.failed {failure : Failure}
    (h : s.Heeded c Q ((.error failure, s') : Except Failure α × Session)) :
    s.Heeded c R ((.error failure, s') : Except Failure β × Session) := by
  obtain ⟨c', hgoes, hstop, -⟩ := h
  refine ⟨c', hgoes, ?_, fun b hb => by cases hb⟩
  simpa using hstop

theorem Session.Heeded.goOn {a : α} {ending : Except Failure β × Session}
    (h : s.Heeded c Q (.ok a, s')) (hrest : ∀ c', Q c' → s'.Heeded c' R ending) :
    s.Heeded c R ending := by
  obtain ⟨c', hgoes, -, hok⟩ := h
  obtain ⟨c'', hgoes', hstop, hok'⟩ := hrest c' (hok a rfl)
  exact ⟨c'', hgoes.trans hgoes', hstop, hok'⟩

theorem Heeds.bind {first : Action α} {second : α → Action β} (h1 : Heeds P Q first.perform)
    (h2 : ∀ a, Heeds Q R (second a).perform) :
    Heeds P R (Action.perform (first >>= second)) := by
  intro s c hc
  have hfirst := h1 s c hc
  rcases Action.perform_bind_cases first second s with ⟨failure, s', hp, heq⟩ | ⟨a, s', hp, heq⟩
  · rw [hp] at hfirst
    rw [heq]
    exact hfirst.failed
  · rw [hp] at hfirst
    rw [heq]
    exact hfirst.goOn fun c' hc' => h2 a s' c' hc'

theorem Heeds.mono {run : Session → Except Failure α × Session} (h : Heeds P Q run)
    (hQ : ∀ {c}, Q c → R c) : Heeds P R run := by
  intro s c hc
  obtain ⟨c', hgoes, hstop, hok⟩ := h s c hc
  exact ⟨c', hgoes, hstop, fun a ha => hQ (hok a ha)⟩

theorem Heeds.removingOnFailure {action : Action α} (h : Heeds P Q action.perform) (path : String) :
    Heeds P Q (action.removingOnFailure path).perform := by
  intro s c hc
  have hs := h s c hc
  rw [Action.removingOnFailure, Action.perform_ofPerform]
  rcases hp : action.perform s with ⟨_ | a, s'⟩
  · rw [hp] at hs
    exact hs
  · rw [hp] at hs
    exact hs

/-- What neither asks for consent nor ends as stopped leaves the consent as it is. -/
theorem heeds_of_adds {action : Action α} (h : action.Leads (Adds Event.IsIndifferent))
    (hresult : action.NeverStops) : Heeds Consent.IsOpen Consent.IsOpen action.perform :=
  fun s _ hc => (Goes.of_adds (h s) hc).heeded (hresult s) hc hc

theorem heeds_ofResult {result : Except Failure α} (h : result ≠ .error .cancelled) :
    Heeds Consent.IsOpen Consent.IsOpen (Action.ofResult result).perform :=
  heeds_of_adds (fun _ => .refl _ _) fun _ => h

theorem heeds_pure (a : α) : Heeds Consent.IsOpen Consent.IsOpen (Action.perform (pure a)) :=
  heeds_ofResult fun h => by cases h

theorem heeds_throw {failure : Failure} (h : failure ≠ .cancelled) :
    Heeds Consent.IsOpen Consent.IsOpen (Action.perform (throw failure : Action α)) :=
  heeds_ofResult fun hsame => h (Except.error.inj hsame)

end Rules

/-! ## Steps -/

/-- The observer gives his consent, or he stops the operation. -/
theorem heeds_poll : Heeds Consent.IsOpen Consent.IsGiven poll.perform := by
  intro s c hc
  rw [poll, Action.perform_ofPerform]
  dsimp only
  by_cases hstop : s.observer.cancels (s.observer.polls + 1) s.observer.positions
  · rw [if_pos hstop, hstop]
    refine ⟨.withdrawn, .of_note rfl ?_, ⟨fun _ => rfl, fun _ => rfl⟩, fun a ha => by cases ha⟩
    cases c with
    | withdrawn => exact absurd rfl hc
    | _ => rfl
  · rw [if_neg hstop, Bool.eq_false_iff.mpr hstop]
    have hgiven : c.next? (.polled false) = some .given := by
      cases c with
      | withdrawn => exact absurd rfl hc
      | _ => rfl
    exact (Goes.of_note rfl hgiven).heeded (fun h => by cases h) (fun h => by cases h) rfl

theorem heeds_reportRange (range : Nat) :
    Heeds Consent.IsOpen Consent.IsOpen (reportRange range).perform :=
  heeds_of_adds (fun _ => .of_note rfl trivial) fun _ h => by cases h

theorem heeds_reportPosition (position : Nat) :
    Heeds Consent.IsOpen Consent.IsOpen (reportPosition position).perform :=
  heeds_of_adds (fun _ => .of_note rfl trivial) fun _ h => by cases h

theorem heeds_createFile (path : String) :
    Heeds Consent.IsOpen Consent.IsOpen (createFile path).perform := by
  apply heeds_of_adds
  · intro s
    rw [createFile, Action.perform_ofPerform]
    split
    · exact .refl _ _
    · exact .of_note rfl trivial
  · intro s hstop
    rw [createFile, Action.perform_ofPerform] at hstop
    split at hstop <;> cases hstop

/-! ## Requests and waits -/

section Requests

open FlightRecorder.Action

theorem Action.NeverStops.bind {α β : Type} {first : Action α} {second : α → Action β}
    (h1 : first.NeverStops) (h2 : ∀ a, (second a).NeverStops) : NeverStops (first >>= second) := by
  intro s hstop
  rcases perform_bind_cases first second s with ⟨failure, s', hp, heq⟩ | ⟨a, s', hp, heq⟩
  · refine h1 s ?_
    rw [heq] at hstop
    rw [hp]
    exact congrArg Except.error (Except.error.inj hstop)
  · rw [heq] at hstop
    exact h2 a s' hstop

theorem neverStops_pure {α : Type} (a : α) : NeverStops (pure a) := fun _ h => by cases h

theorem neverStops_get : NeverStops get := fun _ h => by cases h

theorem neverStops_transmit (bytes : Bytes) (timeout : Nat) :
    (transmit bytes timeout).NeverStops := by
  intro s hstop
  rw [transmit, perform_ofPerform] at hstop
  dsimp only at hstop
  split at hstop
  · split at hstop <;> cases hstop
  · cases hstop
  · cases hstop
  · cases hstop

theorem neverStops_deliver (request : Frame) : (deliver request).NeverStops := by
  refine .bind neverStops_get fun s => .bind (.bind neverStops_get fun _ => neverStops_transmit _ _)
    fun _ => .bind (neverStops_transmit _ _) fun _ => ?_
  split
  · exact .bind (neverStops_transmit _ _) fun _ => neverStops_pure _
  · exact neverStops_pure _

theorem neverStops_request (type : MessageType) (payload : Bytes) :
    (request type payload).NeverStops := by
  intro s
  rw [perform_request]
  exact neverStops_deliver _ _

theorem neverStops_awaitReply (sequence : UInt16) (timeout : Nat) :
    (awaitReply sequence timeout).NeverStops := by
  intro s
  rw [awaitReply, perform_ofPerform]
  generalize s.clock + timeout = deadline
  fun_induction awaitFrom sequence deadline s with
  | case1 => exact fun h => by cases h
  | case2 s verdict ready hr hv ih => exact ih
  | case3 s hr bytes clock incoming hb ih => exact ih
  | case4 => exact fun h => by cases h
  | case5 => exact fun h => by cases h
  | case6 => exact fun h => by cases h

theorem neverStops_exchange (type : MessageType) (payload : Bytes) (timeout : Settings → Nat) :
    (exchange type payload timeout).NeverStops :=
  .bind (neverStops_request type payload) fun _ =>
    .bind neverStops_get fun _ => neverStops_awaitReply _ _

end Requests

/-- Behind its number, nothing happens in an exchange that asks for consent. -/
theorem adds_indifferent_exchange (type : MessageType) (payload : Bytes) (timeout : Settings → Nat)
    (s : Session) :
    (s.issuing (.build s.nextSequence type payload)).Adds Event.IsIndifferent
      ((exchange type payload timeout).perform s).2 := by
  have htransmit : ∀ bytes limit, (transmit bytes limit).Leads (Adds Event.IsIndifferent) :=
    leads_transmit .trans (fun _ _ _ => .of_note rfl trivial) fun _ _ => .of_note rfl trivial
  have hsent := leads_deliver (Adds.refl Event.IsIndifferent) .trans htransmit
    (.build s.nextSequence type payload) (s.issuing (.build s.nextSequence type payload))
  rw [← perform_request] at hsent
  rcases perform_exchange_cases type payload timeout s with
    ⟨failure, s', hrequest, hexchange⟩ | ⟨sequence, s', hrequest, hexchange⟩
  · rw [hrequest] at hsent
    rw [hexchange]
    exact hsent
  · rw [hrequest] at hsent
    rw [hexchange]
    refine hsent.trans ((Adds.of_listened (listened_awaitFrom _ _ s')).mono fun event hheard => ?_)
    cases event <;> trivial

/-- **A request uses up the consent.** -/
theorem Session.goes_exchange (type : MessageType) (payload : Bytes) (timeout : Settings → Nat)
    (s : Session) : s.Goes .given .pending ((exchange type payload timeout).perform s).2 := by
  have hissued : s.Goes .given .pending (s.issuing (.build s.nextSequence type payload)) :=
    .of_note rfl rfl
  exact hissued.trans (.of_adds (adds_indifferent_exchange type payload timeout s) fun h => by cases h)

theorem heeds_exchange (type : MessageType) (payload : Bytes) (timeout : Settings → Nat) :
    Heeds Consent.IsGiven Consent.IsOpen (exchange type payload timeout).perform := by
  intro s c hc
  have hpending : Consent.pending.IsOpen := fun h => by cases h
  rw [show c = .given from hc]
  exact (s.goes_exchange type payload timeout).heeded (neverStops_exchange type payload timeout s)
    hpending hpending

/-! ## Listing -/

theorem heeds_selectRecord (index : UInt8) :
    Heeds Consent.IsGiven Consent.IsOpen (selectRecord index).perform :=
  .bind (heeds_exchange _ _ _) fun _ => heeds_pure _

theorem Reply.flight_ne_cancelled (reply : Reply) (index : UInt8) :
    reply.flight index ≠ .error .cancelled := by
  intro h
  unfold Reply.flight at h
  split at h
  · cases h
  · split at h
    · cases h
    · dsimp only at h
      split at h <;> cases h

theorem heeds_readInfo (index : UInt8) :
    Heeds Consent.IsGiven Consent.IsOpen (readInfo index).perform :=
  .bind (heeds_exchange _ _ _) fun reply => heeds_ofResult (reply.flight_ne_cancelled index)

/-- A description that cannot be read does not end the listing, so it must not be for want of
consent. -/
theorem heeds_attempt_readInfo (index : UInt8) :
    Heeds Consent.IsGiven Consent.IsOpen (readInfo index).attempt.perform := by
  intro s c hc
  obtain ⟨c', hgoes, hstop, -⟩ := heeds_readInfo index s c hc
  have hnever : ((readInfo index).perform s).1 ≠ .error .cancelled := by
    refine Action.NeverStops.bind (neverStops_exchange _ _ _) (fun reply => ?_) s
    exact fun _ => reply.flight_ne_cancelled index
  have hopen : c'.IsOpen := fun h => hnever (hstop.mpr h)
  have hattempt : (readInfo index).attempt.perform s
      = (.ok ((readInfo index).perform s).1.toOption, ((readInfo index).perform s).2) :=
    Action.perform_attempt_of_perform rfl
  rw [hattempt]
  refine Goes.heeded hgoes ?_ hopen hopen
  intro h
  cases h

/-- **Looking for a record keeps to the consent.** -/
theorem heeds_findRecord (index : UInt8) :
    Heeds Consent.IsOpen Consent.IsOpen (findRecord index).perform := by
  refine .bind (heeds_reportPosition _) fun _ => .bind heeds_poll fun _ =>
    .bind (heeds_selectRecord index) fun type => ?_
  split
  · exact heeds_pure _
  split
  · refine .bind heeds_poll fun _ => .bind (heeds_attempt_readInfo index) fun flight? =>
      .bind (heeds_poll.mono Consent.IsGiven.isOpen) fun _ => ?_
    cases flight? with
    | some flight => exact heeds_pure _
    | none => exact heeds_pure _
  · exact heeds_throw fun h => by cases h

/-- **A listing keeps to the consent**, record by record. -/
theorem heeded_listing (left : Nat) (list : FlightList) {s : Session} {c : Consent}
    (hc : c.IsOpen) :
    s.Heeded c Consent.IsOpen ((listing left list s).1.1, (listing left list s).2) := by
  induction left generalizing list s c with
  | zero => exact heeds_pure () s c hc
  | succ left ih =>
    by_cases hfull : list.isFull
    · rw [listing, listFrom, if_pos hfull]
      exact heeds_pure () s c hc
    · have hfound := heeds_findRecord (UInt8.ofNat (recordCount - (left + 1))) s c hc
      rw [listing_succ hfull]
      generalize (findRecord (UInt8.ofNat (recordCount - (left + 1)))).perform s = found at hfound ⊢
      obtain ⟨result, s'⟩ := found
      rcases result with failure | _ | _ | flight
      · exact hfound.failed
      · exact hfound.goOn fun c' hc' => heeds_pure () s' c' hc'
      · exact hfound.goOn fun c' hc' => ih list hc'
      · refine hfound.goOn fun c' hc' => ?_
        dsimp only [listingBehind]
        cases list.push flight with
        | error _ => exact heeds_pure () s' c' hc'
        | ok longer =>
          have hnoted : s'.Goes c' c' (s'.note (.listed flight)) :=
            .of_adds (.of_note rfl trivial) hc'
          have hok : s'.Heeded c' Consent.IsOpen
              ((.ok (), s'.note (.listed flight)) : Except Failure Unit × Session) :=
            hnoted.heeded (fun h => by cases h) hc' hc'
          exact hok.goOn fun c'' hc'' => ih longer hc''

/-! ## Downloading -/

theorem Reply.chunk_ne_cancelled (reply : Reply) : reply.chunk ≠ .error .cancelled := by
  intro h
  unfold Reply.chunk Chunk.ofPayload at h
  split at h
  · cases h
  · split at h <;> cases h

/-- **Asking for a piece keeps to the consent.** -/
theorem heeds_nextChunk : Heeds Consent.IsOpen Consent.IsOpen nextChunk.perform :=
  .bind heeds_poll fun _ => .bind (heeds_exchange _ _ _) fun reply =>
    .bind (heeds_poll.mono Consent.IsGiven.isOpen) fun _ =>
      .bind (heeds_ofResult reply.chunk_ne_cancelled) fun _ =>
        .bind (heeds_reportPosition _) fun _ => heeds_pure _

/-- Writing to a file is no answer to the observer. -/
theorem heeds_saving (w : FileWriter) :
    Heeds Consent.IsOpen Consent.IsOpen (Action.perform (modify (·.saving w) : Action PUnit)) :=
  fun s _ hc => (Goes.of_adds (.refl _ s) hc).heeded (fun h => by cases h) hc hc

theorem heeds_appendChunk (w : FileWriter) :
    Heeds Consent.IsOpen Consent.IsOpen (appendChunk w).perform :=
  .bind heeds_nextChunk fun _ => .bind (heeds_saving _) fun _ => heeds_pure _

/-- **A transfer keeps to the consent**, piece by piece. -/
theorem heeds_transferFrom (w : FileWriter) :
    Heeds Consent.IsOpen Consent.IsOpen (transferFrom w) := by
  intro s c hc
  fun_induction transferFrom w s generalizing c with
  | case1 w s failure s' h =>
    have hchunk := heeds_appendChunk w s c hc
    rw [h] at hchunk
    exact hchunk.failed
  | case2 w s w' s' h =>
    have hchunk := heeds_appendChunk w s c hc
    rw [h] at hchunk
    exact hchunk.goOn fun c' hc' => heeds_pure _ s' c' hc'
  | case3 w s w' isLast s' h hlast ih =>
    have hchunk := heeds_appendChunk w s c hc
    rw [h] at hchunk
    exact hchunk.goOn fun c' hc' => ih c' hc'

theorem heeds_downloadSelected (path : String) :
    Heeds Consent.IsOpen Consent.IsOpen (downloadSelected path).perform :=
  .bind (heeds_poll.mono Consent.IsGiven.isOpen) fun _ => .bind (heeds_createFile path) fun _ =>
    .bind (heeds_reportRange _) fun _ => .bind (heeds_transferFrom _) fun _ => heeds_saving _

theorem heeds_download (flight : Flight) (path : String) :
    Heeds Consent.IsOpen Consent.IsOpen (download flight path).perform := by
  have hrest := (heeds_downloadSelected path).removingOnFailure path
  refine .bind heeds_poll fun _ => .bind (heeds_selectRecord _) fun type => ?_
  split
  · exact .bind (heeds_throw fun h => by cases h) fun _ =>
      .bind (heeds_poll.mono Consent.IsGiven.isOpen) fun _ => hrest
  · exact .bind (heeds_poll.mono Consent.IsGiven.isOpen) fun _ => hrest

/-! ## Long operations -/

/-- The operations that ask the observer whether to go on. -/
inductive LongOperation
  | listRecords (list : FlightList)
  | downloadSelected (path : String)
  | download (flight : Flight) (path : String)

/-- The operation of a device that it is. -/
def LongOperation.operation : LongOperation → Operation
  | listRecords list => .listRecords list
  | downloadSelected path => .downloadSelected path
  | download flight path => .download flight path

/-- Why an operation failed, if it did. -/
def Outcome.failure? : Outcome → Option Failure
  | done (.error failure) => some failure
  | selected (.error failure) => some failure
  | described (.error failure) => some failure
  | listed (.error failure) _ => some failure
  | _ => none

theorem Outcome.failure?_done (result : Except Failure Unit) :
    (done result).failure? = some .cancelled ↔ result = .error .cancelled := by
  cases result <;> simp [failure?]

theorem Outcome.failure?_listed (result : Except Failure Unit) (list : FlightList) :
    (listed result list).failure? = some .cancelled ↔ result = .error .cancelled := by
  cases result <;> simp [failure?]

theorem heeded_listRecords (list : FlightList) (s : Session) :
    s.Heeded .pending Consent.IsOpen ((listRecords list s).1, (listRecords list s).2.2) := by
  have hpending : Consent.pending.IsOpen := fun h => by cases h
  have hrange : s.Heeded .pending Consent.IsOpen
      (.ok (), ((reportRange listRange).perform s).2) := heeds_reportRange listRange s _ hpending
  exact hrange.goOn fun c' hc' => heeded_listing recordCount list hc'

/-- Every long operation keeps to the consent from its beginning on. -/
theorem LongOperation.goes (op : LongOperation) (s : Session) :
    ∃ c, s.Goes .pending c (op.operation.perform s).2 ∧
      ((op.operation.perform s).1.failure? = some .cancelled ↔ c = .withdrawn) := by
  have hpending : Consent.pending.IsOpen := fun h => by cases h
  cases op with
  | listRecords list =>
    obtain ⟨c, hgoes, hstop, -⟩ := heeded_listRecords list s
    exact ⟨c, hgoes, (Outcome.failure?_listed _ _).trans hstop⟩
  | downloadSelected path =>
    obtain ⟨c, hgoes, hstop, -⟩ := heeds_downloadSelected path s _ hpending
    exact ⟨c, hgoes, (Outcome.failure?_done _).trans hstop⟩
  | download flight path =>
    obtain ⟨c, hgoes, hstop, -⟩ := heeds_download flight path s _ hpending
    exact ⟨c, hgoes, (Outcome.failure?_done _).trans hstop⟩

/--
**An observer is asked before every request, and obeyed when he says stop.**

Whatever a link brings, whatever files there are and however the observer decides: between two
requests, and before the first one, a listing or a download asks him and he lets it go on. When he
stops it, nothing more happens: nothing is sent, put on the list, reported or asked. The operation
ends as stopped then, and only then. This is said of the history of the operation, which tells what
was done to the observer, the link and the list.
-/
theorem LongOperation.stops_when_told (op : LongOperation) (s : Session) :
    let ending := op.operation.perform s
    let events := s.stretch ending.2
    let stopped := ending.1.failure? = some .cancelled
    s.RecordedBy events ending.2 ∧
    (∀ list, op = listRecords list → ∃ result list', ending.1 = .listed result list' ∧
      list'.flights = list.flights ++ listedFlights events) ∧
    (∀ before request after, events = before ++ .issued request :: after →
      ∃ front gap, before = front ++ .polled false :: gap ∧ issuedRequests gap = []) ∧
    (∀ before after, events = before ++ .polled true :: after → after = [] ∧ stopped) ∧
    (stopped → .polled true ∈ events) := by
  intro ending events stopped
  obtain ⟨c, ⟨happened, hhistory, hbehind⟩, hstop⟩ := op.goes s
  have hevents : events = happened := stretch_eq hhistory
  rw [← hevents] at hbehind
  refine ⟨(op.operation.composed.recorded s).stretch, ?_, ?_, ?_, ?_⟩
  · intro list hop
    subst hop
    exact ⟨_, _, rfl, flights_listRecords list s⟩
  · intro before request after hcut
    rw [hcut] at hbehind
    exact Consent.exists_polled_of_issued hbehind
  · intro before after hcut
    rw [hcut] at hbehind
    obtain ⟨hnil, hwithdrawn⟩ := Consent.eq_nil_of_polled_true hbehind
    exact ⟨hnil, hstop.mpr hwithdrawn⟩
  · intro hstopped
    rw [hstop.mp hstopped] at hbehind
    exact Consent.polled_true_mem (fun h => by cases h) hbehind

/-- A listing that is stopped when it asks for the second time: the record was selected, its
description is not asked for. -/
example :
    let s := (Session.start .standard [.data (Frame.reply 0 .ack 0 []).encode] .unlimited
      .empty).watchedBy (.ofRule fun polls _ => polls = 2)
    let ending := (LongOperation.listRecords (.empty 4)).operation.perform s
    ending.1.failure? = some .cancelled ∧
      issuedRequests (s.stretch ending.2) = [.build 0 .selectRecord [0]] ∧
      (s.stretch ending.2).getLast? = some (.polled true) := by
  decide +kernel

end FlightRecorder
