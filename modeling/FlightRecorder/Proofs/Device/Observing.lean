import FlightRecorder.Proofs.Device.Listing
import FlightRecorder.Proofs.Device.Operations

/-!
# What the history tells of the observer

The observer is asked and told something only where the history says so, each of his answers is the
one that his rule gives at that moment, and what the link took is what the history calls sent. So a
statement about the history of an operation is one about the observer and the link.

* `Observer.seeing`, `Observer.behind` — what an observer was asked and told in a stretch of history
* `Observer.Answered` — every question was answered by the observer's rule
* `Session.RecordedBy`, `Session.Recorded` — a stretch of history with the observer and the link
  behind it
* `Composed.recorded` — every operation is recorded
* `flights_listRecords` — the flights that a listing puts on its list
-/

namespace FlightRecorder

open Session

/-! ## An observer in the course of time -/

namespace Observer

/-- The answer that the observer gives to the next question whether to stop. -/
def answer (o : Observer) : Bool := o.cancels (o.polls + 1) o.positions

/-- The observer behind one event. -/
def seeing (o : Observer) : Event → Observer
  | .polled _ => { o with polls := o.polls + 1 }
  | .rangeReported range => { o with ranges := o.ranges ++ [range] }
  | .positionReported position => { o with positions := o.positions ++ [position] }
  | _ => o

/-- The observer behind a stretch of history. -/
def behind (o : Observer) (events : List Event) : Observer := events.foldl seeing o

/-- Every question in a stretch of history was answered by the rule of the observer. -/
def Answered (o : Observer) (events : List Event) : Prop :=
  ∀ before cancelled after, events = before ++ .polled cancelled :: after →
    cancelled = (o.behind before).answer

theorem behind_append (o : Observer) (events events' : List Event) :
    o.behind (events ++ events') = (o.behind events).behind events' := List.foldl_append

theorem Answered.append {o : Observer} {events events' : List Event} (h : o.Answered events)
    (h' : (o.behind events).Answered events') : o.Answered (events ++ events') := by
  intro before cancelled after heq
  rcases List.append_eq_append_iff.mp heq with ⟨middle, rfl, hrest⟩ | ⟨middle, hfront, hrest⟩
  · rw [behind_append]
    exact h' middle cancelled after hrest
  · cases middle with
    | nil =>
      rw [List.append_nil] at hfront
      subst hfront
      exact h' [] cancelled after hrest.symm
    | cons event middle =>
      obtain ⟨rfl, -⟩ := List.cons.inj hrest
      exact h before _ middle hfront

end Observer

/-! ## Recorded stretches -/

/-- What happened between two sessions of one run, and what it did to the observer and the link. -/
structure Session.RecordedBy (s : Session) (events : List Event) (s' : Session) : Prop where
  history : s'.history = s.history ++ events
  observer : s'.observer = s.observer.behind events
  answered : s.observer.Answered events
  taken : s'.outgoing.taken = s.outgoing.taken + (sentBytes events).length

/-- The history tells what happened between two sessions of one run. -/
def Session.Recorded (s s' : Session) : Prop := ∃ events, s.RecordedBy events s'

namespace Session.Recorded

variable {s s' s'' : Session}

theorem of_same (hjournal : s'.journal = s.journal) (hobserver : s'.observer = s.observer)
    (htaken : s'.outgoing.taken = s.outgoing.taken) : s.Recorded s' := by
  refine ⟨[], ?_, hobserver, fun before cancelled after h => ?_, htaken⟩
  · rw [history, hjournal, List.append_nil]
    rfl
  · cases before <;> cases h

theorem refl (s : Session) : s.Recorded s := of_same rfl rfl rfl

theorem trans (h : s.Recorded s') (h' : s'.Recorded s'') : s.Recorded s'' := by
  obtain ⟨events, h⟩ := h
  obtain ⟨events', h'⟩ := h'
  refine ⟨events ++ events', ?_, ?_, h.answered.append (h.observer ▸ h'.answered), ?_⟩
  · rw [h'.history, h.history, List.append_assoc]
  · rw [h'.observer, h.observer, Observer.behind_append]
  · rw [h'.taken, h.taken, sentBytes_append, List.length_append, Nat.add_assoc]

/-- What happened is recorded by the stretch of history between the sessions. -/
theorem stretch (h : s.Recorded s') : s.RecordedBy (s.stretch s') s' := by
  obtain ⟨events, h⟩ := h
  rw [stretch_eq h.history]
  exact h

theorem of_note {event : Event} (hjournal : s'.journal = event :: s.journal)
    (hobserver : s'.observer = s.observer.seeing event)
    (hanswer : ∀ cancelled, event = .polled cancelled → cancelled = s.observer.answer)
    (htaken : s'.outgoing.taken = s.outgoing.taken + (sentBytes [event]).length) :
    s.Recorded s' := by
  refine ⟨[event], history_of_journal hjournal, hobserver, ?_, htaken⟩
  intro before cancelled after heq
  cases before with
  | nil => exact hanswer cancelled (List.cons.inj heq).1
  | cons _ before => cases before <;> cases heq

theorem of_listened (h : s.Listened s') : s.Recorded s' := by
  obtain ⟨events, heq, hheard⟩ := Adds.of_listened h
  have hbehind : s.observer.behind events = s.observer := by
    refine List.foldlRecOn events Observer.seeing (motive := (· = s.observer)) rfl ?_
    rintro o rfl event hmem
    have hevent := hheard event hmem
    cases event <;> first | rfl | exact hevent.elim
  have hsent : sentBytes events = [] := by
    have hsame := h.sentBytes_eq
    rw [heq, sentBytes_append] at hsame
    exact List.append_right_eq_self.mp hsame
  refine ⟨events, heq, ?_, fun before cancelled after hcut => ?_, ?_⟩
  · rw [h.observer, hbehind]
  · exact (hheard (.polled cancelled) (by rw [hcut]; simp)).elim
  · rw [h.outgoing, hsent]
    rfl

end Session.Recorded

/-! ## Every step is recorded -/

theorem leads_recorded_transmit (bytes : Bytes) (timeout : Nat) :
    (transmit bytes timeout).Leads Recorded := by
  intro s
  obtain ⟨count, hcount, hlink, -⟩ := s.outgoing.exists_send_eq bytes.length
  have htaken : (s.outgoing.send bytes.length).2.taken - s.outgoing.taken = count := by
    rw [hlink]
    exact Nat.add_sub_cancel_left _ _
  have hsent : s.Recorded
      (({ s with outgoing := (s.outgoing.send bytes.length).2 } : Session).note
        (.sent (bytes.take count))) := by
    refine .of_note rfl rfl (fun _ h => by cases h) ?_
    have hlength : (sentBytes [.sent (bytes.take count)]).length = count := by
      simp [sentBytes, hcount]
    rw [hlength]
    exact congrArg Outgoing.taken hlink
  rw [transmit, Action.perform_ofPerform]
  dsimp only
  rw [htaken]
  split
  · split <;> exact hsent
  · exact hsent
  · exact hsent
  · exact hsent.trans (.of_note rfl rfl (fun _ h => by cases h) rfl)

theorem Session.recorded_issuing (s : Session) (request : Frame) : s.Recorded (s.issuing request) :=
  .of_note rfl rfl (fun _ h => by cases h) rfl

theorem leads_recorded_request (type : MessageType) (payload : Bytes) :
    (request type payload).Leads Recorded :=
  leads_request Recorded.refl Recorded.trans recorded_issuing leads_recorded_transmit type payload

theorem leads_recorded_exchange (type : MessageType) (payload : Bytes) (timeout : Settings → Nat) :
    (exchange type payload timeout).Leads Recorded :=
  leads_exchange Recorded.refl Recorded.trans recorded_issuing leads_recorded_transmit .of_listened
    type payload timeout

theorem leads_recorded_poll : poll.Leads Recorded := by
  intro s
  rw [poll, Action.perform_ofPerform]
  dsimp only
  split <;> exact .of_note rfl rfl (fun _ h => by cases h; rfl) rfl

theorem leads_recorded_createFile (path : String) : (createFile path).Leads Recorded := by
  intro s
  rw [createFile, Action.perform_ofPerform]
  split
  · exact .refl s
  · exact .of_note rfl rfl (fun _ h => by cases h) rfl

/-- **Whatever is put together from the steps of operations is recorded.** -/
theorem Composed.recorded {α : Type} {run : Session → α × Session} (h : Composed run)
    (s : Session) : s.Recorded (run s).2 := by
  induction h generalizing s with
  | const a => exact .refl s
  | andThen hfirst hnext ih ihnext => exact (ih s).trans (ihnext _ _)
  | rounds within hwithin henough ih =>
    obtain ⟨n, hn⟩ := henough s
    rw [← hn n (Nat.le_refl n)]
    exact ih n s
  | poll => exact leads_recorded_poll s
  | reportRange range => exact .of_note rfl rfl (fun _ h => by cases h) rfl
  | reportPosition position => exact .of_note rfl rfl (fun _ h => by cases h) rfl
  | list flight => exact .of_note rfl rfl (fun _ h => by cases h) rfl
  | createFile path => exact leads_recorded_createFile path s
  | store place content => exact .of_same rfl rfl rfl
  | remove path => exact .of_same rfl rfl rfl
  | request type hsize => exact leads_recorded_request type _ s
  | exchange type timeout hsize => exact leads_recorded_exchange type _ timeout s

/-! ## Flights on a list -/

/-- The flights that were put on a list in a stretch of history. -/
def listedFlights (history : List Event) : List Flight :=
  history.filterMap fun
    | .listed flight => some flight
    | _ => none

theorem listedFlights_append (first second : List Event) :
    listedFlights (first ++ second) = listedFlights first ++ listedFlights second :=
  List.filterMap_append

/-- Between two sessions no flight was put on a list. -/
def Session.Unlisted (s s' : Session) : Prop := listedFlights s'.history = listedFlights s.history

namespace Session.Unlisted

variable {s s' s'' : Session}

theorem refl (s : Session) : s.Unlisted s := rfl

theorem trans (h : s.Unlisted s') (h' : s'.Unlisted s'') : s.Unlisted s'' := Eq.trans h' h

theorem of_note {event : Event} (hjournal : s'.journal = event :: s.journal)
    (hevent : listedFlights [event] = []) : s.Unlisted s' := by
  rw [Unlisted, history_of_journal hjournal, listedFlights_append, hevent, List.append_nil]

theorem of_listened (h : s.Listened s') : s.Unlisted s' := by
  refine (Adds.of_listened h).filterMap_eq fun event hheard => ?_
  cases event <;> first | rfl | exact hheard.elim

end Session.Unlisted

theorem leads_unlisted_poll : poll.Leads Unlisted := by
  intro s
  rw [poll, Action.perform_ofPerform]
  dsimp only
  split <;> exact .of_note rfl rfl

theorem leads_unlisted_exchange (type : MessageType) (payload : Bytes) (timeout : Settings → Nat) :
    (exchange type payload timeout).Leads Unlisted :=
  leads_exchange Unlisted.refl Unlisted.trans (fun _ _ => .of_note rfl rfl)
    (leads_transmit Unlisted.trans (fun _ _ _ => .of_note rfl rfl) fun _ _ => .of_note rfl rfl)
    .of_listened type payload timeout

theorem leads_unlisted_selectRecord (index : UInt8) : (selectRecord index).Leads Unlisted :=
  .bind .trans (leads_unlisted_exchange _ _ _) fun _ => Action.leads_pure .refl _

theorem leads_unlisted_readInfo (index : UInt8) : (readInfo index).Leads Unlisted :=
  .bind .trans (leads_unlisted_exchange _ _ _) fun _ => Action.leads_ofResult .refl _

theorem leads_unlisted_findRecord (index : UInt8) : (findRecord index).Leads Unlisted := by
  refine .bind .trans (fun _ => .of_note rfl rfl) fun _ => .bind .trans leads_unlisted_poll fun _ =>
    .bind .trans (leads_unlisted_selectRecord index) fun type => ?_
  split
  · exact Action.leads_pure .refl _
  split
  · refine .bind .trans leads_unlisted_poll fun _ =>
      .bind .trans (leads_unlisted_readInfo index).attempt fun flight? =>
        .bind .trans leads_unlisted_poll fun _ => ?_
    cases flight? <;> exact Action.leads_pure .refl _
  · exact fun s => .refl s

/-- A listing notes the flights that it puts on its list. -/
theorem exists_flights_listing (left : Nat) (list : FlightList) (s : Session) :
    ∃ flights, (listing left list s).1.2.flights = list.flights ++ flights ∧
      listedFlights (listing left list s).2.history = listedFlights s.history ++ flights := by
  induction left generalizing list s with
  | zero => exact ⟨[], (List.append_nil _).symm, (List.append_nil _).symm⟩
  | succ left ih =>
    by_cases hfull : list.isFull
    · rw [listing, listFrom, if_pos hfull]
      exact ⟨[], (List.append_nil _).symm, (List.append_nil _).symm⟩
    · have hfound := leads_unlisted_findRecord (UInt8.ofNat (recordCount - (left + 1))) s
      rw [listing_succ hfull]
      generalize (findRecord (UInt8.ofNat (recordCount - (left + 1)))).perform s = found at hfound ⊢
      obtain ⟨result, s'⟩ := found
      rw [← hfound]
      rcases result with _ | _ | _ | flight
      · exact ⟨[], (List.append_nil _).symm, (List.append_nil _).symm⟩
      · exact ⟨[], (List.append_nil _).symm, (List.append_nil _).symm⟩
      · exact ih list s'
      · have hroom : list.flights.length < list.capacity := by
          rw [FlightList.isFull, FlightList.size, decide_eq_true_iff] at hfull
          omega
        obtain ⟨longer, hpush, -, happend⟩ := list.exists_push_eq_ok flight hroom
        obtain ⟨flights, hflights, hlisted⟩ := ih longer (s'.note (.listed flight))
        rw [listingBehind, hpush]
        refine ⟨flight :: flights, ?_, ?_⟩
        · rw [hflights, happend, List.append_assoc]
          rfl
        · rw [hlisted, history_note, listedFlights_append, List.append_assoc]
          rfl

/-- **The flights of a listing are those that the history tells of**, behind those that were on the
list before. -/
theorem flights_listRecords (list : FlightList) (s : Session) :
    (listRecords list s).2.1.flights
      = list.flights ++ listedFlights (s.stretch (listRecords list s).2.2) := by
  obtain ⟨flights, hflights, hlisted⟩ :=
    exists_flights_listing recordCount list ((reportRange listRange).perform s).2
  have hrecorded := ((composed_listRecords list).recorded s).stretch.history
  have hrange : listedFlights ((reportRange listRange).perform s).2.history
      = listedFlights s.history := Unlisted.of_note rfl rfl
  have hsame : listedFlights (listRecords list s).2.2.history
      = listedFlights s.history ++ flights := by
    rw [← hrange]
    exact hlisted
  have hstretch : listedFlights (listRecords list s).2.2.history
      = listedFlights s.history ++ listedFlights (s.stretch (listRecords list s).2.2) := by
    rw [← listedFlights_append]
    exact congrArg listedFlights hrecorded
  have hone := List.append_cancel_left (hsame.symm.trans hstretch)
  rw [← hone]
  exact hflights

end FlightRecorder
