import FlightRecorder.Proofs.Device.Answers
import FlightRecorder.Proofs.Device.Operations
import FlightRecorder.Proofs.Device.Prospects

/-!
# Sessions that are alike

Two sessions are alike for some request numbers if they differ in nothing but verdicts that answer
none of these numbers, in when bytes were read, and in how many writes the link takes bytes. A run that numbers its requests from among them
does the same on both, and leaves them alike. This is shown of the steps of operations, and it holds
of everything that is put together from them.

* `Session.Alike` — the relation
* `Session.Uses` — the numbers of the requests between two sessions
* `Steady` — a run that does the same on sessions that are alike
* `Steady.andThen`, `Steady.bind` — one run behind the other
* `steady_exchange` — a request and the wait for its reply
* `Composed.steady` — everything that is put together from these steps
-/

namespace FlightRecorder

open Session

/-! ## The relation -/

/-- The sessions differ at most in when bytes were read, in verdicts that answer none of these
numbers, and in the size of writes. -/
structure Session.Alike (used : List UInt16) (s t : Session) : Prop where
  clock : t.clock = s.clock
  outgoing : t.outgoing.inOneWrite = s.outgoing.inOneWrite
  storage : t.storage = s.storage
  settings : t.settings = s.settings
  nextSequence : t.nextSequence = s.nextSequence
  observer : t.observer = s.observer
  prospects : relevant used t.prospects = relevant used s.prospects
  sent : sentBytes t.history = sentBytes s.history

/-- The later session goes on with the history of the earlier one. -/
def Session.Onward (s s' : Session) : Prop := s.Adds (fun _ => True) s'

/-- The requests between two sessions have these numbers. -/
def Session.Uses (s s' : Session) (used : List UInt16) : Prop :=
  ∀ request ∈ issuedRequests (s.stretch s'), request.sequence ∈ used

namespace Session

theorem Onward.of_told {s s' : Session} (h : s.Told s') : s.Onward s' :=
  h.adds.mono fun _ _ => trivial

theorem Onward.of_listened {s s' : Session} (h : s.Listened s') : s.Onward s' :=
  (Adds.of_listened h).mono fun _ _ => trivial

/-- What is used in two steps is used in each of them. -/
theorem Uses.split {s s' s'' : Session} {used : List UInt16} (h : s.Uses s'' used)
    (hfirst : s.Onward s') (hsecond : s'.Onward s'') : s.Uses s' used ∧ s'.Uses s'' used := by
  obtain ⟨events, heq, -⟩ := hfirst
  obtain ⟨events', heq', -⟩ := hsecond
  have hall : s.stretch s'' = events ++ events' :=
    stretch_eq (by rw [heq', heq, List.append_assoc])
  rw [Uses, hall, issuedRequests_append] at h
  rw [Uses, Uses, stretch_eq heq, stretch_eq heq']
  exact ⟨fun request hmem => h request (List.mem_append_left _ hmem),
    fun request hmem => h request (List.mem_append_right _ hmem)⟩

theorem Alike.note {used : List UInt16} {s t : Session} (h : s.Alike used t) (event : Event) :
    (s.note event).Alike used (t.note event) :=
  { h with
    sent := by rw [history_note, history_note, sentBytes_append, sentBytes_append, h.sent] }

theorem Alike.watch {used : List UInt16} {s t : Session} (h : s.Alike used t)
    (observer : Observer) :
    ({ s with observer := observer } : Session).Alike used { t with observer := observer } :=
  { h with observer := rfl }

theorem Alike.store {used : List UInt16} {s t : Session} (h : s.Alike used t) (storage : Storage) :
    ({ s with storage := storage } : Session).Alike used { t with storage := storage } :=
  { h with storage := rfl }

theorem Alike.offer {used : List UInt16} {s t : Session} (h : s.Alike used t)
    {outgoing outgoing' : Outgoing} (hsame : outgoing'.inOneWrite = outgoing.inOneWrite) :
    ({ s with outgoing := outgoing } : Session).Alike used { t with outgoing := outgoing' } :=
  { h with outgoing := hsame }

theorem Alike.waitUntil {used : List UInt16} {s t : Session} (h : s.Alike used t)
    {moment moment' : Nat} (hmoment : moment' = moment) :
    (s.waitUntil moment).Alike used (t.waitUntil moment') := by
  have hclock : ({ s with clock := moment } : Session).Alike used { t with clock := moment' } :=
    { h with clock := hmoment }
  rw [Session.waitUntil, Session.waitUntil, hmoment] at *
  exact hclock.note _

theorem Alike.issuing {used : List UInt16} {s t : Session} (h : s.Alike used t) (request : Frame) :
    (s.issuing request).Alike used (t.issuing request) := by
  have hnext : ({ s with nextSequence := s.nextSequence + 1 } : Session).Alike used
      { t with nextSequence := t.nextSequence + 1 } :=
    { h with nextSequence := congrArg (· + 1) h.nextSequence }
  exact hnext.note _

/-- **A wait for the reply to a request in use ends alike.** -/
theorem Alike.awaitFrom {used : List UInt16} {s t : Session} {sequence : UInt16}
    (h : s.Alike used t) (hused : sequence ∈ used) (deadline : Nat) :
    (awaitFrom sequence deadline t).1 = (awaitFrom sequence deadline s).1 ∧
      (awaitFrom sequence deadline s).2.Alike used (awaitFrom sequence deadline t).2 := by
  have hs := waitAmong_relevant hused deadline s.clock s.prospects
  have ht := waitAmong_relevant hused deadline t.clock t.prospects
  rw [waitAmong_prospects] at hs ht
  rw [h.prospects, h.clock, hs, Prod.mk.injEq, Prod.mk.injEq] at ht
  obtain ⟨hresult, hclock, hprospects⟩ := ht
  have hls := listened_awaitFrom sequence deadline s
  have hlt := listened_awaitFrom sequence deadline t
  exact ⟨hresult.symm, {
    clock := hclock.symm
    outgoing := by rw [hlt.outgoing, h.outgoing, hls.outgoing]
    storage := by rw [hlt.storage, h.storage, hls.storage]
    settings := by rw [hlt.settings, h.settings, hls.settings]
    nextSequence := by rw [hlt.nextSequence, h.nextSequence, hls.nextSequence]
    observer := by rw [hlt.observer, h.observer, hls.observer]
    prospects := hprospects.symm
    sent := by rw [hlt.sentBytes_eq, h.sent, hls.sentBytes_eq] }⟩

end Session

/-! ## Steady runs -/

/-- The run goes on with the history, and on sessions that are alike for the numbers of its requests
it does the same. -/
structure Steady (used : List UInt16) {α : Type} (run : Session → α × Session) : Prop where
  onward : ∀ s : Session, s.Onward (run s).2
  agrees : ∀ {s t : Session}, s.Alike used t → s.Uses (run s).2 used →
    (run t).1 = (run s).1 ∧ (run s).2.Alike used (run t).2

section Steady

variable {used : List UInt16} {α β : Type}

theorem steady_const (a : α) : Steady used fun s => (a, s) where
  onward := Adds.refl _
  agrees h _ := ⟨rfl, h⟩

/-- A run that is one run behind the other. -/
theorem Steady.andThen {first : Session → α × Session} {next : α → Session → β × Session}
    {run : Session → β × Session} (h1 : Steady used first) (h2 : ∀ a, Steady used (next a))
    (hrun : ∀ s, run s = next (first s).1 (first s).2) : Steady used run where
  onward s := by
    rw [hrun]
    exact (h1.onward s).trans ((h2 _).onward _)
  agrees {s t} halike huses := by
    rw [hrun] at huses
    rw [hrun, hrun]
    obtain ⟨hfirst, hsecond⟩ := huses.split (h1.onward s) ((h2 _).onward _)
    obtain ⟨hresult, hagain⟩ := h1.agrees halike hfirst
    rw [hresult]
    exact (h2 _).agrees hagain hsecond

theorem Steady.bind {first : Action α} {second : α → Action β} (h1 : Steady used first.perform)
    (h2 : ∀ a, Steady used (second a).perform) :
    Steady used (Action.perform (first >>= second)) := by
  refine h1.andThen (fun result => ?_) (Action.perform_bind_eq first second)
  cases result with
  | ok a => exact h2 a
  | error failure => exact steady_const _

theorem steady_pure (a : α) : Steady used (Action.perform (pure a)) := steady_const _

/-- Of the session only the settings may be read. -/
theorem steady_get {second : Session → Action β}
    (hsettings : ∀ {s t}, s.settings = t.settings → second s = second t)
    (h : ∀ s, Steady used (second s).perform) :
    Steady used (Action.perform (get >>= second)) where
  onward s := (h s).onward s
  agrees {s t} halike huses := by
    show ((second t).perform t).1 = _ ∧ _
    rw [Action.perform_bind, Action.perform_bind, Action.perform_get, Action.perform_get]
    dsimp only
    rw [hsettings halike.settings]
    exact (h s).agrees halike huses

/-- A run of as many rounds as it takes. -/
theorem Steady.rounds {run : Session → α × Session} {within : Nat → Session → α × Session}
    (hwithin : ∀ n, Steady used (within n))
    (henough : ∀ s, ∃ n, ∀ m, n ≤ m → within m s = run s) : Steady used run where
  onward s := by
    obtain ⟨n, hn⟩ := henough s
    rw [← hn n (Nat.le_refl n)]
    exact (hwithin n).onward s
  agrees {s t} halike huses := by
    -- The two runs may take different numbers of rounds; the larger one is enough for both.
    obtain ⟨n, hn⟩ := henough s
    obtain ⟨m, hm⟩ := henough t
    rw [← hn (max n m) (Nat.le_max_left n m)] at huses ⊢
    rw [← hm (max n m) (Nat.le_max_right n m)]
    exact (hwithin (max n m)).agrees halike huses

end Steady

/-! ## The observer and the tree -/

section Actions

variable {used : List UInt16}

theorem steady_poll : Steady used poll.perform where
  onward s := .of_told (leads_told_poll s)
  agrees {s t} h _ := by
    rw [poll, Action.perform_ofPerform, Action.perform_ofPerform]
    dsimp only
    rw [h.observer]
    split <;> exact ⟨rfl, (h.watch _).note _⟩

theorem steady_reportRange (range : Nat) : Steady used (reportRange range).perform where
  onward _ := .of_note rfl trivial
  agrees {s t} h _ := by
    rw [reportRange, Action.perform_modify, Action.perform_modify, h.observer]
    exact ⟨rfl, (h.watch _).note _⟩

theorem steady_reportPosition (position : Nat) : Steady used (reportPosition position).perform where
  onward s := .of_told (leads_told_reportPosition position s)
  agrees {s t} h _ := by
    rw [reportPosition, Action.perform_modify, Action.perform_modify, h.observer]
    exact ⟨rfl, (h.watch _).note _⟩

theorem steady_createFile (path : String) : Steady used (createFile path).perform where
  onward s := by
    rw [createFile, Action.perform_ofPerform]
    split
    · exact .refl _ s
    · exact .of_note rfl trivial
  agrees {s t} h _ := by
    rw [createFile, Action.perform_ofPerform, Action.perform_ofPerform, h.storage]
    split
    · exact ⟨rfl, h⟩
    · exact ⟨rfl, (h.store _).note _⟩

/-! ## Requests -/

theorem steady_transmit (bytes : Bytes) (timeout : Nat) :
    Steady used (transmit bytes timeout).perform where
  onward s := .of_told (leads_told_transmit bytes timeout s)
  agrees {s t} h _ := by
    have hsend := congrArg (Outgoing.send · bytes.length) h.outgoing
    simp only [Outgoing.send_inOneWrite, Prod.mk.injEq] at hsend
    obtain ⟨houtcome, hlink⟩ := hsend
    have hsent := (h.offer hlink).note (.sent (bytes.take
      ((s.outgoing.send bytes.length).2.taken - s.outgoing.taken)))
    rw [transmit, Action.perform_ofPerform, Action.perform_ofPerform]
    dsimp only
    rw [houtcome, Outgoing.taken_eq_of_inOneWrite h.outgoing, Outgoing.taken_eq_of_inOneWrite hlink,
      Outgoing.canFlush_eq_of_inOneWrite hlink]
    split
    · split <;> exact ⟨rfl, hsent⟩
    · exact ⟨rfl, hsent⟩
    · exact ⟨rfl, hsent⟩
    · exact ⟨rfl, hsent.waitUntil (congrArg (· + timeout) h.clock)⟩

theorem steady_deliver (request : Frame) : Steady used (deliver request).perform := by
  refine steady_get (fun h => by rw [h]) fun s => ?_
  refine .bind (steady_get (fun h => by rw [h]) fun _ => steady_transmit _ _) fun _ =>
    .bind (steady_transmit _ _) fun _ => ?_
  split
  · exact .bind (steady_transmit _ _) fun _ => steady_pure _
  · exact steady_pure _

/-- Behind the numbering of a request comes what its sending adds to the history. -/
theorem exists_history_of_request (type : MessageType) (payload : Bytes) (s : Session) :
    ∃ events, ((request type payload).perform s).2.history
      = s.history ++ .issued (.build s.nextSequence type payload) :: events := by
  have hsteady : Steady [] (deliver (.build s.nextSequence type payload)).perform :=
    steady_deliver _
  obtain ⟨events, heq, -⟩ := hsteady.onward (s.issuing (.build s.nextSequence type payload))
  refine ⟨events, ?_⟩
  rw [perform_request, heq, issuing, history_note, List.append_assoc]
  rfl

theorem steady_request (type : MessageType) (payload : Bytes) :
    Steady used (request type payload).perform where
  onward s := by
    obtain ⟨events, heq⟩ := exists_history_of_request type payload s
    exact ⟨_, heq, fun _ _ => trivial⟩
  agrees {s t} h huses := by
    have hdeliver : Steady used (deliver (.build s.nextSequence type payload)).perform :=
      steady_deliver _
    rw [perform_request] at huses
    rw [perform_request, perform_request, h.nextSequence]
    exact hdeliver.agrees (h.issuing _) (huses.split (.of_note rfl trivial) (hdeliver.onward _)).2

/-- The number of a request that was sent is one of those in use. -/
theorem mem_of_perform_request {type : MessageType} {payload : Bytes} {s : Session}
    {sequence : UInt16} (h : ((request type payload).perform s).1 = .ok sequence)
    (huses : s.Uses ((request type payload).perform s).2 used) : sequence ∈ used := by
  obtain ⟨events, heq⟩ := exists_history_of_request type payload s
  have hsequence : sequence = (Frame.build s.nextSequence type payload).sequence :=
    eq_sequence_of_deliver (Prod.ext h rfl)
  rw [hsequence]
  refine huses _ ?_
  rw [stretch_eq heq]
  exact List.mem_cons_self

theorem perform_await (sequence : UInt16) (timeout : Settings → Nat) (s : Session) :
    Action.perform (do let s ← get; awaitReply sequence (timeout s.settings)) s
      = awaitFrom sequence (s.clock + timeout s.settings) s := by
  rw [Action.perform_bind, Action.perform_get]
  rfl

theorem leads_onward_exchange (type : MessageType) (payload : Bytes) (timeout : Settings → Nat) :
    (exchange type payload timeout).Leads Onward :=
  leads_exchange (Adds.refl _) Adds.trans (fun _ _ => Adds.of_note rfl trivial)
    (fun bytes limit s => Onward.of_told (leads_told_transmit bytes limit s)) Onward.of_listened
    type payload timeout

/-- **A request and the wait for its reply.** -/
theorem steady_exchange (type : MessageType) (payload : Bytes) (timeout : Settings → Nat) :
    Steady used (exchange type payload timeout).perform where
  onward := leads_onward_exchange type payload timeout
  agrees {s t} h huses := by
    have hrequest : Steady used (request type payload).perform := steady_request type payload
    rw [exchange, Action.perform_bind_eq] at huses
    rw [exchange, Action.perform_bind_eq, Action.perform_bind_eq]
    rcases hsent : ((request type payload).perform s).1 with failure | sequence
    · rw [hsent, Action.thenPerform] at huses
      obtain ⟨hresult, hagain⟩ := hrequest.agrees h huses
      rw [hresult, hsent, Action.thenPerform]
      exact ⟨rfl, hagain⟩
    · -- The wait asks for one number, and it is in use because its request was numbered before.
      rw [hsent, Action.thenPerform, perform_await] at huses
      obtain ⟨hfirst, -⟩ :=
        huses.split (hrequest.onward s) (.of_listened (listened_awaitFrom _ _ _))
      obtain ⟨hresult, hagain⟩ := hrequest.agrees h hfirst
      rw [hresult, hsent, Action.thenPerform, perform_await, perform_await, hagain.clock,
        hagain.settings]
      exact hagain.awaitFrom (mem_of_perform_request hsent hfirst) _

theorem steady_note (event : Event) : Steady used fun s => ((), s.note event) where
  onward _ := .of_note rfl trivial
  agrees h _ := ⟨rfl, h.note event⟩

theorem steady_store (place : Place) (content : Bytes) :
    Steady used (Action.perform (modify fun s =>
      { s with storage := s.storage.write place content })) where
  onward s := .refl _ s
  agrees {s t} h _ := by
    rw [Action.perform_modify, Action.perform_modify, h.storage]
    exact ⟨rfl, h.store _⟩

theorem steady_remove (path : String) :
    Steady used fun s => ((), { s with storage := s.storage.remove path }) where
  onward s := .refl _ s
  agrees {s t} h _ := by
    rw [h.storage]
    exact ⟨rfl, h.store _⟩

end Actions

/-- **What is put together from the steps of operations does the same on sessions that are alike.** -/
theorem Composed.steady {used : List UInt16} {α : Type} {run : Session → α × Session}
    (h : Composed run) : Steady used run := by
  induction h with
  | const a => exact steady_const a
  | andThen hfirst hnext ih ihnext => exact ih.andThen ihnext fun _ => rfl
  | rounds within hwithin henough ih => exact .rounds ih henough
  | poll => exact steady_poll
  | reportRange range => exact steady_reportRange range
  | reportPosition position => exact steady_reportPosition position
  | list flight => exact steady_note (.listed flight)
  | createFile path => exact steady_createFile path
  | store place content => exact steady_store place content
  | remove path => exact steady_remove path
  | request type hsize => exact steady_request type _
  | exchange type timeout hsize => exact steady_exchange type _ timeout

end FlightRecorder
