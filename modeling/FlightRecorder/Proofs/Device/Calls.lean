import FlightRecorder.Proofs.Device.Operations

/-!
# Runs of calls

A connection is used by calls, one after the other: operations, each with an observer of its own,
and the smaller things that a caller may do by himself, which are to prepare a header, to send a
piece of a request and to wait for a reply. Nothing but the calls changes the session, so what every
call does to it, a run of calls does.

* `DeviceCall` — one call on a device
* `Session.afterCalls`, `Session.stages` — the session behind a run of calls, and every call of it
* `Account`, `Stage.account` — what the caller can tell of a call
* `Session.leads_operations` — a relation between before and behind a run of operations
* `CallSpanning`, `Session.leads_afterCalls` — a relation between before and behind a run of calls
* `Traced`, `Traceable` — the steps of one kind that were taken between two sessions
-/

namespace FlightRecorder

/-! ## Calls -/

/-- One call on a device. -/
inductive DeviceCall
  /-- An operation, and the observer who follows it. -/
  | operate (op : Operation) (observer : Observer)
  | prepareHeader (type : MessageType) (payload : Bytes)
  | sendStart
  | sendHeader (header : Header) (timeout : Nat)
  | sendStuffed (bytes : Bytes) (timeout : Nat)
  | awaitReply (sequence : UInt16) (timeout : Nat)
  | awaitAcknowledgement (sequence : UInt16) (timeout : Nat)

/-- How a call ends. -/
inductive CallResult
  | operated (outcome : Outcome)
  | prepared (result : Except Failure Header)
  | sent (result : Except Failure Unit)
  | replied (result : Except Failure Reply)
  | acknowledged (result : Except Failure MessageType)

namespace DeviceCall

/-- Makes a call. -/
def perform : DeviceCall → Session → CallResult × Session
  | operate op observer => fun s =>
    (.operated (op.perform (s.watchedBy observer)).1, (op.perform (s.watchedBy observer)).2)
  | prepareHeader type payload => fun s =>
    let (result, s') := (FlightRecorder.prepareHeader type payload).perform s
    (.prepared result, s')
  | sendStart => fun s =>
    let (result, s') := FlightRecorder.sendStart.perform s
    (.sent result, s')
  | sendHeader header timeout => fun s =>
    let (result, s') := (FlightRecorder.sendHeader header timeout).perform s
    (.sent result, s')
  | sendStuffed bytes timeout => fun s =>
    let (result, s') := (FlightRecorder.sendStuffed bytes timeout).perform s
    (.sent result, s')
  | awaitReply sequence timeout => fun s =>
    let (result, s') := (FlightRecorder.awaitReply sequence timeout).perform s
    (.replied result, s')
  | awaitAcknowledgement sequence timeout => fun s =>
    let (result, s') := (FlightRecorder.awaitAcknowledgement sequence timeout).perform s
    (.acknowledged result, s')

end DeviceCall

/-! ## Runs -/

/-- One call of a run, with the sessions on both sides of it. -/
structure Stage where
  call : DeviceCall
  before : Session
  result : CallResult
  behind : Session

namespace Session

/-- The session behind a run of calls. -/
def afterCalls (s : Session) : List DeviceCall → Session
  | [] => s
  | call :: calls => (call.perform s).2.afterCalls calls

/-- The calls of a run. -/
def stages (s : Session) : List DeviceCall → List Stage
  | [] => []
  | call :: calls =>
    { call := call, before := s, result := (call.perform s).1, behind := (call.perform s).2 }
      :: (call.perform s).2.stages calls

end Session

/-! ## What the caller can tell -/

/-- What the caller can tell of a call. -/
structure Account where
  result : CallResult
  /-- The bytes that the link took. -/
  sent : Bytes
  /-- The milliseconds that the call took. -/
  elapsed : Nat
  storage : Storage
  /-- What was reported to the observer, and how often he was asked. -/
  observer : Observer

/-- What the caller can tell of a call of a run. -/
def Stage.account (stage : Stage) : Account where
  result := stage.result
  sent := sentBytes (stage.before.stretch stage.behind)
  elapsed := stage.behind.clock - stage.before.clock
  storage := stage.behind.storage
  observer := stage.behind.observer

/-! ## Relations between before and behind -/

theorem Session.Aside.watchedBy (s : Session) (observer : Observer) :
    s.Aside (s.watchedBy observer) := ⟨rfl, rfl, rfl, rfl, rfl, rfl, .refl _ s⟩

/-- The calls that carry out these operations, each with its observer. -/
def operationCalls (operations : List (Operation × Observer)) : List DeviceCall :=
  operations.map fun (op, observer) => .operate op observer

/-- **What spans the steps of operations spans every run of operations.** -/
theorem Session.leads_operations {R : Session → Session → Prop} (hR : Spanning R)
    (operations : List (Operation × Observer)) (s : Session) :
    R s (s.afterCalls (operationCalls operations)) := by
  induction operations generalizing s with
  | nil => exact hR.aside (.refl s)
  | cons operation operations ih =>
    have hwatched : R s (s.watchedBy operation.2) := hR.aside (.watchedBy s operation.2)
    exact hR.trans (hR.trans hwatched (operation.1.composed.leads hR _)) (ih _)

/-- A relation between sessions that holds of the sessions before and behind every step of a call,
and of one step behind the other. -/
structure CallSpanning (R : Session → Session → Prop) : Prop extends Spanning R where
  prepareHeader : ∀ type payload, (prepareHeader type payload).Leads R
  transmit : ∀ bytes timeout, (transmit bytes timeout).Leads R
  await : ∀ sequence deadline s, R s (awaitFrom sequence deadline s).2

section Leads

variable {R : Session → Session → Prop}

/-- **What spans the steps of calls spans every call.** -/
theorem DeviceCall.leads (hR : CallSpanning R) (call : DeviceCall) (s : Session) :
    R s (call.perform s).2 := by
  cases call with
  | operate op observer => exact s.leads_operations hR.toSpanning [(op, observer)]
  | prepareHeader type payload => exact hR.prepareHeader type payload s
  | sendStart => exact hR.transmit [startByte] s.settings.controlTimeout s
  | sendHeader header timeout => exact hR.transmit (stuff header.toBytes) timeout s
  | sendStuffed bytes timeout => exact hR.transmit (stuff bytes) timeout s
  | awaitReply sequence timeout => exact hR.await sequence (s.clock + timeout) s
  | awaitAcknowledgement sequence timeout =>
    have hawait : (FlightRecorder.awaitAcknowledgement sequence timeout).Leads R :=
      .bind hR.trans (fun s => hR.await sequence (s.clock + timeout) s) fun _ =>
        Action.leads_pure (fun s => hR.aside (.refl s)) _
    exact hawait s

/-- **What spans the steps of calls spans every run of calls.** -/
theorem Session.leads_afterCalls (hR : CallSpanning R) (calls : List DeviceCall) (s : Session) :
    R s (s.afterCalls calls) := by
  induction calls generalizing s with
  | nil => exact hR.aside (.refl s)
  | cons call calls ih => exact hR.trans (call.leads hR s) (ih _)

end Leads

/-! ## Traces -/

/-- Between two sessions of one run these steps were taken, one after the other, and around them only
what is quiet. -/
inductive Traced {α : Type} (quiet : Session → Session → Prop)
    (step : Session → α → Session → Prop) : Session → List α → Session → Prop
  | quiet {s s' : Session} (h : quiet s s') : Traced quiet step s [] s'
  | cons {s before behind s' : Session} {a : α} {trace : List α} (h : quiet s before)
      (hstep : step before a behind) (hrest : Traced quiet step behind trace s') :
      Traced quiet step s (a :: trace) s'

namespace Traced

variable {α : Type} {quiet : Session → Session → Prop} {step : Session → α → Session → Prop}
  {s s' s'' : Session} {a : α} {trace trace' : List α}

theorem single (hrefl : ∀ s, quiet s s) (h : step s a s') : Traced quiet step s [a] s' :=
  .cons (hrefl s) h (.quiet (hrefl s'))

theorem of_quiet (htrans : ∀ {s s' s''}, quiet s s' → quiet s' s'' → quiet s s'') (h : quiet s s')
    (h' : Traced quiet step s' trace s'') : Traced quiet step s trace s'' := by
  cases h' with
  | quiet hquiet => exact .quiet (htrans h hquiet)
  | cons hquiet hstep hrest => exact .cons (htrans h hquiet) hstep hrest

theorem trans (htrans : ∀ {s s' s''}, quiet s s' → quiet s' s'' → quiet s s'')
    (h : Traced quiet step s trace s') (h' : Traced quiet step s' trace' s'') :
    Traced quiet step s (trace ++ trace') s'' := by
  induction h with
  | quiet hquiet => exact h'.of_quiet htrans hquiet
  | cons hquiet hstep _ ih => exact .cons hquiet hstep (ih h')

theorem mono {step' : Session → α → Session → Prop} (h : Traced quiet step s trace s')
    (hstep : ∀ {s s' a}, step s a s' → step' s a s') : Traced quiet step' s trace s' := by
  induction h with
  | quiet hquiet => exact .quiet hquiet
  | cons hquiet hone _ ih => exact .cons hquiet (hstep hone) ih

/-- In front of every step there is a session on which it was taken. -/
theorem split (hrefl : ∀ s, quiet s s) (h : Traced quiet step s (trace ++ trace') s'') :
    ∃ s', Traced quiet step s trace s' ∧ Traced quiet step s' trace' s'' := by
  induction trace generalizing s with
  | nil => exact ⟨s, .quiet (hrefl s), h⟩
  | cons a trace ih =>
    cases h with
    | cons hquiet hstep hrest =>
      obtain ⟨s', hfront, hback⟩ := ih hrest
      exact ⟨s', .cons hquiet hstep hfront, hback⟩

end Traced

/-- Between two sessions of one run nothing was done but such steps and what is quiet. -/
def Traceable {α : Type} (quiet : Session → Session → Prop) (step : Session → α → Session → Prop)
    (s s' : Session) : Prop :=
  ∃ trace, Traced quiet step s trace s'

namespace Traceable

variable {α : Type} {quiet : Session → Session → Prop} {step : Session → α → Session → Prop}
  {s s' s'' : Session} {a : α}

theorem of_quiet (h : quiet s s') : Traceable quiet step s s' := ⟨[], .quiet h⟩

theorem refl (hrefl : ∀ s, quiet s s) (s : Session) : Traceable quiet step s s := of_quiet (hrefl s)

theorem of_step (hrefl : ∀ s, quiet s s) (h : step s a s') : Traceable quiet step s s' :=
  ⟨[a], .single hrefl h⟩

theorem trans (htrans : ∀ {s s' s''}, quiet s s' → quiet s' s'' → quiet s s'')
    (h : Traceable quiet step s s') (h' : Traceable quiet step s' s'') :
    Traceable quiet step s s'' := by
  obtain ⟨trace, h⟩ := h
  obtain ⟨trace', h'⟩ := h'
  exact ⟨trace ++ trace', h.trans htrans h'⟩

theorem mono {step' : Session → α → Session → Prop} (h : Traceable quiet step s s')
    (hstep : ∀ {s s' a}, step s a s' → step' s a s') : Traceable quiet step' s s' := by
  obtain ⟨trace, h⟩ := h
  exact ⟨trace, h.mono hstep⟩

end Traceable

end FlightRecorder
