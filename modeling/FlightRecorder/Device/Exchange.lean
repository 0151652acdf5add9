import FlightRecorder.Device.Session

/-!
# Requests and replies

A request is sent in up to three pieces, each with a timeout of its own: the start byte, the header
and the payload. Then the device is waited for until a fixed moment: whatever is received and is not
the reply to the request is dropped, and dropping does not move that moment.

* `transmit` — sends one piece
* `request` — sends a request under the next sequence number
* `awaitReply` — waits for the reply to a request; it ends because every round uses up some of
  `Session.pending`
-/

namespace FlightRecorder

/-! ## Sending -/

/-- Sends bytes as they are. -/
def transmit (bytes : Bytes) (timeout : Nat) : Action Unit :=
  Action.ofPerform fun s =>
    let (outcome, outgoing) := s.outgoing.send bytes.length
    let taken := bytes.take (outgoing.taken - s.outgoing.taken)
    let s' := { s with outgoing := outgoing }.note (.sent taken)
    match outcome with
    | .complete =>
      if outgoing.canFlush then (.ok (), s') else (.error (.system .link), s')
    | .failed => (.error (.system .link), s')
    | .refused => (.error (.system .writeZero), s')
    | .stalled => (.error .timeout, s'.waitUntil (s.clock + timeout))

/-- Sends bytes of a header or payload. -/
def sendStuffed (bytes : Bytes) (timeout : Nat) : Action Unit := transmit (stuff bytes) timeout

/-- Sends the start byte. -/
def sendStart : Action Unit := do
  let s ← get
  transmit [startByte] s.settings.controlTimeout

/-- Sends a header. -/
def sendHeader (header : Header) (timeout : Nat) : Action Unit :=
  sendStuffed header.toBytes timeout

/-- The header of the next request; its sequence number is used up. -/
def prepareHeader (type : MessageType) (payload : Bytes) : Action Header :=
  Action.ofPerform fun s =>
    (.ok (.build s.nextSequence type payload), { s with nextSequence := s.nextSequence + 1 })

/-- Sends a request; its sequence number is the result. -/
def request (type : MessageType) (payload : Bytes) : Action UInt16 := do
  let header ← prepareHeader type payload
  modify (·.note (.issued { header := header, payload := payload }))
  let s ← get
  sendStart
  sendHeader header s.settings.controlTimeout
  if payload ≠ [] then sendStuffed payload s.settings.controlTimeout
  pure header.sequence

/-! ## Waiting -/

/-- A size of all that a session can still receive: what the link brings, and what the decoder has
found already. A byte counts twice, since it may become a verdict. -/
def Session.pending (s : Session) : Nat := 2 * unread s.incoming + s.decoder.ready.length

/-- Looks at a verdict that was taken off the decoder. -/
def Session.examine (s : Session) (verdict : Verdict) (ready : List Verdict) : Session :=
  { s with decoder := { s.decoder with ready := ready } }.note (.examined verdict)

/-- Reads bytes that were received. -/
def Session.absorb (s : Session) (bytes : Bytes) (clock : Nat) (incoming : List Arrival) :
    Session :=
  ({ s with incoming := incoming, decoder := s.decoder.push bytes }.waitUntil clock).note
    (.received bytes)

/-- A wait that brought no bytes. -/
def Session.waited (s : Session) (clock : Nat) (incoming : List Arrival) : Session :=
  { s with incoming := incoming }.waitUntil clock

theorem Session.pending_examine {s : Session} {verdict : Verdict} {ready : List Verdict}
    (h : s.decoder.ready = verdict :: ready) : (s.examine verdict ready).pending < s.pending := by
  simp [pending, examine, note, h]

theorem Session.pending_absorb {s : Session} {deadline clock : Nat} {bytes : Bytes}
    {incoming : List Arrival}
    (h : receive deadline s.clock s.incoming = (.received bytes, clock, incoming)) :
    (s.absorb bytes clock incoming).pending < s.pending := by
  have hrun := s.decoder.state.length_run_le bytes
  obtain ⟨hread, hne⟩ := unread_receive h
  have hpos := List.length_pos_iff.mpr hne
  simp only [pending, absorb, waitUntil, note, Decoder.push, List.length_append]
  omega

/-- Waits for the reply to request `sequence` up to a deadline. -/
def awaitFrom (sequence : UInt16) (deadline : Nat) (s : Session) :
    Except Failure Reply × Session :=
  match _hr : s.decoder.ready with
  | verdict :: ready =>
    match verdict.reply? sequence with
    | some reply => (.ok reply, s.examine verdict ready)
    | none => awaitFrom sequence deadline (s.examine verdict ready)
  | [] =>
    match _hb : receive deadline s.clock s.incoming with
    -- The deadline stays where it was, however much is received and dropped.
    | (.received bytes, clock, incoming) =>
      awaitFrom sequence deadline (s.absorb bytes clock incoming)
    | (.failed, clock, incoming) => (.error (.system .link), s.waited clock incoming)
    | (.closed, clock, incoming) => (.error .closed, s.waited clock incoming)
    | (.timedOut, clock, incoming) => (.error .timeout, s.waited clock incoming)
termination_by s.pending
decreasing_by
  · exact s.pending_examine _hr
  · exact s.pending_absorb _hb

/-- A reply is taken from what can still be received. -/
theorem pending_awaitFrom_lt (sequence : UInt16) (deadline : Nat) (s : Session) {reply : Reply}
    (h : (awaitFrom sequence deadline s).1 = .ok reply) :
    (awaitFrom sequence deadline s).2.pending < s.pending := by
  fun_induction awaitFrom sequence deadline s with
  | case1 s verdict ready hr _ _ => exact s.pending_examine hr
  | case2 s verdict ready hr _ ih => exact Nat.lt_trans (ih h) (s.pending_examine hr)
  | case3 s _ _ _ _ hb ih => exact Nat.lt_trans (ih h) (s.pending_absorb hb)
  | case4 => cases h
  | case5 => cases h
  | case6 => cases h

/-- Waits for the reply to request `sequence`, `timeout` milliseconds at most. -/
def awaitReply (sequence : UInt16) (timeout : Nat) : Action Reply :=
  Action.ofPerform fun s => awaitFrom sequence (s.clock + timeout) s

/-- Waits for the reply to request `sequence` and keeps its type. -/
def awaitAcknowledgement (sequence : UInt16) (timeout : Nat) : Action MessageType := do
  let reply ← awaitReply sequence timeout
  pure reply.type

/-- Sends a request and waits for its reply. -/
def exchange (type : MessageType) (payload : Bytes) (timeout : Settings → Nat) : Action Reply := do
  let sequence ← request type payload
  let s ← get
  awaitReply sequence (timeout s.settings)

/-! ## What is used up -/

/-- An action that leaves what can still be received as it is. -/
def Action.Keeps {α : Type} (action : Action α) : Prop :=
  ∀ s, (action.perform s).2.pending = s.pending

/-- An action whose success uses up some of what can still be received. -/
def Action.Spends {α : Type} (action : Action α) : Prop :=
  ∀ s a, (action.perform s).1 = .ok a → (action.perform s).2.pending < s.pending

theorem Action.keeps_pure {α : Type} (a : α) : Action.Keeps (pure a) := fun _ => rfl

theorem Action.keeps_get : Action.Keeps (get : Action Session) := fun _ => rfl

theorem Action.Keeps.bind {α β : Type} {first : Action α} {second : α → Action β}
    (h1 : first.Keeps) (h2 : ∀ a, (second a).Keeps) : Action.Keeps (first >>= second) := by
  intro s
  have hfirst := h1 s
  rw [Action.perform_bind]
  rcases hp : first.perform s with ⟨outcome, s'⟩
  rw [hp] at hfirst
  cases outcome with
  | error failure => exact hfirst
  | ok a => exact (h2 a s').trans hfirst

/-- What is used up behind an action that keeps everything is used up in all. -/
theorem Action.Keeps.bind_spends {α β : Type} {first : Action α} {second : α → Action β}
    (h1 : first.Keeps) (h2 : ∀ a, (second a).Spends) : Action.Spends (first >>= second) := by
  intro s b hb
  have hfirst := h1 s
  rw [Action.perform_bind] at hb ⊢
  rcases hp : first.perform s with ⟨outcome, s'⟩
  rw [hp] at hb hfirst
  cases outcome with
  | error failure => cases hb
  | ok a => exact Nat.lt_of_lt_of_eq (h2 a s' b hb) hfirst

/-- What is used up stays used up behind it. -/
theorem Action.Spends.bind {α β : Type} {first : Action α} {second : α → Action β}
    (h1 : first.Spends) (h2 : ∀ a, (second a).Keeps) : Action.Spends (first >>= second) := by
  intro s b hb
  have hfirst := h1 s
  rw [Action.perform_bind] at hb ⊢
  rcases hp : first.perform s with ⟨outcome, s'⟩
  rw [hp] at hb hfirst
  cases outcome with
  | error failure => cases hb
  | ok a => exact (h2 a s') ▸ hfirst a rfl

theorem keeps_poll : Action.Keeps poll := by
  intro s
  simp only [poll, Action.perform_ofPerform]
  split <;> rfl

theorem keeps_reportPosition (position : Nat) : Action.Keeps (reportPosition position) :=
  fun _ => rfl

theorem keeps_transmit (bytes : Bytes) (timeout : Nat) : Action.Keeps (transmit bytes timeout) := by
  intro s
  simp only [transmit, Action.perform_ofPerform]
  split
  · split <;> rfl
  all_goals rfl

theorem keeps_request (type : MessageType) (payload : Bytes) :
    Action.Keeps (request type payload) := by
  unfold request prepareHeader sendStart sendHeader sendStuffed
  refine .bind (fun _ => rfl) fun header => .bind (fun _ => rfl) fun _ =>
    .bind Action.keeps_get fun s => ?_
  refine .bind (.bind Action.keeps_get fun _ => keeps_transmit _ _) fun _ =>
    .bind (keeps_transmit _ _) fun _ => ?_
  split
  · exact .bind (keeps_transmit _ _) fun _ => Action.keeps_pure _
  · exact Action.keeps_pure _

theorem spends_awaitReply (sequence : UInt16) (timeout : Nat) :
    Action.Spends (awaitReply sequence timeout) :=
  fun s _ h => pending_awaitFrom_lt sequence (s.clock + timeout) s h

/-- A request that is answered uses up its answer. -/
theorem spends_exchange (type : MessageType) (payload : Bytes) (timeout : Settings → Nat) :
    Action.Spends (exchange type payload timeout) :=
  (keeps_request type payload).bind_spends fun _ =>
    Action.keeps_get.bind_spends fun _ => spends_awaitReply _ _

end FlightRecorder
