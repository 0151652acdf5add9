import FlightRecorder.Proofs.Device.Answers
import FlightRecorder.Proofs.Device.Calls

/-!
# The numbers of requests

A connection counts its requests from zero on, in sixteen bits. A number is used up when a header is
prepared, so it makes no difference to the next request whether the link took the last one or anybody
answered it. A reply is told by the number that it echoes.

* `Reply.Echoes` — the number that a reply names
* `NumberedRequest`, `Session.Issues`, `Session.Numbers` — a request that was given a number
* `Session.Counts` — the requests between two sessions of one run
* `requests_counted_and_matched` — the numbers of a run, and which replies its requests can get
-/

namespace FlightRecorder

open Session

/-! ## Replies and numbers -/

/-- A reply names the request that it answers: its payload begins with that number. -/
def Reply.Echoes (reply : Reply) (sequence : UInt16) : Prop :=
  ∃ data, reply.payload = littleEndian sequence ++ data

/-- A reply names no more than one number. -/
theorem Reply.Echoes.unique {reply : Reply} {first second : UInt16} (h : reply.Echoes first)
    (h' : reply.Echoes second) : first = second := by
  obtain ⟨data, hfirst⟩ := h
  obtain ⟨data', hsecond⟩ := h'
  rw [hfirst] at hsecond
  have hbytes : littleEndian first = littleEndian second := (List.append_inj hsecond rfl).1
  simp only [littleEndian, List.cons.injEq, and_true] at hbytes
  rw [← wordOf_littleEndian first, hbytes.1, hbytes.2, wordOf_littleEndian]

theorem Verdict.Answers.echoes {verdict : Verdict} {sequence : UInt16} {reply : Reply}
    (h : verdict.Answers sequence reply) : reply.Echoes sequence := by
  obtain ⟨f, data, -, -, hpayload, rfl⟩ := h
  exact ⟨data, hpayload⟩

/-- **A wait returns a reply that names its request**, whatever else comes. -/
theorem echoes_of_awaitFrom {sequence : UInt16} {deadline : Nat} {s : Session} {reply : Reply}
    (h : (awaitFrom sequence deadline s).1 = .ok reply) : reply.Echoes sequence := by
  fun_induction awaitFrom sequence deadline s with
  | case1 s verdict ready hr found hv =>
    cases h
    exact (Verdict.reply?_eq_some_iff.mp hv).echoes
  | case2 s verdict ready hr hv ih => exact ih h
  | case3 s hr bytes clock incoming hb ih => exact ih h
  | case4 => cases h
  | case5 => cases h
  | case6 => cases h

/-! ## Between requests -/

/-- Between two sessions no number was used up, and no request was issued. -/
structure Session.Unnumbered (s s' : Session) : Prop where
  nextSequence : s'.nextSequence = s.nextSequence
  issued : issuedRequests s'.history = issuedRequests s.history

namespace Session.Unnumbered

variable {s s' s'' : Session}

theorem refl (s : Session) : s.Unnumbered s := ⟨rfl, rfl⟩

theorem trans (h : s.Unnumbered s') (h' : s'.Unnumbered s'') : s.Unnumbered s'' :=
  ⟨h'.nextSequence.trans h.nextSequence, h'.issued.trans h.issued⟩

theorem of_listened (h : s.Listened s') : s.Unnumbered s' :=
  ⟨h.nextSequence, h.issuedRequests_eq⟩

theorem of_aside (h : s.Aside s') : s.Unnumbered s' where
  nextSequence := h.nextSequence
  issued := by
    refine h.adds.filterMap_eq fun event haside => ?_
    cases event <;> first | rfl | exact haside.elim

end Session.Unnumbered

theorem leads_unnumbered_transmit (bytes : Bytes) (timeout : Nat) :
    (transmit bytes timeout).Leads Unnumbered :=
  leads_transmit (R := Unnumbered) .trans (fun _ _ _ => ⟨rfl, issuedRequests_note rfl⟩)
    (fun _ _ => ⟨rfl, issuedRequests_note rfl⟩) bytes timeout

theorem leads_unnumbered_await (sequence : UInt16) (deadline : Nat) (s : Session) :
    s.Unnumbered (awaitFrom sequence deadline s).2 :=
  .of_listened (listened_awaitFrom sequence deadline s)

/-! ## Requests -/

/-- A request that was given a number, and the reply that was returned for it. -/
structure NumberedRequest where
  request : Frame
  reply : Option Reply

/-- Sending a request, or sending it and waiting for its reply, however that ends. -/
inductive Session.Issues (s : Session) : NumberedRequest → Session → Prop
  | requested (type : MessageType) (payload : Bytes) :
      s.Issues { request := .build s.nextSequence type payload, reply := none }
        ((request type payload).perform s).2
  | exchanged (type : MessageType) (payload : Bytes) (timeout : Settings → Nat) :
      s.Issues { request := .build s.nextSequence type payload
                 reply := ((exchange type payload timeout).perform s).1.toOption }
        ((exchange type payload timeout).perform s).2

/-- All that uses up a number: issuing a request, or preparing a header for somebody who sends it
himself. -/
inductive Session.Numbers (s : Session) : NumberedRequest → Session → Prop
  | issued {numbered : NumberedRequest} {s' : Session} (h : s.Issues numbered s') :
      s.Numbers numbered s'
  | prepared (type : MessageType) (payload : Bytes) :
      s.Numbers { request := .build s.nextSequence type payload, reply := none }
        ((prepareHeader type payload).perform s).2

theorem Session.unnumbered_request (type : MessageType) (payload : Bytes) (s : Session) :
    (s.issuing (.build s.nextSequence type payload)).Unnumbered
      ((request type payload).perform s).2 := by
  rw [perform_request]
  exact leads_deliver Unnumbered.refl Unnumbered.trans leads_unnumbered_transmit _ _

theorem Session.unnumbered_exchange (type : MessageType) (payload : Bytes)
    (timeout : Settings → Nat) (s : Session) :
    (s.issuing (.build s.nextSequence type payload)).Unnumbered
      ((exchange type payload timeout).perform s).2 := by
  have hsent := s.unnumbered_request type payload
  rcases perform_exchange_cases type payload timeout s with
    ⟨failure, s', hrequest, hexchange⟩ | ⟨sequence, s', hrequest, hexchange⟩
  · rw [hrequest] at hsent
    rw [hexchange]
    exact hsent
  · rw [hrequest] at hsent
    rw [hexchange]
    exact hsent.trans (leads_unnumbered_await _ _ s')

/-- The reply to a request names the request's number. -/
theorem echoes_of_exchange {type : MessageType} {payload : Bytes} {timeout : Settings → Nat}
    {s : Session} {reply : Reply}
    (h : ((exchange type payload timeout).perform s).1 = .ok reply) :
    reply.Echoes s.nextSequence := by
  rcases perform_exchange_cases type payload timeout s with
    ⟨failure, s', hrequest, hexchange⟩ | ⟨sequence, s', hrequest, hexchange⟩
  · rw [hexchange] at h
    cases h
  · rw [hexchange] at h
    rw [perform_request] at hrequest
    have hsequence : sequence = s.nextSequence := eq_sequence_of_deliver hrequest
    rw [← hsequence]
    exact echoes_of_awaitFrom h

/-- **A request uses up exactly one number**, however it ends, and only its own is returned. -/
theorem Session.Numbers.spec {s s' : Session} {numbered : NumberedRequest}
    (h : s.Numbers numbered s') :
    numbered.request.sequence = s.nextSequence ∧ s'.nextSequence = s.nextSequence + 1 ∧
      ∀ reply, numbered.reply = some reply → reply.Echoes s.nextSequence := by
  cases h with
  | prepared type payload => exact ⟨rfl, rfl, fun reply hreply => by cases hreply⟩
  | issued h =>
    cases h with
    | requested type payload =>
      exact ⟨rfl, (s.unnumbered_request type payload).nextSequence, fun _ hreply => by cases hreply⟩
    | exchanged type payload timeout =>
      refine ⟨rfl, (s.unnumbered_exchange type payload timeout).nextSequence, fun reply hreply => ?_⟩
      cases hresult : ((exchange type payload timeout).perform s).1 with
      | error failure =>
        rw [hresult] at hreply
        cases hreply
      | ok found =>
        rw [hresult] at hreply
        cases hreply
        exact echoes_of_exchange hresult

theorem Session.Issues.issuedRequests_eq {s s' : Session} {numbered : NumberedRequest}
    (h : s.Issues numbered s') :
    issuedRequests s'.history = issuedRequests s.history ++ [numbered.request] := by
  have hissuing : ∀ request : Frame,
      issuedRequests (s.issuing request).history = issuedRequests s.history ++ [request] := by
    intro request
    rw [issuing, history_note, issuedRequests_append]
    rfl
  cases h with
  | requested type payload => rw [(s.unnumbered_request type payload).issued, hissuing]
  | exchanged type payload timeout =>
    rw [(s.unnumbered_exchange type payload timeout).issued, hissuing]

/-! ## The requests of a run -/

/-- Between two sessions of one run these were the uses of a number. -/
def Session.Counts (s : Session) (log : List NumberedRequest) (s' : Session) : Prop :=
  Traced Unnumbered Numbers s log s'

theorem spanning_issues : Spanning (Traceable Unnumbered Issues) where
  trans := Traceable.trans Unnumbered.trans
  aside h := .of_quiet (.of_aside h)
  request type payload _ _ := .of_step Unnumbered.refl (.requested type payload)
  exchange type payload timeout _ _ := .of_step Unnumbered.refl (.exchanged type payload timeout)

theorem callSpanning_numbers : CallSpanning (Traceable Unnumbered Numbers) where
  trans := Traceable.trans Unnumbered.trans
  aside h := (spanning_issues.aside h).mono .issued
  request type _ hsize s := (spanning_issues.request type hsize s).mono .issued
  exchange type _ timeout hsize s := (spanning_issues.exchange type timeout hsize s).mono .issued
  prepareHeader type payload _ := .of_step Unnumbered.refl (.prepared type payload)
  transmit bytes timeout s := .of_quiet (leads_unnumbered_transmit bytes timeout s)
  await sequence deadline s := .of_quiet (leads_unnumbered_await sequence deadline s)

/-- **Every request of a run has the number behind that of the request before.** -/
theorem Session.Counts.getElem {s s' : Session} {log : List NumberedRequest}
    (h : s.Counts log s') (n : Nat) (hn : n < log.length) :
    log[n].request.sequence = s.nextSequence + UInt16.ofNat n ∧
      ∀ reply, log[n].reply = some reply → reply.Echoes log[n].request.sequence := by
  induction h generalizing n with
  | quiet => exact absurd hn (Nat.not_lt_zero n)
  | cons hquiet hstep _ ih =>
    obtain ⟨hsequence, hnext, hechoes⟩ := hstep.spec
    cases n with
    | zero =>
      refine ⟨?_, fun reply hreply => ?_⟩
      · rw [List.getElem_cons_zero, hsequence, hquiet.nextSequence]
        exact (UInt16.add_zero _).symm
      · rw [List.getElem_cons_zero, hsequence]
        exact hechoes reply hreply
    | succ n =>
      obtain ⟨hrest, hreplies⟩ := ih n (Nat.lt_of_succ_lt_succ hn)
      refine ⟨?_, hreplies⟩
      rw [List.getElem_cons_succ, hrest, hnext, hquiet.nextSequence, UInt16.add_assoc,
        Nat.add_comm n 1, UInt16.ofNat_add]
      rfl

theorem issuedRequests_of_traced {s s' : Session} {log : List NumberedRequest}
    (h : Traced Unnumbered Issues s log s') :
    issuedRequests s'.history
      = issuedRequests s.history ++ log.map NumberedRequest.request := by
  induction h with
  | quiet hquiet => rw [hquiet.issued, List.map_nil, List.append_nil]
  | cons hquiet hstep _ ih =>
    rw [ih, hstep.issuedRequests_eq, hquiet.issued, List.append_assoc]
    rfl

/-- A reply that was returned for a request: by the operation that sent it, or by a wait for its
number. -/
def NumberedRequest.Returned (numbered : NumberedRequest) (reply : Reply) : Prop :=
  numbered.reply = some reply ∨
    ∃ s timeout, ((awaitReply numbered.request.sequence timeout).perform s).1 = .ok reply

/--
**The n-th request of a connection has number n modulo 65536, and gets replies to that number only.**

Whatever the calls on a new connection are and however they end, each of their requests uses up one
number; those of operations are the requests of the history. A reply that is returned for a request
names its number. So if it names the number of another request too, the two are a multiple of 65536
requests apart, and in runs of no more than 65536 requests it names one request only.
-/
theorem requests_counted_and_matched (settings : Settings) (incoming : List Arrival)
    (outgoing : Outgoing) (storage : Storage) :
    let s₀ := Session.start settings incoming outgoing storage
    (∀ calls, ∃ log, s₀.Counts log (s₀.afterCalls calls)) ∧
    (∀ operations, ∃ log, s₀.Counts log (s₀.afterCalls (operationCalls operations)) ∧
      issuedRequests (s₀.afterCalls (operationCalls operations)).history
        = log.map NumberedRequest.request) ∧
    ∀ log s, s₀.Counts log s → ∀ n (hn : n < log.length),
      log[n].request.sequence.toNat = n % 65536 ∧
      ∀ reply, log[n].Returned reply →
        reply.Echoes (UInt16.ofNat n) ∧
        ∀ m (hm : m < log.length), reply.Echoes log[m].request.sequence →
          n % 65536 = m % 65536 ∧ (log.length ≤ 65536 → n = m) := by
  intro s₀
  refine ⟨fun calls => s₀.leads_afterCalls callSpanning_numbers calls, fun operations => ?_,
    fun log s h n hn => ?_⟩
  · obtain ⟨log, h⟩ := s₀.leads_operations spanning_issues operations
    exact ⟨log, h.mono .issued, issuedRequests_of_traced h⟩
  · have hnumber : ∀ k (hk : k < log.length), log[k].request.sequence = UInt16.ofNat k := by
      intro k hk
      rw [(h.getElem k hk).1]
      exact UInt16.zero_add _
    have hvalue : ∀ k (hk : k < log.length), log[k].request.sequence.toNat = k % 65536 := by
      intro k hk
      rw [hnumber k hk, UInt16.toNat_ofNat']
    refine ⟨hvalue n hn, fun reply hreply => ?_⟩
    have hechoes : reply.Echoes log[n].request.sequence := by
      rcases hreply with hreply | ⟨t, timeout, hreply⟩
      · exact (h.getElem n hn).2 reply hreply
      · exact echoes_of_awaitFrom hreply
    refine ⟨hnumber n hn ▸ hechoes, fun m hm hother => ?_⟩
    have hsame : n % 65536 = m % 65536 := by
      rw [← hvalue n hn, ← hvalue m hm, hechoes.unique hother]
    exact ⟨hsame, fun hfew => by omega⟩

/-- A link that brings the answer to request 0 late, and twice, in front of the answer to request
1. -/
def arrivalsOfLateAnswer : List Arrival :=
  let late := (Frame.reply 0 .ack 0 []).encode
  [.silence 1500, .data (late ++ late ++ (Frame.reply 1 .ack 1 [7]).encode)]

/-- A ping that is not answered in time uses up number 0. The selection behind it drops both late
answers and gets the one to number 1. -/
theorem requests_counted_of_late_answer :
    let s := Session.start .standard arrivalsOfLateAnswer .unlimited .empty
    let s₁ := ((exchange .ping [] Settings.controlTimeout).perform s).2
    let s₂ := ((exchange .selectRecord [3] Settings.controlTimeout).perform s₁).2
    let reply : Reply := { type := .ack, payload := [1, 0, 7] }
    let log : List NumberedRequest := [{ request := .build 0 .ping [], reply := none },
      { request := .build 1 .selectRecord [3], reply := some reply }]
    s.Counts log s₂ ∧ ∀ m (hm : m < log.length), reply.Echoes log[m].request.sequence ↔ m = 1 := by
  intro s s₁ s₂ reply log
  have hfirst : ((exchange .ping [] Settings.controlTimeout).perform s).1.toOption = none := by
    decide +kernel
  have hsecond : ((exchange .selectRecord [3] Settings.controlTimeout).perform s₁).1.toOption
      = some reply := by decide +kernel
  have hping : s.Numbers { request := .build 0 .ping [], reply := none } s₁ :=
    hfirst ▸ .issued (.exchanged .ping [] Settings.controlTimeout)
  have hnext : s₁.nextSequence = 1 := hping.spec.2.1
  have hselection : s₁.Numbers { request := .build 1 .selectRecord [3], reply := some reply } s₂ :=
    hsecond ▸ hnext ▸ .issued (.exchanged .selectRecord [3] Settings.controlTimeout)
  have hcounts : s.Counts log s₂ := .cons (.refl s) hping (.single Unnumbered.refl hselection)
  obtain ⟨hechoes, hmatched⟩ := ((requests_counted_and_matched .standard arrivalsOfLateAnswer
    .unlimited .empty).2.2 log s₂ hcounts 1 (by decide)).2 reply (.inl rfl)
  refine ⟨hcounts, fun m hm => ⟨fun hother => ?_, fun hm => ?_⟩⟩
  · exact ((hmatched m hm hother).2 (by decide)).symm
  · subst hm
    exact hechoes

end FlightRecorder
