import FlightRecorder.Proofs.Device.Grouping

/-!
# What the device is sent

A request goes out in pieces, and the first piece that fails ends it. So the link takes the front of
a frame, or all of it, and whatever is sent next begins with a start byte. Somebody who decodes the
bytes gets the frames that went out whole; a frame that was broken off becomes one fault.

* `Action.Offers` — an action that sends bytes, or some front of them when it fails
* `Dispatch`, `Session.Dispatches` — the requests of a run, with what the link took of them
* `run_dispatches` — what the decoder makes of them
* `Straight.dispatches` — a run that succeeds has sent all its requests whole
* `peer_decodes_delivered_requests` — the bytes of a run of operations
-/

namespace FlightRecorder

open Session DecoderState

/-! ## Bytes of an action -/

/-- Between two sessions these requests were issued, and the link took these bytes. -/
def Session.Said (s : Session) (issued : List Frame) (taken : Bytes) (s' : Session) : Prop :=
  ∃ events, s'.history = s.history ++ events ∧ issuedRequests events = issued ∧
    sentBytes events = taken

namespace Session.Said

variable {s s' s'' : Session} {issued issued' : List Frame} {taken taken' : Bytes}

theorem trans (h : s.Said issued taken s') (h' : s'.Said issued' taken' s'') :
    s.Said (issued ++ issued') (taken ++ taken') s'' := by
  obtain ⟨events, heq, hissued, htaken⟩ := h
  obtain ⟨events', heq', hissued', htaken'⟩ := h'
  refine ⟨events ++ events', by rw [heq', heq, List.append_assoc], ?_, ?_⟩
  · rw [issuedRequests_append, hissued, hissued']
  · rw [sentBytes_append, htaken, htaken']

theorem of_note {event : Event} (hjournal : s'.journal = event :: s.journal)
    (hissued : issuedRequests [event] = issued) (htaken : sentBytes [event] = taken) :
    s.Said issued taken s' :=
  ⟨[event], history_of_journal hjournal, hissued, htaken⟩

theorem stretch (h : s.Said issued taken s') :
    issuedRequests (s.stretch s') = issued ∧ sentBytes (s.stretch s') = taken := by
  obtain ⟨events, heq, hissued, htaken⟩ := h
  rw [stretch_eq heq]
  exact ⟨hissued, htaken⟩

end Session.Said

/-- An action that sends bytes: the link takes some front of them, and all if the action succeeds. -/
def Action.Offers {α : Type} (action : Action α) (bytes : Bytes) : Prop :=
  ∀ s, ∃ taken, s.Said [] taken (action.perform s).2 ∧ taken <+: bytes ∧
    ∀ a, (action.perform s).1 = .ok a → taken = bytes

namespace Action

variable {α β : Type}

theorem offers_pure (a : α) : Offers (pure a : Action α) [] :=
  fun _ => ⟨[], ⟨[], (List.append_nil _).symm, rfl, rfl⟩, List.nil_prefix, fun _ _ => rfl⟩

theorem Offers.bind {first : Action α} {second : α → Action β} {front back : Bytes}
    (h1 : first.Offers front) (h2 : ∀ a, (second a).Offers back) :
    Offers (first >>= second) (front ++ back) := by
  intro s
  obtain ⟨taken, hsaid, hfront, hall⟩ := h1 s
  rcases perform_bind_cases first second s with ⟨failure, s', hp, heq⟩ | ⟨a, s', hp, heq⟩
  · rw [hp] at hsaid
    rw [heq]
    exact ⟨taken, hsaid, hfront.trans (List.prefix_append front back), fun _ hok => by cases hok⟩
  · obtain ⟨taken', hsaid', hback, hall'⟩ := h2 a s'
    have hwhole : taken = front := hall a (by rw [hp])
    rw [hp, hwhole] at hsaid
    rw [heq]
    refine ⟨front ++ taken', hsaid.trans hsaid', (List.prefix_append_right_inj front).mpr hback, ?_⟩
    exact fun b hok => by rw [hall' b hok]

theorem Offers.get_bind {second : Session → Action β} {bytes : Bytes}
    (h : ∀ s, (second s).Offers bytes) : Offers (do let s ← get; second s) bytes := by
  intro s
  rw [perform_bind, perform_get]
  exact h s s

end Action

/-- **A piece goes out whole or is broken off.** -/
theorem offers_transmit (bytes : Bytes) (timeout : Nat) : (transmit bytes timeout).Offers bytes := by
  intro s
  obtain ⟨count, -, hlink, hcomplete⟩ := s.outgoing.exists_send_eq bytes.length
  have htaken : (s.outgoing.send bytes.length).2.taken - s.outgoing.taken = count := by
    rw [hlink]
    exact Nat.add_sub_cancel_left _ _
  have hsaid : ∀ outgoing, s.Said [] (bytes.take count)
      (({ s with outgoing := outgoing } : Session).note (.sent (bytes.take count))) :=
    fun _ => .of_note rfl rfl (List.append_nil _)
  have hfront : bytes.take count <+: bytes := List.take_prefix count bytes
  rw [transmit, Action.perform_ofPerform]
  dsimp only
  rw [htaken]
  split
  · next hdone =>
    have hall : bytes.take count = bytes := by rw [hcomplete hdone, List.take_length]
    split
    · exact ⟨_, hsaid _, hfront, fun _ _ => hall⟩
    · exact ⟨_, hsaid _, hfront, fun _ _ => hall⟩
  · exact ⟨_, hsaid _, hfront, fun _ hok => by cases hok⟩
  · exact ⟨_, hsaid _, hfront, fun _ hok => by cases hok⟩
  · have hwaited : ∀ moment, s.Said [] (bytes.take count)
        ((({ s with outgoing := (s.outgoing.send bytes.length).2 } : Session).note
          (.sent (bytes.take count))).waitUntil moment) := by
      intro moment
      have hwait : ∀ t : Session, t.Said [] [] (t.waitUntil moment) :=
        fun t => .of_note rfl rfl rfl
      have hboth := (hsaid (s.outgoing.send bytes.length).2).trans (hwait _)
      rwa [List.append_nil, List.append_nil] at hboth
    exact ⟨_, hwaited _, hfront, fun _ hok => by cases hok⟩

/-- **A request goes out whole or is broken off.** -/
theorem offers_deliver (request : Frame) : (deliver request).Offers request.encode := by
  have hencode : request.encode
      = [startByte] ++ (stuff request.header.toBytes ++ (stuff request.payload ++ [])) := by
    rw [List.append_nil]
    rfl
  rw [hencode]
  refine .get_bind fun s => ?_
  refine .bind (.get_bind fun _ => offers_transmit _ _) fun _ => .bind (offers_transmit _ _) fun _ => ?_
  split
  · exact .bind (offers_transmit _ _) fun _ => Action.offers_pure _
  · next hpayload =>
    have hnone : request.payload = [] := Decidable.not_not.mp hpayload
    rw [hnone, stuff_nil]
    exact Action.offers_pure _

/-! ## Requests of a run -/

/-- A request, and the bytes of it that the link took. -/
structure Dispatch where
  request : Frame
  taken : Bytes
  deriving DecidableEq, Repr

/-- The link took the whole request, its last byte included. -/
def Dispatch.IsWhole (d : Dispatch) : Prop := d.taken = d.request.encode

instance : DecidablePred Dispatch.IsWhole :=
  fun d => inferInstanceAs (Decidable (d.taken = d.request.encode))

/-- The requests whose last byte the link took. -/
def deliveredRequests (dispatches : List Dispatch) : List Frame :=
  (dispatches.filter (·.IsWhole)).map Dispatch.request

/-- A request is sent, however far it gets. -/
def Session.DispatchesOnce (s : Session) (d : Dispatch) (s' : Session) : Prop :=
  ∃ type payload, payload.length ≤ maxPayloadSize ∧ s' = ((request type payload).perform s).2 ∧
    d = { request := .build s.nextSequence type payload, taken := sentBytes (s.stretch s') }

/-- Between two sessions no request was issued and nothing was sent. How the link will take bytes may
have changed. -/
def Session.Silent (s s' : Session) : Prop := s.Said [] [] s'

/-- Between two sessions of one run these requests were sent, and nothing else. -/
def Session.Dispatches (s : Session) (dispatches : List Dispatch) (s' : Session) : Prop :=
  Traced Silent DispatchesOnce s dispatches s'

namespace Session.Silent

variable {s s' s'' : Session}

theorem refl (s : Session) : s.Silent s := ⟨[], (List.append_nil _).symm, rfl, rfl⟩

theorem trans (h : s.Silent s') (h' : s'.Silent s'') : s.Silent s'' := Said.trans h h'

theorem of_adds {P : Event → Prop} (h : s.Adds P s')
    (hsilent : ∀ event, P event → issuedRequests [event] = [] ∧ sentBytes [event] = []) :
    s.Silent s' := by
  obtain ⟨events, heq, hall⟩ := h
  refine ⟨events, heq, List.filterMap_eq_nil_iff.mpr fun event hmem => ?_,
    List.flatMap_eq_nil_iff.mpr fun event hmem => ?_⟩
  · have hnone := (hsilent event (hall event hmem)).1
    cases event <;> first | rfl | cases hnone
  · have hnone := (hsilent event (hall event hmem)).2
    cases event <;> first | rfl | simpa [sentBytes] using hnone

theorem of_aside (h : s.Aside s') : s.Silent s' :=
  of_adds h.adds fun event haside => by
    cases event <;> first | exact ⟨rfl, rfl⟩ | exact haside.elim

theorem of_listened (h : s.Listened s') : s.Silent s' :=
  of_adds (.of_listened h) fun event hheard => by
    cases event <;> first | exact ⟨rfl, rfl⟩ | exact hheard.elim

end Session.Silent

/-- **A request is numbered, and then it goes out whole or is broken off.** -/
theorem said_request (type : MessageType) (payload : Bytes) (s : Session) :
    ∃ taken, s.Said [.build s.nextSequence type payload] taken
        ((request type payload).perform s).2 ∧
      taken <+: (Frame.build s.nextSequence type payload).encode ∧
      ∀ sequence, ((request type payload).perform s).1 = .ok sequence →
        taken = (Frame.build s.nextSequence type payload).encode := by
  let f := Frame.build s.nextSequence type payload
  obtain ⟨taken, hsaid, hfront, hwhole⟩ := offers_deliver f (s.issuing f)
  have hissued : s.Said [f] [] (s.issuing f) := .of_note rfl rfl rfl
  rw [perform_request]
  exact ⟨taken, hissued.trans hsaid, hfront, hwhole⟩

theorem Session.DispatchesOnce.spec {s s' : Session} {d : Dispatch} (h : s.DispatchesOnce d s') :
    d.request.Consistent ∧ d.taken <+: d.request.encode ∧ s.Said [d.request] d.taken s' := by
  obtain ⟨type, payload, hsize, rfl, rfl⟩ := h
  obtain ⟨taken, hsaid, hfront, -⟩ := said_request type payload s
  dsimp only
  rw [hsaid.stretch.2]
  exact ⟨Frame.consistent_build _ _ hsize, hfront, hsaid⟩

theorem Session.exists_dispatchesOnce (s : Session) (type : MessageType) {payload : Bytes}
    (hsize : payload.length ≤ maxPayloadSize) :
    ∃ d, s.DispatchesOnce d ((request type payload).perform s).2 ∧
      ∀ sequence, ((request type payload).perform s).1 = .ok sequence → d.IsWhole := by
  obtain ⟨taken, hsaid, -, hwhole⟩ := said_request type payload s
  refine ⟨_, ⟨type, payload, hsize, rfl, rfl⟩, fun sequence hok => ?_⟩
  rw [Dispatch.IsWhole, hsaid.stretch.2]
  exact hwhole sequence hok

theorem Session.Dispatches.trans {s s' s'' : Session} {dispatches dispatches' : List Dispatch}
    (h : s.Dispatches dispatches s') (h' : s'.Dispatches dispatches' s'') :
    s.Dispatches (dispatches ++ dispatches') s'' :=
  Traced.trans Silent.trans h h'

theorem Session.Dispatches.said {s s' : Session} {dispatches : List Dispatch}
    (h : s.Dispatches dispatches s') :
    s.Said (dispatches.map Dispatch.request) (dispatches.flatMap Dispatch.taken) s' := by
  induction h with
  | quiet hquiet => exact hquiet
  | cons hquiet hstep _ ih => exact Said.trans hquiet (hstep.spec.2.2.trans ih)

theorem Session.Dispatches.fronts {s s' : Session} {dispatches : List Dispatch}
    (h : s.Dispatches dispatches s') :
    ∀ d ∈ dispatches, d.request.Consistent ∧ d.taken <+: d.request.encode := by
  induction h with
  | quiet => exact List.forall_mem_nil _
  | cons _ hstep _ ih =>
    exact List.forall_mem_cons.mpr ⟨⟨hstep.spec.1, hstep.spec.2.1⟩, ih⟩

theorem spanning_dispatchesOnce : Spanning (Traceable Silent DispatchesOnce) where
  trans := Traceable.trans Silent.trans
  aside h := .of_quiet (.of_aside h)
  request type _ hsize s := by
    obtain ⟨d, hd, -⟩ := s.exists_dispatchesOnce type hsize
    exact .of_step Silent.refl hd
  exchange type _ timeout hsize :=
    leads_exchange_of_await (Traceable.refl Silent.refl) (Traceable.trans Silent.trans)
      (fun sequence deadline s => .of_quiet (.of_listened (listened_awaitFrom sequence deadline s)))
      (fun s => by
        obtain ⟨d, hd, -⟩ := s.exists_dispatchesOnce type hsize
        exact .of_step Silent.refl hd) timeout

/-! ## What the decoder makes of them -/

/-- The frames among verdicts. -/
def acceptedFrames (verdicts : List Verdict) : List Frame :=
  verdicts.filterMap fun
    | .accepted f => some f
    | .refused _ => none

/-- A verdict that is no frame says that a frame has lost its end. -/
def Verdict.IsFrameOrStray (verdict : Verdict) : Prop :=
  (∃ f, verdict = .accepted f) ∨ verdict = .refused .strayStart

theorem acceptedFrames_append (first second : List Verdict) :
    acceptedFrames (first ++ second) = acceptedFrames first ++ acceptedFrames second := by
  simp [acceptedFrames]

theorem acceptedFrames_strays (state : DecoderState) : acceptedFrames state.strays = [] := by
  cases state <;> rfl

theorem isFrameOrStray_of_mem_strays {state : DecoderState} {verdict : Verdict}
    (h : verdict ∈ state.strays) : verdict.IsFrameOrStray := by
  cases state with
  | idle => cases h
  | within part escaped buffer => exact .inr (List.mem_singleton.mp h)

/-- One request: it cuts off what was open, and it is read if it went out whole. -/
theorem run_dispatch {d : Dispatch} (hd : d.request.Consistent) (hfront : d.taken <+: d.request.encode)
    (state : DecoderState) :
    acceptedFrames (state.run d.taken).2 = (if d.IsWhole then [d.request] else []) ∧
      ∀ verdict ∈ (state.run d.taken).2, verdict.IsFrameOrStray := by
  by_cases hwhole : d.IsWhole
  · rw [if_pos hwhole, hwhole, hd.run_encode, acceptedFrames_append, acceptedFrames_strays]
    refine ⟨rfl, fun verdict hmem => ?_⟩
    rcases List.mem_append.mp hmem with hmem | hmem
    · exact isFrameOrStray_of_mem_strays hmem
    · exact .inl ⟨d.request, List.mem_singleton.mp hmem⟩
  · rw [if_neg hwhole]
    obtain ⟨back, hback⟩ := hfront
    by_cases hnone : d.taken = []
    · rw [hnone]
      exact ⟨rfl, List.forall_mem_nil _⟩
    · have hmissing : back ≠ [] := by
        intro hall
        rw [hall, List.append_nil] at hback
        exact hwhole hback
      rw [hd.run_front hback.symm hnone hmissing, acceptedFrames_strays]
      exact ⟨rfl, fun _ => isFrameOrStray_of_mem_strays⟩

/-- **The requests that went out whole come out, in order, and each other verdict is a frame that was
broken off.** -/
theorem run_dispatches {dispatches : List Dispatch}
    (h : ∀ d ∈ dispatches, d.request.Consistent ∧ d.taken <+: d.request.encode)
    (state : DecoderState) :
    acceptedFrames (state.run (dispatches.flatMap Dispatch.taken)).2 = deliveredRequests dispatches ∧
      ∀ verdict ∈ (state.run (dispatches.flatMap Dispatch.taken)).2, verdict.IsFrameOrStray := by
  induction dispatches generalizing state with
  | nil => exact ⟨rfl, List.forall_mem_nil _⟩
  | cons d dispatches ih =>
    obtain ⟨hd, hrest⟩ := List.forall_mem_cons.mp h
    obtain ⟨hframe, hverdicts⟩ := run_dispatch hd.1 hd.2 state
    obtain ⟨hframes, hothers⟩ := ih hrest (state.run d.taken).1
    rw [List.flatMap_cons, run_append]
    refine ⟨?_, fun verdict hmem => ?_⟩
    · rw [acceptedFrames_append, hframe, hframes, deliveredRequests, deliveredRequests,
        List.filter_cons]
      by_cases hwhole : d.IsWhole <;> simp [hwhole]
    · rcases List.mem_append.mp hmem with hmem | hmem
      · exact hverdicts verdict hmem
      · exact hothers verdict hmem

/-! ## Runs that succeed -/

/-- What led to this result sent requests, and all of them whole if the result is no failure. -/
def Session.SendsWhole {α : Type} (s : Session) (result : Except Failure α × Session) : Prop :=
  ∃ dispatches, s.Dispatches dispatches result.2 ∧
    ((∃ a, result.1 = .ok a) → ∀ d ∈ dispatches, d.IsWhole)

theorem Session.SendsWhole.of_silent {α : Type} {s : Session} {result : Except Failure α × Session}
    (h : s.Silent result.2) : s.SendsWhole result :=
  ⟨[], .quiet h, fun _ => List.forall_mem_nil _⟩

theorem sendsWhole_exchange (type : MessageType) {payload : Bytes} (timeout : Settings → Nat)
    (hsize : payload.length ≤ maxPayloadSize) (s : Session) :
    s.SendsWhole ((exchange type payload timeout).perform s) := by
  obtain ⟨d, hd, hwhole⟩ := s.exists_dispatchesOnce type hsize
  rcases perform_exchange_cases type payload timeout s with
    ⟨failure, s', hrequest, hexchange⟩ | ⟨sequence, s', hrequest, hexchange⟩
  · rw [hrequest] at hd
    rw [hexchange]
    exact ⟨[d], .single Silent.refl hd, fun hok => by
      obtain ⟨a, hok⟩ := hok
      cases hok⟩
  · have hlistened := listened_awaitFrom sequence (s'.clock + timeout s'.settings) s'
    rw [hexchange]
    refine ⟨[d], .cons (.refl s) hd (.quiet ?_), fun _ => ?_⟩
    · rw [hrequest]
      exact .of_listened hlistened
    · exact List.forall_mem_singleton.mpr (hwhole sequence (congrArg Prod.fst hrequest))

/-- **What ends with its first failure has sent all its requests whole if it succeeds.** -/
theorem Straight.sendsWhole {α : Type} {run : Session → Except Failure α × Session}
    (h : Straight run) (s : Session) : s.SendsWhole (run s) := by
  induction h generalizing s with
  | const result => exact .of_silent (.refl s)
  | @andThen α β first next hfirst hfailed hnext ih ihnext =>
    obtain ⟨dispatches, hdispatches, hwhole⟩ := ih s
    dsimp only
    cases hresult : (first s).1 with
    | error failure =>
      rw [hfailed]
      exact ⟨dispatches, hdispatches, fun hok => by
        obtain ⟨a, hok⟩ := hok
        cases hok⟩
    | ok a =>
      obtain ⟨dispatches', hdispatches', hwhole'⟩ := ihnext a (first s).2
      refine ⟨dispatches ++ dispatches', hdispatches.trans hdispatches', ?_⟩
      intro hok d hmem
      rcases List.mem_append.mp hmem with hmem | hmem
      · exact hwhole ⟨a, hresult⟩ d hmem
      · exact hwhole' hok d hmem
  | rounds within hwithin henough ih =>
    obtain ⟨n, hn⟩ := henough s
    rw [← hn n (Nat.le_refl n)]
    exact ih n s
  | poll => exact .of_silent (.of_aside (.poll s))
  | reportRange range => exact .of_silent (.of_aside (.reportRange range s))
  | reportPosition position => exact .of_silent (.of_aside (.reportPosition position s))
  | createFile path => exact .of_silent (.of_aside (.createFile path s))
  | store place content => exact .of_silent (.of_aside (.storing s _))
  | @removingOnFailure α action path h ih =>
    obtain ⟨dispatches, hdispatches, hwhole⟩ := ih s
    rw [Action.removingOnFailure, Action.perform_ofPerform]
    rcases hresult : action.perform s with ⟨failure | a, s'⟩
    · rw [hresult] at hdispatches
      have hremoved : s'.Silent { s' with storage := s'.storage.remove path } :=
        .of_aside (.storing s' _)
      have hall := hdispatches.trans (.quiet hremoved)
      rw [List.append_nil] at hall
      exact ⟨dispatches, hall, fun hok => by
        obtain ⟨a, hok⟩ := hok
        cases hok⟩
    · rw [hresult] at hdispatches hwhole
      exact ⟨dispatches, hdispatches, hwhole⟩
  | request type hsize =>
    obtain ⟨d, hd, hwhole⟩ := s.exists_dispatchesOnce type hsize
    refine ⟨[d], .single Silent.refl hd, fun hok => ?_⟩
    obtain ⟨sequence, hok⟩ := hok
    exact List.forall_mem_singleton.mpr (hwhole sequence hok)
  | exchange type timeout hsize => exact sendsWhole_exchange type timeout hsize s

/-- The operation has not failed. -/
def Outcome.Succeeded : Outcome → Prop
  | done result => ∃ a, result = .ok a
  | selected result => ∃ a, result = .ok a
  | described result => ∃ a, result = .ok a
  | listed result _ => ∃ a, result = .ok a

/-- A listing goes on when the description of a record cannot be read; every other operation ends
with its first failure. -/
theorem Operation.sendsWhole {op : Operation} (hop : ∀ list, op ≠ .listRecords list) (s : Session) :
    ∃ dispatches, s.Dispatches dispatches (op.perform s).2 ∧
      ((op.perform s).1.Succeeded → ∀ d ∈ dispatches, d.IsWhole) := by
  cases op with
  | ping => exact straight_ping.sendsWhole s
  | exitBinaryMode => exact straight_exitBinaryMode.sendsWhole s
  | selectRecord index => exact (straight_selectRecord index).sendsWhole s
  | readInfo index => exact (straight_readInfo index).sendsWhole s
  | listRecords list => exact absurd rfl (hop list)
  | downloadSelected path => exact (straight_downloadSelected path).sendsWhole s
  | download flight path => exact (straight_download flight path).sendsWhole s

/-! ## Whole runs -/

theorem deliveredRequests_append (first second : List Dispatch) :
    deliveredRequests (first ++ second) = deliveredRequests first ++ deliveredRequests second := by
  simp [deliveredRequests]

theorem deliveredRequests_of_whole {dispatches : List Dispatch}
    (h : ∀ d ∈ dispatches, d.IsWhole) :
    deliveredRequests dispatches = dispatches.map Dispatch.request := by
  rw [deliveredRequests, List.filter_eq_self.mpr fun d hd => decide_eq_true (h d hd)]

/-- The verdicts of somebody who reads what a session has sent. -/
def peerVerdicts (s : Session) : List Verdict :=
  (Decoder.fresh.push (sentBytes s.history)).ready

theorem peerVerdicts_of_dispatches {s₀ s : Session} {dispatches : List Dispatch}
    (hnew : s₀.history = []) (h : s₀.Dispatches dispatches s) :
    issuedRequests s.history = dispatches.map Dispatch.request ∧
      sentBytes s.history = dispatches.flatMap Dispatch.taken ∧
      acceptedFrames (peerVerdicts s) = deliveredRequests dispatches ∧
      ∀ verdict ∈ peerVerdicts s, verdict.IsFrameOrStray := by
  obtain ⟨events, heq, hissued, htaken⟩ := h.said
  rw [hnew, List.nil_append] at heq
  rw [peerVerdicts, heq, hissued, htaken]
  exact ⟨rfl, rfl, run_dispatches h.fronts .idle⟩

/-- Links that differ in the size of their writes are used alike. -/
theorem Session.alike_pieceSize {s : Session} {pieceSize : Option Nat}
    (h : s.outgoing.pieceSize ≠ some 0) (h' : pieceSize ≠ some 0) :
    s.Alike allNumbers { s with outgoing := { s.outgoing with pieceSize := pieceSize } } where
  clock := rfl
  outgoing := by rw [Outgoing.inOneWrite, Outgoing.inOneWrite, if_neg h, if_neg h']
  storage := rfl
  settings := rfl
  nextSequence := rfl
  observer := rfl
  prospects := rfl
  sent := rfl

/--
**The device reads exactly the requests whose last byte the link took.**

A run of operations on a new connection sends its requests one after the other, of each some front of
its frame. Somebody who decodes all bytes gets the requests that went out whole, in the order in
which they were issued, and besides them nothing but complaints about frames that have lost their
end; and it does not matter if between two requests the link gets into trouble or out of it. What an
operation adds is all its requests if it succeeds, unless it is a listing, which passes over records
that it cannot ask about. In how many writes the link takes the bytes makes no difference to the
bytes, the results and everything else that the caller can tell.
-/
theorem peer_decodes_delivered_requests (settings : Settings) (incoming : List Arrival)
    (outgoing : Outgoing) (storage : Storage) :
    let s₀ := Session.start settings incoming outgoing storage
    (∀ operations, ∃ dispatches,
      s₀.Dispatches dispatches (s₀.afterCalls (operationCalls operations))) ∧
    (∀ dispatches s, s₀.Dispatches dispatches s →
      issuedRequests s.history = dispatches.map Dispatch.request ∧
      sentBytes s.history = dispatches.flatMap Dispatch.taken ∧
      (∀ d ∈ dispatches, d.taken <+: d.request.encode) ∧
      acceptedFrames (peerVerdicts s) = deliveredRequests dispatches ∧
      ∀ verdict ∈ peerVerdicts s, (∃ f, verdict = .accepted f) ∨ verdict = .refused .strayStart) ∧
    (∀ before behind (op : Operation) observer s s', s₀.Dispatches before s →
      (∀ list, op ≠ .listRecords list) → (op.perform (s.watchedBy observer)).1.Succeeded →
      (op.perform (s.watchedBy observer)).2.Dispatches behind s' →
      acceptedFrames (peerVerdicts s') = deliveredRequests before
        ++ issuedRequests (s.stretch (op.perform (s.watchedBy observer)).2)
        ++ deliveredRequests behind) ∧
    ∀ operations pieceSize, outgoing.pieceSize ≠ some 0 → pieceSize ≠ some 0 →
      ((Session.start settings incoming { outgoing with pieceSize := pieceSize } storage).stages
          (operationCalls operations)).map Stage.account
        = (s₀.stages (operationCalls operations)).map Stage.account := by
  intro s₀
  refine ⟨fun operations => s₀.leads_operations spanning_dispatchesOnce operations,
    fun dispatches s h => ?_, fun before behind op observer s s' hbefore hop hok hbehind => ?_,
    fun operations pieceSize h h' => ?_⟩
  · obtain ⟨hissued, hsent, hframes, hverdicts⟩ := peerVerdicts_of_dispatches rfl h
    exact ⟨hissued, hsent, fun d hd => (h.fronts d hd).2, hframes, hverdicts⟩
  · obtain ⟨dispatches, hop, hwhole⟩ := Operation.sendsWhole hop (s.watchedBy observer)
    have hdone : s.Dispatches dispatches (op.perform (s.watchedBy observer)).2 :=
      Traced.of_quiet Silent.trans (.of_aside (.watchedBy s observer)) hop
    obtain ⟨-, -, hframes, -⟩ :=
      peerVerdicts_of_dispatches rfl ((hbefore.trans hdone).trans hbehind)
    rw [hframes, deliveredRequests_append, deliveredRequests_append,
      deliveredRequests_of_whole (hwhole hok), hdone.said.stretch.1]
  · exact (s₀.alike_pieceSize h h').accounts_eq (operationCalls operations)

/-- A link that cannot flush from its twelfth byte on, and brings the answer to request 0. -/
def sessionOnBadLink : Session :=
  .start .standard [.data (Frame.reply 0 .ack 0 []).encode]
    { pieceSize := some 5, trouble := some (.unflushable, 12), taken := 0 } .empty

/-- A ping is answered; the last byte of an exit is taken, but cannot be flushed; of two more requests
the link takes the start byte. The bytes could as well have been taken one by one. -/
theorem peer_decodes_on_bad_link :
    let calls := operationCalls [(.ping, .patient), (.exitBinaryMode, .patient)]
    let answered := Operation.ping.perform (sessionOnBadLink.watchedBy .patient)
    let s₂ := ((request .exit []).perform answered.2).2
    let s₃ := ((request .selectRecord [3]).perform s₂).2
    let s₄ := ((request .ping []).perform s₃).2
    acceptedFrames (peerVerdicts s₄) = [.build 0 .ping [], .build 1 .exit []] ∧
      (peerVerdicts s₄).length = 3 ∧
      (({ sessionOnBadLink with
          outgoing := { sessionOnBadLink.outgoing with pieceSize := some 1 } } : Session).stages
            calls).map Stage.account
        = (sessionOnBadLink.stages calls).map Stage.account := by
  intro calls answered s₂ s₃ s₄
  let behind : List Dispatch :=
    [{ request := .build 1 .exit [], taken := (Frame.build 1 .exit []).encode },
      { request := .build 2 .selectRecord [3], taken := [startByte] },
      { request := .build 3 .ping [], taken := [startByte] }]
  have hbehind : answered.2.Dispatches behind s₄ :=
    .cons (.refl _) ⟨.exit, [], by decide, rfl, by decide +kernel⟩ <|
      .cons (.refl _) ⟨.selectRecord, [3], by decide, rfl, by decide +kernel⟩ <|
        .single Silent.refl ⟨.ping, [], by decide, rfl, by decide +kernel⟩
  have hresult : (ping.perform (sessionOnBadLink.watchedBy .patient)).1 = .ok () := by decide +kernel
  have hok : answered.1.Succeeded := ⟨(), hresult⟩
  obtain ⟨-, -, hall, hpieces⟩ := peer_decodes_delivered_requests .standard
    sessionOnBadLink.incoming sessionOnBadLink.outgoing .empty
  have hframes := hall [] behind .ping .patient sessionOnBadLink s₄ (.quiet (.refl _))
    (fun list h => by cases h) hok hbehind
  exact ⟨hframes.trans (by decide +kernel), by decide +kernel,
    hpieces [(.ping, .patient), (.exitBinaryMode, .patient)] (some 1) (by decide) (by decide)⟩

end FlightRecorder
