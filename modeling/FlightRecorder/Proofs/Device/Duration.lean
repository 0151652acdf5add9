import FlightRecorder.Proofs.Device.Agenda
import FlightRecorder.Proofs.Device.Cancellation

/-!
# How long operations take

A wait and a transfer go round in loops that count nothing. What ends them is that every round uses up
some of what the session can still receive, which is finite. So the loops come out after a number of
rounds that is known beforehand, and what an operation does is bounded by what there is to receive,
with a constant for what it does itself.

* `loopWithin`, `loopWithin_of_lt` — a loop that is given up after so many rounds
* `awaitRound`, `transferRound` — the rounds of a wait and of a transfer
* `Session.Within`, `Lasts` — how much a run notes, weighed against what it uses up
* `lasts_exchange`, `lasts_transferFrom`, `LongOperation.within` — the operations
* `acknowledgements`, `length_answered_le` — what answers requests
* `LongOperation.returns` — every long operation comes to its end
-/

namespace FlightRecorder

open Session

/-! ## Loops -/

/-- A loop that is given up after so many rounds. A round ends the loop, or it says what the next one
begins with. -/
def loopWithin {σ β : Type} (round : σ → β ⊕ σ) : Nat → σ → Option β
  | 0, _ => none
  | rounds + 1, state =>
    match round state with
    | .inl result => some result
    | .inr state' => loopWithin round rounds state'

/-- **A loop whose rounds use up a size comes out** after no more rounds than that. -/
theorem loopWithin_of_lt {σ β : Type} {round : σ → β ⊕ σ} {run : σ → β} {size : σ → Nat}
    (hrun : ∀ state, run state = Sum.elim id run (round state))
    (hsize : ∀ {state state'}, round state = .inr state' → size state' < size state) {rounds : Nat}
    {state : σ} (h : size state < rounds) : loopWithin round rounds state = some (run state) := by
  induction rounds generalizing state with
  | zero => exact absurd h (Nat.not_lt_zero _)
  | succ rounds ih =>
    rw [loopWithin, hrun state]
    cases hround : round state with
    | inl result => rfl
    | inr state' =>
      have hless : size state' < size state := hsize hround
      exact ih (by omega)

/-- One round of the wait for the reply to request `sequence`: it looks at one verdict or reads
once. -/
def awaitRound (sequence : UInt16) (deadline : Nat) (s : Session) :
    (Except Failure Reply × Session) ⊕ Session :=
  match s.decoder.ready with
  | verdict :: ready =>
    match verdict.reply? sequence with
    | some reply => .inl (.ok reply, s.examine verdict ready)
    | none => .inr (s.examine verdict ready)
  | [] =>
    match receive deadline s.clock s.incoming with
    | (.received bytes, clock, incoming) => .inr (s.absorb bytes clock incoming)
    | (.failed, clock, incoming) => .inl (.error (.system .link), s.waited clock incoming)
    | (.closed, clock, incoming) => .inl (.error .closed, s.waited clock incoming)
    | (.timedOut, clock, incoming) => .inl (.error .timeout, s.waited clock incoming)

theorem awaitFrom_eq_round (sequence : UInt16) (deadline : Nat) (s : Session) :
    awaitFrom sequence deadline s
      = Sum.elim id (awaitFrom sequence deadline) (awaitRound sequence deadline s) := by
  rw [awaitFrom, awaitRound]
  split
  · split <;> simp_all
  · split <;> simp_all

theorem pending_awaitRound {sequence : UInt16} {deadline : Nat} {s s' : Session}
    (h : awaitRound sequence deadline s = .inr s') : s'.pending < s.pending := by
  unfold awaitRound at h
  split at h
  · rename_i verdict ready hready
    split at h
    · cases h
    · cases h
      exact s.pending_examine hready
  · split at h
    · rename_i hreceived
      cases h
      exact s.pending_absorb hreceived
    all_goals cases h

/-- A round that is not the last one notes what it was. -/
theorem noted_awaitRound {sequence : UInt16} {deadline : Nat} {s s' : Session}
    (h : awaitRound sequence deadline s = .inr s') : s.history.length < s'.history.length := by
  have hnote : ∀ (s : Session) event, s.history.length < (s.note event).history.length := by
    intro s event
    rw [history_note, List.length_append, List.length_singleton]
    exact Nat.lt_succ_self _
  unfold awaitRound at h
  split at h
  · split at h
    · cases h
    · cases h
      exact hnote _ _
  · split at h
    · rename_i bytes clock incoming _
      cases h
      have hwaited : s.history.length < (s.waitUntil clock).history.length := hnote _ _
      exact Nat.lt_trans hwaited (hnote _ _)
    all_goals cases h

/-- One round of a transfer: it asks for one piece. -/
def transferRound (state : FileWriter × Session) :
    (Except Failure FileWriter × Session) ⊕ (FileWriter × Session) :=
  match (appendChunk state.1).perform state.2 with
  | (.error failure, s') => .inl (.error failure, s')
  | (.ok (w', isLast), s') => if isLast then .inl (.ok w', s') else .inr (w', s')

theorem transferFrom_eq_round (state : FileWriter × Session) :
    transferFrom state.1 state.2
      = Sum.elim id (fun state' => transferFrom state'.1 state'.2) (transferRound state) := by
  rw [transferFrom_eq, transferRound]
  rcases (appendChunk state.1).perform state.2 with ⟨_ | ⟨w', isLast⟩, s'⟩
  · rfl
  · dsimp only
    split <;> rfl

theorem pending_transferRound {state state' : FileWriter × Session}
    (h : transferRound state = .inr state') : state'.2.pending < state.2.pending := by
  have hspends := spends_appendChunk state.1 state.2
  unfold transferRound at h
  split at h
  · cases h
  · rename_i w' isLast s' hchunk
    rw [hchunk] at hspends
    split at h
    · cases h
    · cases h
      exact hspends (w', isLast) rfl

/-- A piece that arrives has been asked for. -/
theorem noted_transferRound {state state' : FileWriter × Session}
    (h : transferRound state = .inr state') :
    state.2.history.length < state'.2.history.length := by
  have hasks := keepsTo_appendChunk state.1 state.2
  unfold transferRound at h
  split at h
  · cases h
  · rename_i w' isLast s' hchunk
    rw [hchunk] at hasks
    obtain ⟨asked, taken, hpursued⟩ := hasks
    obtain ⟨events, heq, -, htranscript⟩ := hpursued.transcribed
    have hlength : asked.length = 1 := (hpursued.whole (w', isLast) rfl).1
    have hsome : events ≠ [] := by
      rintro rfl
      rw [← htranscript] at hlength
      cases hlength
    have hpos := List.length_pos_iff.mpr hsome
    have hhistory : s'.history.length = state.2.history.length + events.length := by
      rw [← List.length_append]
      exact congrArg List.length heq
    split at h
    · cases h
    · cases h
      show state.2.history.length < s'.history.length
      omega

/-! ## What a run notes -/

/-- Between two sessions at most so many events more were noted than eight for every unit that was
used up of what can be received. Asking for a piece of content and receiving it takes eight events,
and its answer is one unit, so a transfer can be paid for by what it uses up. -/
def Session.Within (s : Session) (events : Int) (s' : Session) : Prop :=
  (s'.history.length : Int) + 8 * s'.pending ≤ s.history.length + 8 * s.pending + events

namespace Session.Within

variable {s s' s'' : Session} {events events' : Int}

theorem mono (h : s.Within events s') (hle : events ≤ events') : s.Within events' s' := by
  unfold Within at h ⊢
  omega

theorem trans (h : s.Within events s') (h' : s'.Within events' s'') :
    s.Within (events + events') s'' := by
  unfold Within at h h' ⊢
  omega

theorem of_note {event : Event} (hjournal : s'.journal = event :: s.journal)
    (hpending : s'.pending = s.pending) : s.Within 1 s' := by
  unfold Within
  rw [history_of_journal hjournal, hpending, List.length_append, List.length_singleton]
  omega

theorem of_same (hjournal : s'.journal = s.journal) (hpending : s'.pending = s.pending) :
    s.Within 0 s' := by
  unfold Within history
  rw [hjournal, hpending]
  omega

end Session.Within

/-- A run that begins here and ends so notes this much at most, depending on whether it fails. -/
def Session.LastsFor {α : Type} (s : Session) (failed gave : Int) :
    Except Failure α × Session → Prop
  | (.error _, s') => s.Within failed s'
  | (.ok _, s') => s.Within gave s'

/-- A run notes this much at most, depending on whether it fails, wherever it begins. -/
def Lasts {α : Type} (failed gave : Int) (run : Session → Except Failure α × Session) : Prop :=
  ∀ s : Session, s.LastsFor failed gave (run s)

section Rules

variable {α β : Type} {s s' : Session} {failed gave failed' gave' : Int}

theorem Session.LastsFor.mono {ending : Except Failure α × Session}
    (h : s.LastsFor failed gave ending) (hfailed : failed ≤ failed') (hgave : gave ≤ gave') :
    s.LastsFor failed' gave' ending := by
  obtain ⟨_ | _, s'⟩ := ending
  · exact Within.mono h hfailed
  · exact Within.mono h hgave

/-- What comes behind a part of a run is added to it. -/
theorem Session.LastsFor.after {ending : Except Failure α × Session} (h : s.Within gave s')
    (h' : s'.LastsFor failed' gave' ending) :
    s.LastsFor (gave + failed') (gave + gave') ending := by
  obtain ⟨_ | _, s''⟩ := ending
  · exact Within.trans h h'
  · exact Within.trans h h'

/-- However it ends, it does not note more. -/
theorem Session.LastsFor.within {ending : Except Failure α × Session} {events : Int}
    (h : s.LastsFor events events ending) : s.Within events ending.2 := by
  obtain ⟨_ | _, s'⟩ := ending
  · exact h
  · exact h

theorem Lasts.mono {run : Session → Except Failure α × Session} (h : Lasts failed gave run)
    (hfailed : failed ≤ failed') (hgave : gave ≤ gave') : Lasts failed' gave' run :=
  fun s => (h s).mono hfailed hgave

/-- **One action behind the other**: the second one is not begun if the first one fails. -/
theorem Lasts.bind {first : Action α} {second : α → Action β} (h1 : Lasts failed gave first.perform)
    (h2 : ∀ a, Lasts failed' gave' (second a).perform) :
    Lasts (max failed (gave + failed')) (gave + gave') (Action.perform (first >>= second)) := by
  intro s
  have hfirst := h1 s
  rcases Action.perform_bind_cases first second s with ⟨failure, s', hp, heq⟩ | ⟨a, s', hp, heq⟩
  · rw [hp] at hfirst
    rw [heq]
    exact Within.mono hfirst (Int.le_max_left _ _)
  · rw [hp] at hfirst
    rw [heq]
    exact (LastsFor.after hfirst (h2 a s')).mono (Int.le_max_right _ _) (Int.le_refl _)

theorem lasts_pure (a : α) : Lasts 0 0 (Action.perform (pure a)) := fun _ => .of_same rfl rfl

theorem lasts_throw (failure : Failure) : Lasts 0 0 (Action.perform (throw failure : Action α)) :=
  fun _ => Within.of_same rfl rfl

theorem lasts_get : Lasts 0 0 (Action.perform get) := fun _ => Within.of_same rfl rfl

theorem lasts_ofResult (result : Except Failure α) :
    Lasts 0 0 (Action.perform (.ofResult result)) := by
  intro s
  cases result <;> exact Within.of_same rfl rfl

/-- A failure that is a result like any other takes no longer. -/
theorem Lasts.attempt {action : Action α} {events : Int} (h : Lasts events events action.perform) :
    Lasts 0 events action.attempt.perform := by
  intro s
  have hattempt : action.attempt.perform s
      = (.ok (action.perform s).1.toOption, (action.perform s).2) :=
    Action.perform_attempt_of_perform rfl
  rw [hattempt]
  exact (h s).within

theorem Lasts.removingOnFailure {action : Action α} (h : Lasts failed gave action.perform)
    (path : String) : Lasts failed gave (action.removingOnFailure path).perform := by
  intro s
  have hs := h s
  rw [Action.removingOnFailure, Action.perform_ofPerform]
  rcases hp : action.perform s with ⟨failure | a, s'⟩
  · rw [hp] at hs
    exact hs
  · rw [hp] at hs
    exact hs

end Rules

/-! ## Steps -/

theorem lasts_poll : Lasts 1 1 poll.perform := by
  intro s
  rw [poll, Action.perform_ofPerform]
  dsimp only
  split <;> exact Within.of_note rfl rfl

theorem lasts_reportRange (range : Nat) : Lasts 0 1 (reportRange range).perform :=
  fun _ => Within.of_note rfl rfl

theorem lasts_reportPosition (position : Nat) : Lasts 0 1 (reportPosition position).perform :=
  fun _ => Within.of_note rfl rfl

theorem lasts_createFile (path : String) : Lasts 0 1 (createFile path).perform := by
  intro s
  rw [createFile, Action.perform_ofPerform]
  split
  · exact Within.of_same rfl rfl
  · exact Within.of_note rfl rfl

theorem lasts_saving (w : FileWriter) :
    Lasts 0 0 (Action.perform (modify (·.saving w) : Action PUnit)) :=
  fun _ => Within.of_same rfl rfl

/-- Sending a piece notes what was taken, and if the link stalls how long that took. -/
theorem lasts_transmit (bytes : Bytes) (timeout : Nat) :
    Lasts 2 1 (transmit bytes timeout).perform := by
  intro s
  have hsent : ∀ outgoing taken,
      s.Within 1 (({ s with outgoing := outgoing } : Session).note (.sent taken)) :=
    fun _ _ => .of_note rfl rfl
  have hwaited : ∀ (s : Session) moment, s.Within 1 (s.waitUntil moment) :=
    fun _ _ => .of_note rfl rfl
  rw [transmit, Action.perform_ofPerform]
  dsimp only
  split
  · split
    · exact hsent _ _
    · exact (hsent _ _).mono (by decide)
  · exact (hsent _ _).mono (by decide)
  · exact (hsent _ _).mono (by decide)
  · exact (hsent _ _).trans (hwaited _ _)

theorem lasts_deliver (request : Frame) : Lasts 4 3 (deliver request).perform := by
  refine (lasts_get.bind fun s => (lasts_get.bind fun _ => lasts_transmit _ _).bind fun _ =>
    (lasts_transmit _ _).bind fun _ => (?_ : Lasts 2 1 _)).mono (by decide) (by decide)
  split
  · exact ((lasts_transmit _ _).bind fun _ => lasts_pure _).mono (by decide) (by decide)
  · exact (lasts_pure _).mono (by decide) (by decide)

theorem lasts_request (type : MessageType) (payload : Bytes) :
    Lasts 5 4 (request type payload).perform := by
  intro s
  have hissuing : s.Within 1 (s.issuing (.build s.nextSequence type payload)) := .of_note rfl rfl
  rw [perform_request]
  exact LastsFor.after hissuing (lasts_deliver _ _)

/-- A wait for bytes leaves no more to come than there was. -/
theorem unread_receive_le (deadline now : Nat) (incoming : List Arrival) :
    unread (receive deadline now incoming).2.2 ≤ unread incoming := by
  fun_induction receive deadline now incoming with
  | case1 => exact Nat.le_refl _
  | case2 now rest ih => exact Nat.le_trans ih (Nat.le_add_left _ _)
  | case3 now byte bytes rest =>
    refine Nat.add_le_add_right (Nat.succ_le_succ ?_) _
    rw [List.length_drop]
    exact Nat.sub_le _ _
  | case4 now duration rest _ ih => exact Nat.le_trans ih (Nat.le_add_left _ _)
  | case5 => exact Nat.le_refl _
  | case6 now moment rest _ ih => exact Nat.le_trans ih (Nat.le_add_left _ _)
  | case7 => exact Nat.le_refl _
  | case8 now rest => exact Nat.le_add_left _ _
  | case9 => exact Nat.le_refl _

namespace Session.Within

variable {s : Session}

theorem examine {verdict : Verdict} {ready : List Verdict} (h : s.decoder.ready = verdict :: ready) :
    s.Within (-7) (s.examine verdict ready) := by
  have hless := s.pending_examine h
  have hnoted : (s.examine verdict ready).history = s.history ++ [.examined verdict] :=
    history_note _ _
  unfold Within
  rw [hnoted, List.length_append, List.length_singleton]
  omega

theorem absorb {deadline clock : Nat} {bytes : Bytes} {incoming : List Arrival}
    (h : receive deadline s.clock s.incoming = (.received bytes, clock, incoming)) :
    s.Within (-6) (s.absorb bytes clock incoming) := by
  have hless := s.pending_absorb h
  have hnoted : (s.absorb bytes clock incoming).history
      = s.history ++ [.waited clock] ++ [.received bytes] := by
    rw [Session.absorb, waitUntil, history_note, history_note]
    rfl
  unfold Within
  rw [hnoted, List.length_append, List.length_append, List.length_singleton, List.length_singleton]
  omega

theorem waited {deadline clock : Nat} {reception : Reception} {incoming : List Arrival}
    (h : receive deadline s.clock s.incoming = (reception, clock, incoming)) :
    s.Within 1 (s.waited clock incoming) := by
  have hless : unread incoming ≤ unread s.incoming := by
    have hle := unread_receive_le deadline s.clock s.incoming
    rwa [h] at hle
  have hpending : (s.waited clock incoming).pending ≤ s.pending :=
    Nat.add_le_add_right (Nat.mul_le_mul_left 2 hless) _
  have hnoted : (s.waited clock incoming).history = s.history ++ [.waited clock] :=
    history_note _ _
  unfold Within
  rw [hnoted, List.length_append, List.length_singleton]
  omega

end Session.Within

/-- **A wait is paid for by what it uses up**, the verdict that is its reply included. -/
theorem lastsFor_awaitFrom (sequence : UInt16) (deadline : Nat) (s : Session) :
    s.LastsFor 1 (-7) (awaitFrom sequence deadline s) := by
  fun_induction awaitFrom sequence deadline s with
  | case1 s verdict ready hr reply hv => exact Within.examine hr
  | case2 s verdict ready hr hv ih =>
    exact (LastsFor.after (Within.examine hr) ih).mono (by decide) (by decide)
  | case3 s hr bytes clock incoming hb ih =>
    exact (LastsFor.after (Within.absorb hb) ih).mono (by decide) (by decide)
  | case4 s hr clock incoming hb => exact Within.waited hb
  | case5 s hr clock incoming hb => exact Within.waited hb
  | case6 s hr clock incoming hb => exact Within.waited hb

theorem lasts_exchange (type : MessageType) (payload : Bytes) (timeout : Settings → Nat) :
    Lasts 5 (-3) (exchange type payload timeout).perform := by
  have hawait : ∀ sequence limit, Lasts 1 (-7) (awaitReply sequence limit).perform :=
    fun sequence limit s => lastsFor_awaitFrom sequence (s.clock + limit) s
  exact ((lasts_request type payload).bind fun sequence =>
    lasts_get.bind fun s => hawait sequence (timeout s.settings)).mono (by decide) (by decide)

/-! ## Operations -/

theorem lasts_selectRecord (index : UInt8) : Lasts 5 (-3) (selectRecord index).perform :=
  ((lasts_exchange _ _ _).bind fun _ => lasts_pure _).mono (by decide) (by decide)

theorem lasts_readInfo (index : UInt8) : Lasts 5 (-3) (readInfo index).perform :=
  ((lasts_exchange _ _ _).bind fun _ => lasts_ofResult _).mono (by decide) (by decide)

/-- **Looking for a record.** -/
theorem lasts_findRecord (index : UInt8) : Lasts 7 6 (findRecord index).perform := by
  have hinfo : Lasts 5 5 (readInfo index).perform :=
    (lasts_readInfo index).mono (by decide) (by decide)
  refine ((lasts_reportPosition _).bind fun _ => lasts_poll.bind fun _ =>
    (lasts_selectRecord index).bind fun type => (?_ : Lasts 7 7 _)).mono (by decide) (by decide)
  split
  · exact (lasts_pure _).mono (by decide) (by decide)
  split
  · refine (lasts_poll.bind fun _ => hinfo.attempt.bind fun flight? =>
      lasts_poll.bind fun _ => (?_ : Lasts 0 0 _)).mono (by decide) (by decide)
    cases flight? <;> exact lasts_pure _
  · exact (lasts_throw _).mono (by decide) (by decide)

/-- **Listing the records that are left.** -/
theorem within_listing (left : Nat) (list : FlightList) (s : Session) :
    s.Within (7 * left) (listing left list s).2 := by
  induction left generalizing list s with
  | zero => exact .of_same rfl rfl
  | succ left ih =>
    by_cases hfull : list.isFull
    · have hsame : (listing (left + 1) list s).2 = s := by
        rw [listing, listFrom, if_pos hfull]
      rw [hsame]
      exact (Within.of_same rfl rfl).mono (by omega)
    · have hfound := lasts_findRecord (UInt8.ofNat (recordCount - (left + 1))) s
      rw [listing_succ hfull]
      generalize (findRecord (UInt8.ofNat (recordCount - (left + 1)))).perform s = found at hfound ⊢
      obtain ⟨result, s'⟩ := found
      rcases result with failure | _ | _ | flight
      · exact Within.mono hfound (by omega)
      · exact Within.mono hfound (by omega)
      · exact (Within.trans hfound (ih list s')).mono (by omega)
      · dsimp only [listingBehind]
        cases list.push flight with
        | error _ => exact Within.mono hfound (by omega)
        | ok longer =>
          have hlisted : s'.Within 1 (s'.note (.listed flight)) := .of_note rfl rfl
          exact (Within.trans hfound (hlisted.trans (ih longer _))).mono (by omega)

/-- A piece that arrives pays for itself. -/
theorem lasts_nextChunk : Lasts 6 0 nextChunk.perform :=
  (lasts_poll.bind fun _ => (lasts_exchange _ _ _).bind fun _ => lasts_poll.bind fun _ =>
    (lasts_ofResult _).bind fun _ => (lasts_reportPosition _).bind fun _ => lasts_pure _).mono
      (by decide) (by decide)

theorem lasts_appendChunk (w : FileWriter) : Lasts 6 0 (appendChunk w).perform :=
  (lasts_nextChunk.bind fun _ => (lasts_saving _).bind fun _ => lasts_pure _).mono
    (by decide) (by decide)

/-- **A transfer takes no longer than its last piece**, since the others pay for themselves. -/
theorem lasts_transferFrom (w : FileWriter) : Lasts 6 0 (transferFrom w) := by
  intro s
  fun_induction transferFrom w s with
  | case1 w s failure s' h =>
    have hchunk := lasts_appendChunk w s
    rw [h] at hchunk
    exact hchunk
  | case2 w s w' s' h =>
    have hchunk := lasts_appendChunk w s
    rw [h] at hchunk
    exact hchunk
  | case3 w s w' isLast s' h hlast ih =>
    have hchunk := lasts_appendChunk w s
    rw [h] at hchunk
    exact (LastsFor.after hchunk ih).mono (by decide) (by decide)

theorem lasts_downloadSelected (path : String) : Lasts 9 3 (downloadSelected path).perform := by
  have htransfer (place : Place) :
      Lasts 6 0 (Action.ofPerform (transferFrom (.start place))).perform :=
    lasts_transferFrom (.start place)
  exact (lasts_poll.bind fun _ => (lasts_createFile path).bind fun place =>
    (lasts_reportRange _).bind fun _ => (htransfer place).bind fun _ => lasts_saving _).mono
      (by decide) (by decide)

theorem lasts_download (flight : Flight) (path : String) :
    Lasts 8 2 (download flight path).perform := by
  have hfile : Lasts 10 4 (Action.perform do
      poll
      (downloadSelected path).removingOnFailure path) :=
    (lasts_poll.bind fun _ => (lasts_downloadSelected path).removingOnFailure path).mono
      (by decide) (by decide)
  refine (lasts_poll.bind fun _ => (lasts_selectRecord _).bind fun type =>
    (?_ : Lasts 10 4 _)).mono (by decide) (by decide)
  split
  · exact ((lasts_throw _).bind fun _ => hfile).mono (by decide) (by decide)
  · exact hfile

/-- How many events a long operation notes whatever it hears. -/
def LongOperation.overhead : LongOperation → Nat
  | listRecords _ => 7 * recordCount + 1
  | downloadSelected _ => 9
  | download _ _ => 8

theorem LongOperation.within (op : LongOperation) (s : Session) :
    s.Within op.overhead (op.operation.perform s).2 := by
  cases op with
  | listRecords list =>
    have hrange : s.Within 1 ((reportRange listRange).perform s).2 := .of_note rfl rfl
    refine (hrange.trans (within_listing recordCount list _)).mono ?_
    show 1 + 7 * (recordCount : Int) ≤ (7 * recordCount + 1 : Nat)
    decide
  | downloadSelected path =>
    have hlasts : Lasts 9 9 (FlightRecorder.downloadSelected path).perform :=
      (lasts_downloadSelected path).mono (by decide) (by decide)
    exact (hlasts s).within
  | download flight path =>
    have hlasts : Lasts 8 8 (FlightRecorder.download flight path).perform :=
      (lasts_download flight path).mono (by decide) (by decide)
    exact (hlasts s).within

/-! ## What answers requests -/

/-- The acknowledgements and refusals among verdicts. -/
def acknowledgements (verdicts : List Verdict) : List Frame :=
  (acceptedFrames verdicts).filter (·.messageType.isAcknowledgement)

theorem acknowledgements_append (first second : List Verdict) :
    acknowledgements (first ++ second) = acknowledgements first ++ acknowledgements second := by
  rw [acknowledgements, acceptedFrames_append, List.filter_append]
  rfl

/-- A verdict that is a reply is one of them. -/
theorem Verdict.Answers.length_acknowledgements {verdict : Verdict} {sequence : UInt16}
    {reply : Reply} (h : verdict.Answers sequence reply) :
    (acknowledgements [verdict]).length = 1 := by
  obtain ⟨f, data, rfl, htype, -⟩ := h
  have hone : acknowledgements [.accepted f] = [f] :=
    List.filter_cons_of_pos (f.messageType.isAcknowledgement_iff.mpr htype)
  rw [hone, List.length_singleton]

/-- **No acknowledgement answers two requests**, and what answers a request that was issued before
answers none that is issued later. -/
theorem length_answered_le (request : Frame) (events : List Event) :
    (replyTo request events).toList.length + ((transcript events).filterMap Prod.snd).length
      ≤ (acknowledgements (examinedVerdicts events)).length := by
  induction events generalizing request with
  | nil => exact Nat.le_refl 0
  | cons event events ih =>
    cases event with
    | issued other =>
      have hnone : replyTo request (.issued other :: events) = none := rfl
      have hone : (transcript (.issued other :: events)).filterMap Prod.snd
          = (replyTo other events).toList ++ (transcript events).filterMap Prod.snd := by
        rw [transcript]
        cases replyTo other events <;> simp
      rw [hnone, hone, List.length_append]
      exact Nat.le_trans (Nat.le_of_eq (Nat.zero_add _)) (ih other)
    | examined verdict =>
      have hrest := ih request
      have hcons : examinedVerdicts (.examined verdict :: events)
          = [verdict] ++ examinedVerdicts events := rfl
      have hasked : transcript (.examined verdict :: events) = transcript events := rfl
      rw [hcons, acknowledgements_append, List.length_append, replyTo, hasked]
      cases hreply : verdict.reply? request.sequence with
      | none => exact Nat.le_trans hrest (Nat.le_add_left _ _)
      | some reply =>
        rw [(Verdict.reply?_eq_some_iff.mp hreply).length_acknowledgements]
        exact Nat.add_le_add_left (Nat.le_trans (Nat.le_add_left _ _) hrest) 1
    | _ => exact ih request

theorem length_le_answered {asked : Transcript} (h : ∀ entry ∈ asked.dropLast, entry.2.isSome) :
    asked.length ≤ (asked.filterMap Prod.snd).length + 1 := by
  have hall : (asked.dropLast.filterMap Prod.snd).length = asked.dropLast.length :=
    List.filterMap_length_eq_length.mpr h
  have hsome : (asked.dropLast.filterMap Prod.snd).length ≤ (asked.filterMap Prod.snd).length :=
    ((List.dropLast_sublist asked).filterMap Prod.snd).length_le
  rw [hall, List.length_dropLast] at hsome
  omega

/-- **A run that goes on only when it is answered asks for no more than is answered**, its last
request apart. -/
theorem Session.KeepsTo.length_issued_le {ε α : Type} {s : Session} {agenda : Agenda}
    {ending : Except ε α × Session} (h : s.KeepsTo agenda ending) :
    (issuedRequests (s.stretch ending.2)).length
      ≤ (acknowledgements (examinedVerdicts (s.stretch ending.2))).length + 1 := by
  obtain ⟨asked, taken, h⟩ := h
  have hanswered := length_answered_le (.build 0 .ping []) (s.stretch ending.2)
  rw [h.transcribed.stretch] at hanswered
  rw [← map_fst_transcript, h.transcribed.stretch, List.length_map]
  have hasked := length_le_answered h.answered
  omega

/-- What was taken off the decoder is a front of all that it can still find. -/
theorem Session.Heard.consumed_prefix {s s' : Session} {received : Bytes} {consumed : List Verdict}
    (h : s.Heard received consumed s') :
    consumed <+: (s.decoder.push (arrivingBytes s.incoming)).ready := by
  rw [h.incoming, Decoder.push_append, h.decoder, Decoder.push_of_ready_eq]
  exact List.prefix_append _ _

/-- The verdicts that an operation looks at are a front of all that the decoder can find. -/
theorem Operation.examined_prefix (op : Operation) (s : Session) :
    examinedVerdicts (s.stretch (op.perform s).2)
      <+: (s.decoder.push (arrivingBytes s.incoming)).ready := by
  obtain ⟨waits, hwaits⟩ := op.composed.leads callSpanning_waitsOnce.toSpanning s
  have hheard := Session.Waits.heard hwaits
  rw [hheard.stretch.2]
  exact hheard.consumed_prefix

theorem length_acknowledgements_le {first second : List Verdict} (h : first <+: second) :
    (acknowledgements first).length ≤ (acknowledgements second).length :=
  ((h.sublist.filterMap _).filter _).length_le

/-! ## Every long operation -/

/--
**Every long operation comes to its end.**

Whatever there is still to receive, however the link takes what is sent and however the observer
decides: a wait is over after as many rounds as there is to receive, and one, and so is a transfer,
which goes round without counting. No round that is followed by another goes unnoted, and the whole
operation notes no more than eight events for each unit that there is to receive, with its overhead.
A download issues at most one request for content more than the decoder finds acknowledgements and
refusals in its queue and in what is still to come.
-/
theorem LongOperation.returns (op : LongOperation) (s : Session) :
    let ending := op.operation.perform s
    let found := (s.decoder.push (arrivingBytes s.incoming)).ready
    (∀ sequence deadline (t : Session),
      loopWithin (awaitRound sequence deadline) (t.pending + 1) t
          = some (awaitFrom sequence deadline t) ∧
        ∀ t', awaitRound sequence deadline t = .inr t' →
          t.history.length < t'.history.length) ∧
    (∀ w (t : Session),
      loopWithin transferRound (t.pending + 1) (w, t) = some (transferFrom w t) ∧
        ∀ w' t', transferRound (w, t) = .inr (w', t') → t.history.length < t'.history.length) ∧
    ending.2.history.length ≤ s.history.length + 8 * s.pending + op.overhead ∧
    ((∀ list, op ≠ listRecords list) →
      (issuedRequests (s.stretch ending.2)).countP (·.messageType = .getIgcData)
        ≤ (acknowledgements found).length + 1) := by
  intro ending found
  refine ⟨fun sequence deadline t => ⟨?_, fun t' => noted_awaitRound⟩,
    fun w t => ⟨?_, fun w' t' => noted_transferRound⟩, ?_, fun hdownload => ?_⟩
  · exact loopWithin_of_lt (awaitFrom_eq_round sequence deadline) pending_awaitRound
      (Nat.lt_succ_self t.pending)
  · have hless : (fun state : FileWriter × Session => state.2.pending) (w, t) < t.pending + 1 :=
      Nat.lt_succ_self t.pending
    exact loopWithin_of_lt transferFrom_eq_round pending_transferRound hless
  · have hwithin : s.Within op.overhead ending.2 := op.within s
    unfold Within at hwithin
    omega
  · have hissued : (issuedRequests (s.stretch ending.2)).length
        ≤ (acknowledgements (examinedVerdicts (s.stretch ending.2))).length + 1 := by
      cases op with
      | listRecords list => exact absurd rfl (hdownload list)
      | downloadSelected path =>
        obtain ⟨agenda, -, h⟩ := keepsTo_downloadSelected path s
        exact h.length_issued_le
      | download flight path =>
        obtain ⟨agenda, -, h⟩ := keepsTo_download flight path s
        exact h.length_issued_le
    have hfound := length_acknowledgements_le (op.operation.examined_prefix s)
    exact Nat.le_trans List.countP_le_length
      (Nat.le_trans hissued (Nat.add_le_add_right hfound 1))

/-- A device that falls silent behind its first piece: the second request is the one that gets no
answer. -/
example :
    let s := Session.start .standard [.data (Frame.reply 0 .ack 0 [50, 65]).encode] .unlimited .empty
    let ending := (LongOperation.downloadSelected "flight.igc").operation.perform s
    issuedRequests (s.stretch ending.2) = [.build 0 .getIgcData [], .build 1 .getIgcData []] ∧
      acknowledgements (s.decoder.push (arrivingBytes s.incoming)).ready
        = [.reply 0 .ack 0 [50, 65]] := by
  decide +kernel

end FlightRecorder
