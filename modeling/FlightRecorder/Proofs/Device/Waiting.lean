import FlightRecorder.Proofs.Device.Upcoming

/-!
# Waiting for a reply

A wait is decided by what the session is going to receive: it ends with the first reply to the
request that is there by the deadline, whatever comes before or behind it, and else with the stop of
the link or at the deadline.

* `Verdict.Answers` — which verdict is a reply to which request
* `Session.Listened` — nothing was done but listening
* `awaitFrom_induction` — the rounds of a wait
* `awaitFrom_of_upcoming` — the wait that is answered
* `awaitFrom_of_unanswered` — the wait that is not
* `perform_awaitReply` — the two together
-/

namespace FlightRecorder

/-! ## Replies -/

/-- A verdict is the reply to request `sequence`: an accepted acknowledgement whose payload begins
with that number. -/
def Verdict.Answers (verdict : Verdict) (sequence : UInt16) (reply : Reply) : Prop :=
  ∃ f data, verdict = .accepted f ∧ (f.messageType = .ack ∨ f.messageType = .nack) ∧
    f.payload = littleEndian sequence ++ data ∧
    reply = { type := f.messageType, payload := f.payload }

theorem MessageType.isAcknowledgement_iff (type : MessageType) :
    type.isAcknowledgement ↔ type = .ack ∨ type = .nack := by
  cases type <;> simp [isAcknowledgement]

theorem Frame.acknowledged?_eq_some_iff {f : Frame} {sequence : UInt16} :
    f.acknowledged? = some sequence ↔ ∃ data, f.payload = littleEndian sequence ++ data := by
  unfold acknowledged?
  constructor
  · intro h
    split at h
    · next low high data hpayload =>
      cases h
      exact ⟨data, by simp [hpayload, littleEndian]⟩
    · cases h
  · rintro ⟨data, hpayload⟩
    simp [hpayload, littleEndian]

theorem Verdict.reply?_eq_some_iff {verdict : Verdict} {sequence : UInt16} {reply : Reply} :
    verdict.reply? sequence = some reply ↔ verdict.Answers sequence reply := by
  cases verdict with
  | refused fault =>
    constructor
    · intro h
      cases h
    · rintro ⟨f, data, h, -⟩
      cases h
  | accepted f =>
    rw [reply?, Frame.reply?]
    constructor
    · intro h
      split at h
      · next hc =>
        obtain ⟨data, hpayload⟩ := Frame.acknowledged?_eq_some_iff.mp hc.2
        exact ⟨f, data, rfl, f.messageType.isAcknowledgement_iff.mp hc.1, hpayload,
          (Option.some.inj h).symm⟩
      · cases h
    · rintro ⟨g, data, hg, htype, hpayload, rfl⟩
      cases hg
      rw [if_pos ⟨f.messageType.isAcknowledgement_iff.mpr htype,
        Frame.acknowledged?_eq_some_iff.mpr ⟨data, hpayload⟩⟩]

theorem Verdict.reply?_eq_none_iff {verdict : Verdict} {sequence : UInt16} :
    verdict.reply? sequence = none ↔ ∀ reply, ¬ verdict.Answers sequence reply := by
  rw [Option.eq_none_iff_forall_ne_some]
  exact forall_congr' fun reply => not_congr reply?_eq_some_iff

/-! ## Nothing but listening -/

/-- What is noted while the link is listened to. -/
def Event.IsHeard : Event → Prop
  | waited _ => True
  | received _ => True
  | examined _ => True
  | _ => False

/-- Between two sessions nothing was done but listening to the link. -/
structure Session.Listened (s s' : Session) : Prop where
  outgoing : s'.outgoing = s.outgoing
  storage : s'.storage = s.storage
  settings : s'.settings = s.settings
  nextSequence : s'.nextSequence = s.nextSequence
  observer : s'.observer = s.observer
  journal : ∃ events, s'.journal = events ++ s.journal ∧ ∀ event ∈ events, event.IsHeard

namespace Session.Listened

theorem trans {s s' s'' : Session} (h : s.Listened s') (h' : s'.Listened s'') :
    s.Listened s'' where
  outgoing := h'.outgoing.trans h.outgoing
  storage := h'.storage.trans h.storage
  settings := h'.settings.trans h.settings
  nextSequence := h'.nextSequence.trans h.nextSequence
  observer := h'.observer.trans h.observer
  journal := by
    obtain ⟨events, hj, hheard⟩ := h.journal
    obtain ⟨events', hj', hheard'⟩ := h'.journal
    refine ⟨events' ++ events, by rw [hj', hj, List.append_assoc], fun event hevent => ?_⟩
    rcases List.mem_append.mp hevent with hevent | hevent
    · exact hheard' event hevent
    · exact hheard event hevent

theorem examine (s : Session) (verdict : Verdict) (ready : List Verdict) :
    s.Listened (s.examine verdict ready) where
  outgoing := rfl
  storage := rfl
  settings := rfl
  nextSequence := rfl
  observer := rfl
  journal := ⟨[.examined verdict], rfl, by simp [Event.IsHeard]⟩

theorem absorb (s : Session) (bytes : Bytes) (clock : Nat) (incoming : List Arrival) :
    s.Listened (s.absorb bytes clock incoming) where
  outgoing := rfl
  storage := rfl
  settings := rfl
  nextSequence := rfl
  observer := rfl
  journal := ⟨[.received bytes, .waited clock], rfl, by simp [Event.IsHeard]⟩

theorem waited (s : Session) (clock : Nat) (incoming : List Arrival) :
    s.Listened (s.waited clock incoming) where
  outgoing := rfl
  storage := rfl
  settings := rfl
  nextSequence := rfl
  observer := rfl
  journal := ⟨[.waited clock], rfl, by simp [Event.IsHeard]⟩

end Session.Listened

/-- **A wait does nothing but listen.** -/
theorem listened_awaitFrom (sequence : UInt16) (deadline : Nat) (s : Session) :
    s.Listened (awaitFrom sequence deadline s).2 := by
  fun_induction awaitFrom sequence deadline s with
  | case1 s verdict ready hr reply hv => exact .examine s verdict ready
  | case2 s verdict ready hr hv ih => exact (Session.Listened.examine s verdict ready).trans ih
  | case3 s hr bytes clock incoming hb ih =>
    exact (Session.Listened.absorb s bytes clock incoming).trans ih
  | case4 s hr clock incoming hb => exact .waited s clock incoming
  | case5 s hr clock incoming hb => exact .waited s clock incoming
  | case6 s hr clock incoming hb => exact .waited s clock incoming

/-! ## Rounds of a wait -/

/-- How a wait ends that is not answered: with the stop of the link, or at the deadline. -/
def stopBy (deadline : Nat) (stop : Option (Failure × Nat)) : Failure × Nat :=
  match stop with
  | some (failure, moment) => if moment ≤ deadline then (failure, moment) else (.timeout, deadline)
  | none => (.timeout, deadline)

theorem stopBy_of_le {deadline moment : Nat} {failure : Failure} (h : moment ≤ deadline) :
    stopBy deadline (some (failure, moment)) = (failure, moment) := by
  rw [stopBy, if_pos h]

theorem stopBy_of_lt {deadline : Nat} {stop : Option (Failure × Nat)}
    (h : ∀ failure moment, stop = some (failure, moment) → deadline < moment) :
    stopBy deadline stop = (.timeout, deadline) := by
  cases stop with
  | none => rfl
  | some stop =>
    have := h stop.1 stop.2 rfl
    rw [stopBy, if_neg (by omega)]

/-- **A wait goes from round to round.** A round takes a verdict from the queue, which is the reply
or is dropped, or reads bytes when the queue is empty, or finds that nothing comes any more. -/
@[elab_as_elim]
theorem awaitFrom_induction {sequence : UInt16} {deadline : Nat}
    {motive : Session → Except Failure Reply × Session → Prop}
    (answered : ∀ s verdict ready reply, s.clock ≤ deadline → s.decoder.ready = verdict :: ready →
      verdict.reply? sequence = some reply → motive s (.ok reply, s.examine verdict ready))
    (dropped : ∀ s verdict ready result, s.decoder.ready = verdict :: ready →
      verdict.reply? sequence = none → motive (s.examine verdict ready) result → motive s result)
    (received : ∀ s bytes clock incoming result, s.decoder.ready = [] → s.clock ≤ clock →
      timedBytes s.clock s.incoming = bytes.map (·, clock) ++ timedBytes clock incoming →
      stop? s.clock s.incoming = stop? clock incoming →
      motive (s.absorb bytes clock incoming) result → motive s result)
    (ended : ∀ s failure clock incoming, s.decoder.ready = [] → s.clock ≤ clock →
      clock ≤ deadline → (∀ byte ∈ timedBytes s.clock s.incoming, deadline < byte.2) →
      stopBy deadline (stop? s.clock s.incoming) = (failure, clock) →
      motive s (.error failure, s.waited clock incoming))
    {s : Session} (h : s.clock ≤ deadline) : motive s (awaitFrom sequence deadline s) := by
  fun_induction awaitFrom sequence deadline s with
  | case1 s verdict ready hr reply hv => exact answered s verdict ready reply h hr hv
  | case2 s verdict ready hr hv ih => exact dropped s verdict ready _ hr hv (ih h)
  | case3 s hr bytes clock incoming hb ih =>
    have hwait := receive_outcome s.incoming h
    rw [hb] at hwait
    cases hwait with
    | received hnow hdeadline hstream hstop =>
      exact received s bytes clock incoming _ hr hnow hstream hstop (ih hdeadline)
  | case4 s hr clock incoming hb =>
    have hwait := receive_outcome s.incoming h
    rw [hb] at hwait
    cases hwait with
    | failed hnow hdeadline hstream hstop =>
      exact ended s _ clock incoming hr hnow hdeadline (by simp [hstream])
        (by rw [hstop, stopBy_of_le hdeadline])
  | case5 s hr clock incoming hb =>
    have hwait := receive_outcome s.incoming h
    rw [hb] at hwait
    cases hwait with
    | closed hnow hdeadline hstream hstop =>
      exact ended s _ clock incoming hr hnow hdeadline (by simp [hstream])
        (by rw [hstop, stopBy_of_le hdeadline])
  | case6 s hr clock incoming hb =>
    have hwait := receive_outcome s.incoming h
    rw [hb] at hwait
    cases hwait with
    | timedOut hstream hstop hlate hlateStop =>
      exact ended s _ _ incoming hr h (Nat.le_refl _) hlate (stopBy_of_lt hlateStop)

/-! ## The wait that is answered -/

/-- A session whose queue is empty and whose link brings nothing by the deadline has nothing to
take. -/
theorem Session.not_mem_upcoming {s : Session} {deadline : Nat} {item : Verdict × Nat}
    (hready : s.decoder.ready = [])
    (hlate : ∀ byte ∈ timedBytes s.clock s.incoming, deadline < byte.2)
    (hitem : item.2 ≤ deadline) : item ∉ s.upcoming := by
  intro hmem
  rw [upcoming, hready] at hmem
  obtain ⟨byte, hbyte⟩ := DecoderState.exists_byte_of_mem_runTimed (by simpa using hmem)
  have := hlate _ hbyte
  omega

/-- **The first reply that is there by the deadline ends the wait**, at the moment from which it is
there; what comes behind it is left. -/
theorem awaitFrom_of_upcoming {sequence : UInt16} {deadline moment : Nat} {s : Session}
    {skipped rest : List (Verdict × Nat)} {verdict : Verdict} {reply : Reply}
    (hclock : s.clock ≤ deadline) (hup : s.upcoming = skipped ++ (verdict, moment) :: rest)
    (hskipped : ∀ item ∈ skipped, item.1.reply? sequence = none)
    (hreply : verdict.reply? sequence = some reply) (hmoment : moment ≤ deadline) :
    (awaitFrom sequence deadline s).1 = .ok reply ∧
      (awaitFrom sequence deadline s).2.clock = moment ∧
      (awaitFrom sequence deadline s).2.upcoming = rest := by
  refine awaitFrom_induction (motive := fun s result => ∀ skipped,
    s.upcoming = skipped ++ (verdict, moment) :: rest →
    (∀ item ∈ skipped, item.1.reply? sequence = none) →
    result.1 = .ok reply ∧ result.2.clock = moment ∧ result.2.upcoming = rest)
    ?answered ?dropped ?received ?ended hclock skipped hup hskipped
  case answered =>
    intro s first ready found _ hr hfound skipped hup hskipped
    rw [Session.upcoming_examine hr] at hup
    cases skipped with
    | nil =>
      rw [List.nil_append, List.cons.injEq, Prod.mk.injEq] at hup
      obtain ⟨⟨rfl, rfl⟩, hrest⟩ := hup
      rw [hreply] at hfound
      cases hfound
      exact ⟨rfl, rfl, hrest⟩
    | cons item skipped =>
      -- What is in front of the reply answers nothing.
      rw [List.cons_append, List.cons.injEq] at hup
      have hnone := hskipped item List.mem_cons_self
      rw [← hup.1, hfound] at hnone
      cases hnone
  case dropped =>
    intro s first ready result hr hnone ih skipped hup hskipped
    rw [Session.upcoming_examine hr] at hup
    cases skipped with
    | nil =>
      rw [List.nil_append, List.cons.injEq, Prod.mk.injEq] at hup
      rw [hup.1.1, hreply] at hnone
      cases hnone
    | cons item skipped =>
      rw [List.cons_append, List.cons.injEq] at hup
      exact ih skipped hup.2 fun other hother => hskipped other (List.mem_cons_of_mem _ hother)
  case received =>
    intro s bytes clock incoming result hr _ hstream _ ih skipped hup hskipped
    exact ih skipped ((Session.upcoming_absorb hr hstream).trans hup) hskipped
  case ended =>
    intro s failure clock incoming hr _ _ hlate _ skipped hup _
    have habsent : (verdict, moment) ∉ s.upcoming := Session.not_mem_upcoming hr hlate hmoment
    rw [hup] at habsent
    exact absurd (List.mem_append_right _ List.mem_cons_self) habsent

/-! ## The wait that is not answered -/

/-- **Without a reply by the deadline the wait ends with the stop of the link or at the deadline.** -/
theorem awaitFrom_of_unanswered {sequence : UInt16} {deadline : Nat} {s : Session}
    (hclock : s.clock ≤ deadline)
    (hnone : ∀ item ∈ s.upcoming, item.2 ≤ deadline → item.1.reply? sequence = none) :
    (awaitFrom sequence deadline s).1 = .error (stopBy deadline (stop? s.clock s.incoming)).1 ∧
      (awaitFrom sequence deadline s).2.clock = (stopBy deadline (stop? s.clock s.incoming)).2 := by
  refine awaitFrom_induction (motive := fun s result =>
    (∀ item ∈ s.upcoming, item.2 ≤ deadline → item.1.reply? sequence = none) →
    result.1 = .error (stopBy deadline (stop? s.clock s.incoming)).1 ∧
      result.2.clock = (stopBy deadline (stop? s.clock s.incoming)).2)
    ?answered ?dropped ?received ?ended hclock hnone
  case answered =>
    intro s first ready found hclock hr hfound hnone
    rw [Session.upcoming_examine hr] at hnone
    have hfirst := hnone _ List.mem_cons_self hclock
    rw [hfound] at hfirst
    cases hfirst
  case dropped =>
    intro s first ready result hr _ ih hnone
    rw [Session.upcoming_examine hr] at hnone
    exact ih fun item hitem => hnone item (List.mem_cons_of_mem _ hitem)
  case received =>
    intro s bytes clock incoming result hr _ hstream hstop ih hnone
    rw [← Session.upcoming_absorb hr hstream] at hnone
    rw [hstop]
    exact ih hnone
  case ended =>
    intro s failure clock incoming _ _ _ _ hstop _
    rw [hstop]
    exact ⟨rfl, rfl⟩

/-! ## Every wait -/

/-- **A wait ends between its beginning and its deadline.** -/
theorem clock_awaitFrom_le {sequence : UInt16} {deadline : Nat} {s : Session}
    (hclock : s.clock ≤ deadline) :
    s.clock ≤ (awaitFrom sequence deadline s).2.clock ∧
      (awaitFrom sequence deadline s).2.clock ≤ deadline := by
  refine awaitFrom_induction (motive := fun s result =>
    s.clock ≤ result.2.clock ∧ result.2.clock ≤ deadline) ?answered ?dropped ?received ?ended hclock
  case answered =>
    intro s _ _ _ hclock _ _
    exact ⟨Nat.le_refl _, hclock⟩
  case dropped =>
    intro s _ _ _ _ _ ih
    exact ih
  case received =>
    intro s _ _ _ _ _ hnow _ _ ih
    exact ⟨Nat.le_trans hnow ih.1, ih.2⟩
  case ended =>
    intro s _ _ _ _ hnow hdeadline _ _
    exact ⟨hnow, hdeadline⟩

/--
**A wait ends with the first reply, or without one with the stop of the link or at its deadline.**

What decides is what waits in the queue, then what the decoder finds in the bytes that come by the
deadline and before the link fails or ends. The first reply in it is returned at the moment from
which it is there, whatever is in front of it or behind it. Without one, a failing read or the end
of the link that is reached by the deadline ends the wait, and else the deadline does.
-/
theorem perform_awaitReply (sequence : UInt16) (timeout : Nat) (s : Session) :
    (∀ before verdict moment after reply,
      s.upcomingBy (s.clock + timeout) = before ++ (verdict, moment) :: after →
      (∀ item ∈ before, ∀ other, ¬ item.1.Answers sequence other) →
      verdict.Answers sequence reply →
      ((awaitReply sequence timeout).perform s).1 = .ok reply ∧
        ((awaitReply sequence timeout).perform s).2.clock = moment) ∧
    ((∀ item ∈ s.upcomingBy (s.clock + timeout), ∀ reply, ¬ item.1.Answers sequence reply) →
      (∀ failure moment, stop? s.clock s.incoming = some (failure, moment) →
        moment ≤ s.clock + timeout →
        ((awaitReply sequence timeout).perform s).1 = .error failure ∧
          ((awaitReply sequence timeout).perform s).2.clock = moment) ∧
      ((∀ failure moment, stop? s.clock s.incoming = some (failure, moment) →
        s.clock + timeout < moment) →
        ((awaitReply sequence timeout).perform s).1 = .error .timeout ∧
          ((awaitReply sequence timeout).perform s).2.clock = s.clock + timeout)) ∧
    ((awaitReply sequence timeout).perform s).2.clock ≤ s.clock + timeout := by
  have hclock : s.clock ≤ s.clock + timeout := Nat.le_add_right _ _
  obtain ⟨later, hup, hlater⟩ := Session.exists_upcoming_eq (s.clock + timeout) s
  rw [awaitReply, Action.perform_ofPerform]
  refine ⟨fun before verdict moment after reply hby hbefore hreply => ?_, fun hnone => ?_,
    (clock_awaitFrom_le hclock).2⟩
  · have hmem : (verdict, moment) ∈ s.upcomingBy (s.clock + timeout) := by
      rw [hby]
      exact List.mem_append_right _ List.mem_cons_self
    rw [hby, List.append_assoc, List.cons_append] at hup
    obtain ⟨hok, hend, -⟩ := awaitFrom_of_upcoming hclock hup
      (fun item hitem => Verdict.reply?_eq_none_iff.mpr (hbefore item hitem))
      (Verdict.reply?_eq_some_iff.mpr hreply) (Session.le_of_mem_upcomingBy hclock hmem)
    exact ⟨hok, hend⟩
  · obtain ⟨hresult, hend⟩ := awaitFrom_of_unanswered hclock fun item hitem hmoment => by
      rw [hup] at hitem
      rcases List.mem_append.mp hitem with hitem | hitem
      · exact Verdict.reply?_eq_none_iff.mpr (hnone item hitem)
      · exact absurd (hlater item hitem) (Nat.not_lt.mpr hmoment)
    rw [hresult, hend]
    refine ⟨fun failure moment hstop hmoment => ?_, fun hstop => ?_⟩
    · rw [hstop, stopBy_of_le hmoment]
      exact ⟨rfl, rfl⟩
    · rw [stopBy_of_lt hstop]
      exact ⟨rfl, rfl⟩

/-- A session whose link brings the answer to another request, a frame that is cut short and, right
before it ends, the answer to request 513. -/
def sessionWithLateReply : Session :=
  .start .standard
    [.data ((Frame.reply 1 .ack 514 []).encode ++ [startByte, 9, 9]), .silence 2000,
      .data (Frame.reply 2 .nack 513 [7]).encode, .hangup]
    .unlimited .empty

theorem perform_awaitReply_at_deadline :
    ((awaitReply 513 2000).perform sessionWithLateReply).1
        = .ok { type := .nack, payload := [1, 2, 7] } ∧
      ((awaitReply 513 2000).perform sessionWithLateReply).2.clock = 2000 := by
  let reply := Frame.reply 2 .nack 513 [7]
  let other := Verdict.accepted (.reply 1 .ack 514 [])
  have hby : sessionWithLateReply.upcomingBy (sessionWithLateReply.clock + 2000)
      = [(other, 0), (.refused .strayStart, 2000)] ++ (.accepted reply, 2000) :: [] := by
    decide +kernel
  have hbefore : ∀ item ∈ [(other, 0), (.refused .strayStart, 2000)],
      ∀ answer, ¬ item.1.Answers 513 answer := by
    intro item hitem
    rw [← Verdict.reply?_eq_none_iff]
    simp only [List.mem_cons, List.not_mem_nil, or_false] at hitem
    rcases hitem with rfl | rfl <;> rfl
  have hreply : (Verdict.accepted reply).Answers 513 { type := .nack, payload := [1, 2, 7] } :=
    ⟨reply, [7], rfl, Or.inr rfl, rfl, rfl⟩
  exact (perform_awaitReply 513 2000 sessionWithLateReply).1 _ _ _ _ _ hby hbefore hreply

end FlightRecorder
