import FlightRecorder.Proofs.Device.Failures
import FlightRecorder.Proofs.Device.Observing
import FlightRecorder.Proofs.Device.Rollback
import FlightRecorder.Proofs.Device.Transcript

/-!
# Listing a device that answers as it likes

Answers may be late, missing, malformed or stale, and the link may fail: a listing visits the records
in the order of their numbers, and what it puts on its list is what the answer to its own request for
a description tells, under the number that was acknowledged right before.

* `Visit`, `Visit.asked`, `Visit.flight?` — a record that was selected and asked about
* `FindOutcome`, `findRecord_outcome` — one number, however its exchanges end
* `ListingEnd` — what a listing asks behind its visits
* `Inventory`, `exists_inventory` — the records that are left
* `listing_of_any_device` — all records
-/

namespace FlightRecorder

open Session

/-! ## Visits -/

/-- The request that selects a record. -/
def selectionRequest (sequence : UInt16) (index : UInt8) : Frame :=
  .build sequence .selectRecord [index]

/-- The request for the description of the selected record. -/
def infoRequest (sequence : UInt16) : Frame := .build sequence .getRecordInfo []

/-- A record that was selected, and the reply to the request for its description if there was one. -/
structure Visit where
  index : UInt8
  /-- The number of the selection. The request for the description has the next one. -/
  sequence : UInt16
  selection : Reply
  info : Option Reply

namespace Visit

/-- What is asked in a visit. -/
def asked (v : Visit) : Transcript :=
  [(selectionRequest v.sequence v.index, some v.selection),
    (infoRequest (v.sequence + 1), v.info)]

/-- The flight that the description tells of. -/
def flight? (v : Visit) : Option Flight :=
  v.info.bind fun reply => (reply.flight v.index).toOption

/-- What is found in a visit. -/
def finding (v : Visit) : Finding :=
  match v.flight? with
  | some flight => .described flight
  | none => .unreadable

end Visit

/-! ## What a reply tells -/

/-- **What a reply describes is the flight of its text**, under the number that was asked for. -/
theorem Reply.flight_eq_ok_iff {reply : Reply} {index : UInt8} {flight : Flight} :
    reply.flight index = .ok flight ↔
      reply.type = .ack ∧ reply.data ≠ [] ∧
        Flight.parseInfo? (trimNulls (decodeText reply.data)) index = some flight := by
  unfold Reply.flight
  constructor
  · intro h
    split at h
    · cases h
    · next htype =>
      split at h
      · cases h
      · next hdata =>
        dsimp only at h
        split at h
        · next hparse =>
          cases h
          exact ⟨Decidable.not_not.mp htype, hdata, hparse⟩
        · cases h
  · rintro ⟨htype, hdata, hparse⟩
    rw [if_neg (fun hne => hne htype), if_neg hdata]
    simp only [hparse]

theorem Visit.flight?_eq_some_iff {v : Visit} {flight : Flight} :
    v.flight? = some flight ↔
      ∃ reply, v.info = some reply ∧ reply.flight v.index = .ok flight := by
  rw [flight?, Option.bind_eq_some_iff]
  refine exists_congr fun reply => and_congr_right fun _ => ?_
  cases reply.flight v.index <;> simp [Except.toOption]

/-- A flight has the number of the record that was visited. -/
theorem Visit.index_of_flight? {v : Visit} {flight : Flight} (h : v.flight? = some flight) :
    flight.index = v.index := by
  obtain ⟨reply, -, hflight⟩ := Visit.flight?_eq_some_iff.mp h
  exact Flight.index_of_parseInfo? (Reply.flight_eq_ok_iff.mp hflight).2.2

/-! ## One number -/

theorem perform_selectRecord (index : UInt8) (s : Session) :
    (selectRecord index).perform s
      = (((exchange .selectRecord [index] (·.controlTimeout)).perform s).1.map Reply.type,
        ((exchange .selectRecord [index] (·.controlTimeout)).perform s).2) := by
  rw [selectRecord, Action.perform_bind]
  rcases (exchange .selectRecord [index] (·.controlTimeout)).perform s with ⟨_ | _, s'⟩ <;> rfl

theorem perform_attempt_readInfo (index : UInt8) (s : Session) :
    (readInfo index).attempt.perform s
      = (.ok (((exchange .getRecordInfo [] (·.controlTimeout)).perform s).1.toOption.bind
          fun reply => (reply.flight index).toOption),
        ((exchange .getRecordInfo [] (·.controlTimeout)).perform s).2) := by
  rw [Action.attempt, Action.perform_ofPerform, readInfo, Action.perform_bind]
  rcases (exchange .getRecordInfo [] (·.controlTimeout)).perform s with ⟨_ | reply, s'⟩
  · rfl
  · simp only [Action.ofResult, Action.perform_ofPerform]
    cases hflight : reply.flight index <;> simp [Except.toOption, hflight]

/-- What a listing does with a record that is there. -/
def describeSelected (index : UInt8) : Action Finding := do
  poll
  let flight? ← (readInfo index).attempt
  poll
  match flight? with
  | some flight => pure (.described flight)
  | none => pure .unreadable

theorem findRecord_eq (index : UInt8) : findRecord index = (do
    reportPosition (index.toNat % listRange)
    poll
    let type ← selectRecord index
    if type = .nack then pure .nothing
    else if type = .ack then describeSelected index
    else throw (.unexpectedResponse type)) := rfl

/-- How the visit of a selected record ends. -/
inductive DescribeOutcome (v : Visit) (s : Session) : Except Failure Finding × Session → Prop
  /-- The observer stopped it in front of the request or behind the reply. -/
  | stopped {asked : Transcript} {s' : Session}
      (hasked : asked <+: [(infoRequest s.nextSequence, v.info)]) (h : s.Transcribed asked s') :
      DescribeOutcome v s (.error .cancelled, s')
  | visited {s' : Session} (h : s.Transcribed [(infoRequest s.nextSequence, v.info)] s') :
      DescribeOutcome v s (.ok v.finding, s')

theorem describeSelected_outcome (index : UInt8) (sequence : UInt16) (selection : Reply)
    (s : Session) : ∃ info, DescribeOutcome
      { index := index, sequence := sequence, selection := selection, info := info } s
      ((describeSelected index).perform s) := by
  rw [describeSelected, Action.perform_bind]
  rcases perform_poll_cases s with ⟨s', hpoll, -, -⟩ | hpoll
  · rw [hpoll]
    exact ⟨none, .stopped List.nil_prefix (.of_quiet (leads_quiet_poll.of_perform hpoll))⟩
  · rw [hpoll]
    have hready := leads_quiet_poll.of_perform hpoll
    have hnumber : s.polled.nextSequence = s.nextSequence :=
      leads_nextSequence_poll.of_perform hpoll
    have hinfo := (transcribed_exchange .getRecordInfo [] (·.controlTimeout) s.polled).after_quiet
      hready
    rw [hnumber] at hinfo
    simp only
    rw [Action.perform_bind, perform_attempt_readInfo]
    generalize (exchange .getRecordInfo [] (·.controlTimeout)).perform s.polled = described
      at hinfo
    simp only
    rw [Action.perform_bind]
    refine ⟨described.1.toOption, ?_⟩
    rcases perform_poll_cases described.2 with ⟨s', hpoll', -, -⟩ | hpoll'
    · rw [hpoll']
      exact .stopped (List.prefix_refl _)
        (hinfo.then_quiet (leads_quiet_poll.of_perform hpoll'))
    · rw [hpoll']
      have hvisited := hinfo.then_quiet (leads_quiet_poll.of_perform hpoll')
      let v : Visit := { index := index, sequence := sequence, selection := selection,
                         info := described.1.toOption }
      have hvisit : DescribeOutcome v s (.ok v.finding, described.2.polled) := .visited hvisited
      rw [Visit.finding] at hvisit
      show DescribeOutcome v s ((match v.flight? with
        | some flight => pure (.described flight)
        | none => pure .unreadable : Action Finding).perform described.2.polled)
      cases hflight : v.flight? with
      | some flight =>
        rw [hflight] at hvisit
        exact hvisit
      | none =>
        rw [hflight] at hvisit
        exact hvisit

/-- How the search under a number ends. -/
inductive FindOutcome (index : UInt8) (s : Session) : Except Failure Finding × Session → Prop
  /-- The observer stopped it, in front of its requests, between them or behind them. -/
  | stopped {v : Visit} {asked : Transcript} {s' : Session} (hindex : v.index = index)
      (hack : v.selection.type = .ack) (hasked : asked <+: v.asked) (h : s.Transcribed asked s') :
      FindOutcome index s (.error .cancelled, s')
  | unanswered {sequence : UInt16} {failure : Failure} {s' : Session}
      (h : s.Transcribed [(selectionRequest sequence index, none)] s') :
      FindOutcome index s (.error failure, s')
  | refused {sequence : UInt16} {reply : Reply} {s' : Session} (hnack : reply.type = .nack)
      (h : s.Transcribed [(selectionRequest sequence index, some reply)] s') :
      FindOutcome index s (.ok .nothing, s')
  | visited {v : Visit} {s' : Session} (hindex : v.index = index)
      (hack : v.selection.type = .ack) (h : s.Transcribed v.asked s') :
      FindOutcome index s (.ok v.finding, s')

/-- **Every search under a number ends in one of these ways.** -/
theorem findRecord_outcome (index : UInt8) (s : Session) :
    FindOutcome index s ((findRecord index).perform s) := by
  have hreported : s.Quiet ((reportPosition (index.toNat % listRange)).perform s).2 :=
    .of_told (leads_told_reportPosition _ s)
  rw [findRecord_eq, Action.perform_bind, perform_reportPosition]
  generalize ((reportPosition (index.toNat % listRange)).perform s).2 = reported at hreported
  simp only
  rw [Action.perform_bind]
  rcases perform_poll_cases reported with ⟨s', hpoll, -, -⟩ | hpoll
  · rw [hpoll]
    have hnone := hreported.trans (leads_quiet_poll.of_perform hpoll)
    exact .stopped (v := ⟨index, 0, ⟨.ack, []⟩, none⟩) rfl rfl List.nil_prefix (.of_quiet hnone)
  rw [hpoll]
  have hready := hreported.trans (leads_quiet_poll.of_perform hpoll)
  have hselection := (transcribed_exchange .selectRecord [index] (·.controlTimeout)
    reported.polled).after_quiet hready
  have hnumber := (Session.Numbers.issued (.exchanged .selectRecord [index] (·.controlTimeout)
    (s := reported.polled))).spec.2.1
  have hends := ends_exchange .selectRecord [index] (·.controlTimeout) reported.polled
  simp only
  rw [Action.perform_bind, perform_selectRecord]
  generalize (exchange .selectRecord [index] (·.controlTimeout)).perform reported.polled = selected
    at hselection hnumber hends
  cases hends with
  | failed => exact .unanswered hselection
  | @gave reply selected htype =>
    simp only [Except.map]
    rcases htype with hack | hnack
    · rw [if_neg (by rw [hack]; decide), if_pos hack]
      obtain ⟨info, houtcome⟩ :=
        describeSelected_outcome index reported.polled.nextSequence reply selected
      have hasked : ∀ {asked : Transcript}, asked <+: [(infoRequest selected.nextSequence, info)] →
          [(selectionRequest reported.polled.nextSequence index, some reply)] ++ asked
            <+: Visit.asked ⟨index, reported.polled.nextSequence, reply, info⟩ := by
        intro asked h
        rw [hnumber] at h
        exact (List.prefix_append_right_inj _).mpr h
      generalize (describeSelected index).perform selected = ending at houtcome
      cases houtcome with
      | stopped hpart h => exact .stopped rfl hack (hasked hpart) (hselection.trans h)
      | visited h =>
        refine .visited rfl hack ?_
        have hvisited := hselection.trans h
        rw [hnumber] at hvisited
        exact hvisited
    · rw [if_pos hnack]
      exact .refused hnack hselection

/-! ## What the observer is told -/

/-- Between two sessions the observer was told neither a range nor a position. -/
structure Session.Unreported (s s' : Session) : Prop where
  ranges : s'.observer.ranges = s.observer.ranges
  positions : s'.observer.positions = s.observer.positions

namespace Session.Unreported

theorem refl (s : Session) : s.Unreported s := ⟨rfl, rfl⟩

theorem trans {s s' s'' : Session} (h : s.Unreported s') (h' : s'.Unreported s'') :
    s.Unreported s'' := ⟨h'.ranges.trans h.ranges, h'.positions.trans h.positions⟩

end Session.Unreported

theorem leads_unreported_poll : poll.Leads Unreported := by
  intro s
  rw [poll, Action.perform_ofPerform]
  dsimp only
  split <;> exact ⟨rfl, rfl⟩

theorem leads_unreported_exchange (type : MessageType) (payload : Bytes)
    (timeout : Settings → Nat) : (exchange type payload timeout).Leads Unreported := by
  intro s
  have hsame := leads_observer_exchange type payload timeout s
  exact ⟨congrArg Observer.ranges hsame, congrArg Observer.positions hsame⟩

theorem leads_unreported_describeSelected (index : UInt8) :
    (describeSelected index).Leads Unreported := by
  have hinfo : (readInfo index).Leads Unreported :=
    .bind .trans (leads_unreported_exchange _ _ _) fun _ => Action.leads_ofResult .refl _
  refine .bind .trans leads_unreported_poll fun _ => .bind .trans hinfo.attempt fun flight? =>
    .bind .trans leads_unreported_poll fun _ => ?_
  cases flight? <;> exact Action.leads_pure .refl _

/-- **A search under a number reports one position**, before it does anything else. -/
theorem positions_findRecord (index : UInt8) (s : Session) :
    ((findRecord index).perform s).2.observer.ranges = s.observer.ranges ∧
      ((findRecord index).perform s).2.observer.positions
        = s.observer.positions ++ [index.toNat % listRange] := by
  have hselection : (selectRecord index).Leads Unreported :=
    .bind .trans (leads_unreported_exchange _ _ _) fun _ => Action.leads_pure .refl _
  have hrest : Action.Leads Unreported (do
      poll
      let type ← selectRecord index
      if type = .nack then pure .nothing
      else if type = .ack then describeSelected index
      else throw (.unexpectedResponse type)) := by
    refine .bind .trans leads_unreported_poll fun _ => .bind .trans hselection fun type => ?_
    split
    · exact Action.leads_pure .refl _
    split
    · exact leads_unreported_describeSelected index
    · exact fun s => .refl s
  have hs := hrest ((reportPosition (index.toNat % listRange)).perform s).2
  rw [findRecord_eq, Action.perform_bind, perform_reportPosition]
  exact ⟨hs.ranges, hs.positions⟩

/-! ## Room on the list -/

/-- Between two sessions no request was issued when so many flights had been put on a list. -/
def Session.Spares (s : Session) (room : Nat) (s' : Session) : Prop :=
  ∃ events, s'.history = s.history ++ events ∧
    ∀ before request after, events = before ++ .issued request :: after →
      (listedFlights before).length < room

namespace Session.Spares

variable {s s' s'' : Session} {room : Nat}

/-- Where no request is issued no room is needed. -/
theorem of_quiet (h : s.Quiet s') (room : Nat) : s.Spares room s' := by
  obtain ⟨events, heq, hquiet⟩ := h
  refine ⟨events, heq, fun before request after hcut => ?_⟩
  exact (hquiet (.issued request) (by rw [hcut]; simp)).elim

/-- What puts no flight on the list needs room for one. -/
theorem of_unlisted (h : s.Unlisted s') (hrecorded : s.Recorded s') (hroom : 0 < room) :
    s.Spares room s' := by
  obtain ⟨events, hevents⟩ := hrecorded
  have hnone : listedFlights events = [] := by
    have hsame : listedFlights s'.history = listedFlights s.history := h
    rw [hevents.history, listedFlights_append] at hsame
    exact List.append_right_eq_self.mp hsame
  refine ⟨events, hevents.history, fun before request after heq => ?_⟩
  rw [heq, listedFlights_append] at hnone
  rw [(List.append_eq_nil_iff.mp hnone).1]
  exact hroom

/-- The flights on the list take their room from what comes behind them. -/
theorem trans {flights : List Flight} (h : s.Spares room s')
    (hlisted : listedFlights s'.history = listedFlights s.history ++ flights)
    (h' : s'.Spares (room - flights.length) s'') : s.Spares room s'' := by
  obtain ⟨events, heq, hspared⟩ := h
  obtain ⟨events', heq', hspared'⟩ := h'
  have hflights : listedFlights events = flights := by
    rw [heq, listedFlights_append] at hlisted
    exact List.append_cancel_left hlisted
  refine ⟨events ++ events', by rw [heq', heq, List.append_assoc],
    fun before request after hcut => ?_⟩
  rcases List.append_eq_append_iff.mp hcut with ⟨middle, rfl, hrest⟩ | ⟨middle, hfront, hrest⟩
  · have := hspared' middle request after hrest
    rw [listedFlights_append, List.length_append, hflights]
    omega
  · cases middle with
    | nil =>
      rw [List.append_nil] at hfront
      have := hspared' [] request after hrest.symm
      rw [← hfront, hflights]
      omega
    | cons event middle =>
      obtain ⟨rfl, -⟩ := List.cons.inj hrest
      exact hspared before request middle hfront

theorem stretch (h : s.Spares room s') {before after : List Event} {request : Frame}
    (heq : s.stretch s' = before ++ .issued request :: after) :
    (listedFlights before).length < room := by
  obtain ⟨events, hhistory, hspared⟩ := h
  rw [stretch_eq hhistory] at heq
  exact hspared before request after heq

end Session.Spares

/-! ## The records that are left -/

/-- How a listing ends behind its visits, when `index` is the next number, and whether it reaches that
number, which counts one, or not. -/
inductive ListingEnd (index : UInt8) : Except Failure Unit → Transcript → Nat → Prop
  /-- The list is full, or there are no more numbers. -/
  | done : ListingEnd index (.ok ()) [] 0
  | stopped {v : Visit} {asked : Transcript} (hindex : v.index = index)
      (hack : v.selection.type = .ack) (hasked : asked <+: v.asked) :
      ListingEnd index (.error .cancelled) asked 1
  | unanswered (sequence : UInt16) (failure : Failure) :
      ListingEnd index (.error failure) [(selectionRequest sequence index, none)] 1
  | refused (sequence : UInt16) {reply : Reply} (hnack : reply.type = .nack) :
      ListingEnd index (.ok ()) [(selectionRequest sequence index, some reply)] 1

/-- What a listing has done that began with number `first` when so many numbers were left: its
visits, what it asked behind them, and whether it reached one more number. -/
structure Inventory (first left : Nat) (list : FlightList) (s : Session) (visits : List Visit)
    (last : Transcript) (more : Nat) (ending : (Except Failure Unit × FlightList) × Session) :
    Prop where
  transcribed : s.Transcribed (visits.flatMap Visit.asked ++ last) ending.2
  indices : visits.map Visit.index = (List.range' first visits.length).map UInt8.ofNat
  acknowledged : ∀ v ∈ visits, v.selection.type = .ack
  flights : ending.1.2.flights = list.flights ++ visits.filterMap Visit.flight?
  capacity : ending.1.2.capacity = list.capacity
  ends : ListingEnd (UInt8.ofNat (first + visits.length)) ending.1.1 last more
  spares : s.Spares (list.capacity - list.size) ending.2
  ranges : ending.2.observer.ranges = s.observer.ranges
  positions : ending.2.observer.positions
    = s.observer.positions ++ (List.range' first (visits.length + more)).map (· % listRange)
  within : visits.length + more ≤ left
  done : more = 0 → ending.1.2.isFull = true ∨ visits.length = left

namespace Inventory

variable {first left more : Nat} {list list' : FlightList} {s s' : Session}
  {visits : List Visit} {last : Transcript} {ending : (Except Failure Unit × FlightList) × Session}

/-- Nothing is left to do. -/
theorem of_done (h : list.isFull = true ∨ left = 0) :
    Inventory first left list s [] [] 0 ((.ok (), list), s) where
  transcribed := .of_quiet (.refl _ s)
  indices := rfl
  acknowledged := List.forall_mem_nil _
  flights := (List.append_nil _).symm
  capacity := rfl
  ends := .done
  spares := .of_quiet (.refl _ s) _
  ranges := rfl
  positions := (List.append_nil _).symm
  within := Nat.zero_le left
  done _ := h.imp id Eq.symm

/-- The last number that is reached, which leaves the list as it is. -/
theorem of_end {result : Except Failure Unit} (hfirst : first < recordCount)
    (hasked : s.Transcribed last s') (hend : ListingEnd (UInt8.ofNat first) result last 1)
    (hspares : s.Spares (list.capacity - list.size) s')
    (hranges : s'.observer.ranges = s.observer.ranges)
    (hpositions : s'.observer.positions
      = s.observer.positions ++ [(UInt8.ofNat first).toNat % listRange]) :
    Inventory first (left + 1) list s [] last 1 ((result, list), s') where
  transcribed := hasked
  indices := rfl
  acknowledged := List.forall_mem_nil _
  flights := (List.append_nil _).symm
  capacity := rfl
  ends := hend
  spares := hspares
  ranges := hranges
  positions := by
    rw [hpositions, UInt8.toNat_ofNat_of_lt' hfirst]
    rfl
  within := Nat.succ_le_succ (Nat.zero_le left)
  done h := by cases h

/-- One more visit in front. -/
theorem cons {v : Visit} (hfirst : first < recordCount) (hindex : v.index = UInt8.ofNat first)
    (hack : v.selection.type = .ack) (hasked : s.Transcribed v.asked s')
    (hspares : s.Spares (list.capacity - list.size) s')
    (hlisted : listedFlights s'.history = listedFlights s.history ++ v.flight?.toList)
    (hranges : s'.observer.ranges = s.observer.ranges)
    (hpositions : s'.observer.positions
      = s.observer.positions ++ [(UInt8.ofNat first).toNat % listRange])
    (hflights : list'.flights = list.flights ++ v.flight?.toList)
    (hcapacity : list'.capacity = list.capacity)
    (h : Inventory (first + 1) left list' s' visits last more ending) :
    Inventory first (left + 1) list s (v :: visits) last more ending where
  transcribed := by
    rw [List.flatMap_cons, List.append_assoc]
    exact hasked.trans h.transcribed
  indices := by
    rw [List.map_cons, hindex, h.indices, List.length_cons, List.range'_succ, List.map_cons]
  acknowledged := List.forall_mem_cons.mpr ⟨hack, h.acknowledged⟩
  flights := by
    rw [h.flights, hflights, List.append_assoc, List.filterMap_cons]
    cases v.flight? <;> rfl
  capacity := h.capacity.trans hcapacity
  ends := by
    have hends := h.ends
    rw [Nat.add_assoc, Nat.add_comm 1] at hends
    exact hends
  spares := by
    have hrest := h.spares
    rw [hcapacity, FlightList.size, hflights, List.length_append, ← Nat.sub_sub] at hrest
    exact hspares.trans hlisted hrest
  ranges := h.ranges.trans hranges
  positions := by
    rw [h.positions, hpositions, UInt8.toNat_ofNat_of_lt' hfirst, List.append_assoc,
      List.length_cons, Nat.add_right_comm, List.range'_succ]
    rfl
  within := by
    rw [List.length_cons, Nat.add_right_comm]
    exact Nat.succ_le_succ h.within
  done hmore := (h.done hmore).imp id (congrArg Nat.succ)

end Inventory

theorem Session.listedFlights_note (s : Session) (flight : Flight) :
    listedFlights (s.note (.listed flight)).history = listedFlights s.history ++ [flight] := by
  rw [history_note, listedFlights_append]
  rfl

/-- **However a listing of the records that are left ends, it is visits and an end.** -/
theorem exists_inventory {left : Nat} (hleft : left ≤ recordCount) (list : FlightList)
    (s : Session) : ∃ visits last more,
      Inventory (recordCount - left) left list s visits last more (listing left list s) := by
  induction left generalizing list s with
  | zero => exact ⟨[], [], 0, .of_done (.inr rfl)⟩
  | succ left ih =>
    by_cases hfull : list.isFull
    · refine ⟨[], [], 0, ?_⟩
      rw [listing, listFrom, if_pos hfull]
      exact .of_done (.inl hfull)
    have hfirst : recordCount - (left + 1) < recordCount := by omega
    have hnext : recordCount - (left + 1) + 1 = recordCount - left := by omega
    have hfree : list.flights.length < list.capacity := by
      rw [FlightList.isFull, FlightList.size, decide_eq_true_iff] at hfull
      omega
    have hroom : 0 < list.capacity - list.size := Nat.sub_pos_of_lt hfree
    have houtcome := findRecord_outcome (UInt8.ofNat (recordCount - (left + 1))) s
    have hunlisted := leads_unlisted_findRecord (UInt8.ofNat (recordCount - (left + 1))) s
    have hrecorded := (composed_findRecord (UInt8.ofNat (recordCount - (left + 1)))).recorded s
    have hreported := positions_findRecord (UInt8.ofNat (recordCount - (left + 1))) s
    rw [listing_succ hfull]
    generalize (findRecord (UInt8.ofNat (recordCount - (left + 1)))).perform s = found
      at houtcome hunlisted hrecorded hreported
    have hspares : s.Spares (list.capacity - list.size) found.2 :=
      .of_unlisted hunlisted hrecorded hroom
    cases houtcome with
    | stopped hindex hack hasked h =>
      exact ⟨[], _, 1, .of_end hfirst h (.stopped hindex hack hasked) hspares hreported.1 hreported.2⟩
    | unanswered h =>
      exact ⟨[], _, 1, .of_end hfirst h (.unanswered _ _) hspares hreported.1 hreported.2⟩
    | refused hnack h =>
      exact ⟨[], _, 1, .of_end hfirst h (.refused _ hnack) hspares hreported.1 hreported.2⟩
    | @visited v s' hindex hack h =>
      cases hflight : v.flight? with
      | none =>
        obtain ⟨visits, last, more, hrest⟩ := ih (by omega) list s'
        rw [← hnext] at hrest
        rw [Visit.finding, hflight]
        have hlisted : listedFlights s'.history
            = listedFlights s.history ++ v.flight?.toList := by
          rw [hflight]
          exact Eq.trans hunlisted (List.append_nil _).symm
        have hsame : list.flights = list.flights ++ v.flight?.toList := by
          rw [hflight]
          exact (List.append_nil _).symm
        exact ⟨v :: visits, last, more, .cons hfirst hindex hack h hspares hlisted
          hreported.1 hreported.2 hsame rfl hrest⟩
      | some flight =>
        obtain ⟨longer, hpush, hcapacity, hflights⟩ := list.exists_push_eq_ok flight hfree
        obtain ⟨visits, last, more, hrest⟩ := ih (by omega) longer (s'.note (.listed flight))
        rw [← hnext] at hrest
        rw [Visit.finding, hflight]
        dsimp only [listingBehind]
        rw [hpush]
        have hnoted : s'.Quiet (s'.note (.listed flight)) := .of_note rfl trivial
        have hnone : listedFlights s'.history = listedFlights s.history ++ [] :=
          Eq.trans hunlisted (List.append_nil _).symm
        have hlisted : listedFlights (s'.note (.listed flight)).history
            = listedFlights s.history ++ v.flight?.toList := by
          rw [listedFlights_note, hunlisted, hflight]
          rfl
        have hlonger : longer.flights = list.flights ++ v.flight?.toList := by
          rw [hflights, hflight]
          rfl
        exact ⟨v :: visits, last, more, .cons hfirst hindex hack (h.then_quiet hnoted)
          (hspares.trans hnone (.of_quiet hnoted _)) hlisted hreported.1 hreported.2 hlonger
          hcapacity hrest⟩

/-! ## Reading an inventory -/

/-- What the selections among requests ask for. -/
def selections (requests : List Frame) : List Bytes :=
  requests.filterMap fun request =>
    if request.messageType = .selectRecord then some request.payload else none

theorem selections_append (first second : List Frame) :
    selections (first ++ second) = selections first ++ selections second := List.filterMap_append

theorem selections_visits (visits : List Visit) :
    selections ((visits.flatMap Visit.asked).map Prod.fst) = visits.map fun v => [v.index] := by
  induction visits with
  | nil => rfl
  | cons v visits ih =>
    rw [List.flatMap_cons, List.map_append, selections_append, ih]
    rfl

/-- A stop within a visit leaves none of its requests, the selection, or both. -/
theorem Visit.prefix_asked_iff {v : Visit} {asked : Transcript} :
    asked <+: v.asked ↔ asked = [] ∨
      asked = [(selectionRequest v.sequence v.index, some v.selection)] ∨ asked = v.asked := by
  rw [Visit.asked, List.prefix_cons_iff]
  simp only [List.prefix_cons_iff, List.prefix_nil]
  constructor
  · rintro (rfl | ⟨rest, rfl, rfl | ⟨rest', rfl, rfl⟩⟩)
    · exact .inl rfl
    · exact .inr (.inl rfl)
    · exact .inr (.inr rfl)
  · rintro (rfl | rfl | rfl)
    · exact .inl rfl
    · exact .inr ⟨[], rfl, .inl rfl⟩
    · exact .inr ⟨_, rfl, .inr ⟨[], rfl, rfl⟩⟩

namespace ListingEnd

variable {n more : Nat} {index : UInt8} {result : Except Failure Unit} {last : Transcript}

/-- Behind the visits at most the next number is selected. -/
theorem exists_selections (h : ListingEnd (UInt8.ofNat n) result last more) :
    ∃ tried, tried ≤ more ∧ more ≤ tried + 1 ∧
      selections (last.map Prod.fst) = (List.range' n tried).map fun k => [UInt8.ofNat k] := by
  cases h with
  | done => exact ⟨0, by decide, by decide, rfl⟩
  | unanswered => exact ⟨1, by decide, by decide, rfl⟩
  | refused => exact ⟨1, by decide, by decide, rfl⟩
  | stopped hindex _ hasked =>
    rcases Visit.prefix_asked_iff.mp hasked with rfl | rfl | rfl
    · exact ⟨0, by decide, by decide, rfl⟩
    · exact ⟨1, by decide, by decide, by rw [hindex]; rfl⟩
    · refine ⟨1, by decide, by decide, ?_⟩
      rw [Visit.asked, hindex]
      rfl

/-- A listing that has succeeded reaches no number behind its visits, or is refused there. -/
theorem refused_of_ok (h : ListingEnd index (.ok ()) last more) :
    more = 0 ∨ ∃ request reply, last = [(request, some reply)] ∧
      request.messageType = .selectRecord ∧ reply.type = .nack := by
  cases h with
  | done => exact .inl rfl
  | refused sequence hnack => exact .inr ⟨_, _, rfl, rfl, hnack⟩

/-- Unless the listing was stopped, no selection behind the visits is acknowledged. -/
theorem nack_of_mem (h : ListingEnd index result last more) (hresult : result ≠ .error .cancelled)
    {request : Frame} {selection : Reply} (hmem : (request, some selection) ∈ last) :
    selection.type = .nack := by
  cases h with
  | done => cases hmem
  | stopped => exact absurd rfl hresult
  | unanswered => cases List.mem_singleton.mp hmem
  | refused _ hnack =>
    cases List.mem_singleton.mp hmem
    exact hnack

end ListingEnd

/-- A selection belongs to a visit, which goes on with the request for the description, or it stands
behind the visits. -/
theorem exists_visit_of_selection {visits : List Visit} {last before after : Transcript}
    {request : Frame} {reply : Option Reply}
    (hcut : visits.flatMap Visit.asked ++ last = before ++ (request, reply) :: after)
    (htype : request.messageType = .selectRecord) :
    (∃ v ∈ visits, request = selectionRequest v.sequence v.index ∧
      ∃ rest, after = (infoRequest (v.sequence + 1), v.info) :: rest) ∨ (request, reply) ∈ last := by
  induction visits generalizing before with
  | nil =>
    rw [List.flatMap_nil, List.nil_append] at hcut
    exact .inr (hcut ▸ List.mem_append_right _ List.mem_cons_self)
  | cons v visits ih =>
    rw [List.flatMap_cons, List.append_assoc] at hcut
    match before, hcut with
    | [], hcut =>
      obtain ⟨hfirst, hrest⟩ := List.cons.inj hcut
      exact .inl ⟨v, List.mem_cons_self, (congrArg Prod.fst hfirst).symm, _, hrest.symm⟩
    | [_], hcut =>
      -- The second request of a visit is no selection.
      obtain ⟨hsecond, -⟩ := List.cons.inj (List.cons.inj hcut).2
      obtain ⟨rfl, -⟩ := Prod.mk.inj hsecond
      cases htype
    | _ :: _ :: before, hcut =>
      rcases ih (List.cons.inj (List.cons.inj hcut).2).2 with ⟨v', hmem, hv'⟩ | hmem
      · exact .inl ⟨v', List.mem_cons_of_mem v hmem, hv'⟩
      · exact .inr hmem

/-- The flights of visits have the numbers of visits, in the same order. -/
theorem indices_flights_sublist (visits : List Visit) :
    ((visits.filterMap Visit.flight?).map Flight.index).Sublist (visits.map Visit.index) := by
  induction visits with
  | nil => exact List.Sublist.slnil
  | cons v visits ih =>
    rw [List.filterMap_cons]
    cases hflight : v.flight? with
    | none => exact ih.cons _
    | some flight =>
      rw [List.map_cons, List.map_cons, Visit.index_of_flight? hflight]
      exact ih.cons_cons _

/-- Record numbers do not wrap around. -/
theorem pairwise_lt_indices {count : Nat} (h : count ≤ recordCount) :
    ((List.range' 0 count).map UInt8.ofNat).Pairwise (· < ·) := by
  rw [← List.range_eq_range']
  refine List.pairwise_map.mpr (List.pairwise_lt_range.imp_of_mem fun {a b} ha hb hlt => ?_)
  have hb' : b < 256 := Nat.lt_of_lt_of_le (List.mem_range.mp hb) h
  rw [UInt8.lt_iff_toNat_lt, UInt8.toNat_ofNat_of_lt' (Nat.lt_trans hlt hb'),
    UInt8.toNat_ofNat_of_lt' hb']
  exact hlt

namespace Inventory

variable {first left more : Nat} {list : FlightList} {s : Session} {visits : List Visit}
  {last : Transcript} {ending : (Except Failure Unit × FlightList) × Session} {events : List Event}

/-- The new flights stand in the order of their numbers. -/
theorem pairwise_index (h : Inventory 0 recordCount list s visits last more ending) :
    ((visits.filterMap Visit.flight?).map Flight.index).Pairwise (· < ·) := by
  have hcount : visits.length ≤ recordCount := Nat.le_trans (Nat.le_add_right _ more) h.within
  refine (pairwise_lt_indices hcount).sublist ?_
  rw [← h.indices]
  exact indices_flights_sublist visits

/-- **A flight on the list is what the answer to its own request tells.** -/
theorem exists_asked_of_mem (h : Inventory first left list s visits last more ending)
    (hevents : transcript events = visits.flatMap Visit.asked ++ last) {flight : Flight}
    (hmem : flight ∈ visits.filterMap Visit.flight?) :
    ∃ before sequence selection info after,
      transcript events = before ++ [(selectionRequest sequence flight.index, some selection),
        (infoRequest (sequence + 1), some info)] ++ after ∧
      selection.type = .ack ∧ info.type = .ack ∧ info.Echoes (sequence + 1) ∧
      Flight.parseInfo? (trimNulls (decodeText info.data)) flight.index = some flight := by
  obtain ⟨v, hv, hflight⟩ := List.mem_filterMap.mp hmem
  obtain ⟨front, back, rfl⟩ := List.append_of_mem hv
  obtain ⟨info, hinfo, hread⟩ := Visit.flight?_eq_some_iff.mp hflight
  obtain ⟨htype, -, hparse⟩ := Reply.flight_eq_ok_iff.mp hread
  have hasked : v.asked = [(selectionRequest v.sequence flight.index, some v.selection),
      (infoRequest (v.sequence + 1), some info)] := by
    rw [Visit.asked, Visit.index_of_flight? hflight, hinfo]
  have hsplit : transcript events = front.flatMap Visit.asked ++ v.asked
      ++ (back.flatMap Visit.asked ++ last) := by
    rw [hevents, List.flatMap_append, List.flatMap_cons]
    simp only [List.append_assoc]
  have hanswer : (infoRequest (v.sequence + 1), some info) ∈ transcript events := by
    rw [hsplit, hasked]
    simp
  obtain ⟨verdict, hanswers⟩ := exists_answers_of_mem_transcript hanswer
  refine ⟨_, v.sequence, v.selection, info, _, hasked ▸ hsplit,
    h.acknowledged v (List.mem_append_right _ List.mem_cons_self), htype, hanswers.echoes, ?_⟩
  rw [Visit.index_of_flight? hflight]
  exact hparse

/-- **The selections go up one by one**, and a listing that has succeeded has had a reason to end. -/
theorem exists_tried (h : Inventory 0 recordCount list s visits last more ending)
    (hevents : transcript events = visits.flatMap Visit.asked ++ last) :
    ∃ tried, tried ≤ visits.length + more ∧ visits.length + more ≤ tried + 1 ∧
      selections (issuedRequests events) = (List.range tried).map (fun n => [UInt8.ofNat n]) ∧
      (ending.1.1 = .ok () → ending.1.2.isFull = true ∨ tried = recordCount ∨
        ∃ before request reply, transcript events = before ++ [(request, some reply)] ∧
          request.messageType = .selectRecord ∧ reply.type = .nack) := by
  have hend := h.ends
  rw [Nat.zero_add] at hend
  obtain ⟨tried, hle, hge, hselections⟩ := hend.exists_selections
  refine ⟨visits.length + tried, by omega, by omega, ?_, fun hok => ?_⟩
  · have hvisits := congrArg (List.map fun index => [index]) h.indices
    rw [List.map_map, List.map_map] at hvisits
    rw [← map_fst_transcript, hevents, List.map_append, selections_append, selections_visits,
      hselections, List.range_eq_range', ← List.range'_append_1, List.map_append, Nat.zero_add]
    exact congrArg (· ++ _) hvisits
  · rw [hok] at hend
    rcases hend.refused_of_ok with hmore | ⟨request, reply, hlast, htype, hnack⟩
    · refine (h.done hmore).imp id fun hall => .inl ?_
      omega
    · exact .inr (.inr ⟨_, request, reply, by rw [hevents, hlast], htype, hnack⟩)

/-- **An acknowledged number that is not on the list is one whose description could not be read**,
unless the listing was stopped. -/
theorem unreadable_of_notMem (h : Inventory first left list s visits last more ending)
    (hevents : transcript events = visits.flatMap Visit.asked ++ last)
    (hresult : ending.1.1 ≠ .error .cancelled) {before after : Transcript} {request : Frame}
    {selection : Reply} {index : UInt8}
    (hcut : transcript events = before ++ (request, some selection) :: after)
    (htype : request.messageType = .selectRecord) (hpayload : request.payload = [index])
    (hack : selection.type = .ack)
    (hindex : index ∉ (visits.filterMap Visit.flight?).map Flight.index) :
    ∃ info rest, after = (infoRequest (request.sequence + 1), info) :: rest ∧
      ∀ reply, info = some reply → ∃ failure, reply.flight index = .error failure := by
  rcases exists_visit_of_selection (hevents.symm.trans hcut) htype with
    ⟨v, hv, rfl, rest, hrest⟩ | hmem
  · have hsame : v.index = index := (List.cons.inj hpayload).1
    refine ⟨v.info, rest, hrest, fun reply hinfo => ?_⟩
    cases hread : reply.flight index with
    | error failure => exact ⟨failure, rfl⟩
    | ok flight =>
      have hflight : v.flight? = some flight :=
        Visit.flight?_eq_some_iff.mpr ⟨reply, hinfo, hsame ▸ hread⟩
      have hlisted := List.mem_map_of_mem (f := Flight.index) (List.mem_filterMap.mpr ⟨v, hv, hflight⟩)
      rw [Visit.index_of_flight? hflight, hsame] at hlisted
      exact absurd hlisted hindex
  · rw [h.ends.nack_of_mem hresult hmem] at hack
    cases hack

end Inventory

/-! ## All records -/

/-- The session in which a listing has told its range. -/
theorem history_reportRange (range : Nat) (s : Session) :
    ((reportRange range).perform s).2.history = s.history ++ [.rangeReported range] :=
  history_note _ _

/-- **A listing is visits and an end**, and what it lists is what the visits tell. -/
theorem exists_inventory_listRecords (list : FlightList) (s : Session) :
    ∃ visits last more,
      Inventory 0 recordCount list ((reportRange listRange).perform s).2 visits last more
        (listing recordCount list ((reportRange listRange).perform s).2) ∧
      transcript (s.stretch (listRecords list s).2.2) = visits.flatMap Visit.asked ++ last ∧
      listedFlights (s.stretch (listRecords list s).2.2) = visits.filterMap Visit.flight? := by
  obtain ⟨visits, last, more, h⟩ :=
    exists_inventory (Nat.le_refl recordCount) list ((reportRange listRange).perform s).2
  rw [Nat.sub_self] at h
  have hrange : s.Quiet ((reportRange listRange).perform s).2 := .of_note rfl trivial
  refine ⟨visits, last, more, h, (h.transcribed.after_quiet hrange).stretch, ?_⟩
  exact List.append_cancel_left ((flights_listRecords list s).symm.trans h.flights)

/--
**A listing keeps its order, its capacity and the truth, whatever the device answers.**

Answers may be late, stale, malformed or missing, the link may fail and the observer may stop: the
list keeps its flights and takes new ones behind them in the order of their numbers, never more than
its capacity. Each new flight is what the answer to its own request for a description tells, and that
request stands right behind the selection of the flight's number, which was acknowledged. The
selections go up from 0 one by one, none of them is made when the list is full, and each is preceded
by the report of its position. A listing that succeeds has filled its list, was refused or has tried
all numbers; and unless it was stopped, it has left out no acknowledged number but those whose
description could not be read.
-/
theorem listing_of_any_device (list : FlightList) (s : Session) :
    let result := (listRecords list s).1
    let found := (listRecords list s).2.1
    let s' := (listRecords list s).2.2
    let events := s.stretch s'
    let listed := listedFlights events
    (found.capacity = list.capacity ∧ found.flights = list.flights ++ listed ∧
      found.flights.length ≤ list.capacity ∧ (listed.map Flight.index).Pairwise (· < ·)) ∧
    (∀ flight ∈ listed, ∃ before sequence selection info after,
      transcript events = before ++ [(selectionRequest sequence flight.index, some selection),
        (infoRequest (sequence + 1), some info)] ++ after ∧
      selection.type = .ack ∧ info.type = .ack ∧ info.Echoes (sequence + 1) ∧
      Flight.parseInfo? (trimNulls (decodeText info.data)) flight.index = some flight) ∧
    (∃ tried reached, tried ≤ reached ∧ reached ≤ tried + 1 ∧ reached ≤ recordCount ∧
      selections (issuedRequests events) = (List.range tried).map (fun n => [UInt8.ofNat n]) ∧
      events.head? = some (.rangeReported listRange) ∧
      s'.observer.ranges = s.observer.ranges ++ [listRange] ∧
      s'.observer.positions = s.observer.positions ++ (List.range reached).map (· % listRange) ∧
      (result = .ok () → found.isFull = true ∨ tried = recordCount ∨
        ∃ before request reply, transcript events = before ++ [(request, some reply)] ∧
          request.messageType = .selectRecord ∧ reply.type = .nack)) ∧
    (∀ before request after, events = before ++ .issued request :: after →
      list.size + (listedFlights before).length < list.capacity) ∧
    (result ≠ .error .cancelled → ∀ before request selection after index,
      transcript events = before ++ (request, some selection) :: after →
      request.messageType = .selectRecord → request.payload = [index] → selection.type = .ack →
      index ∉ listed.map Flight.index →
      ∃ info rest, after = (infoRequest (request.sequence + 1), info) :: rest ∧
        ∀ reply, info = some reply → ∃ failure, reply.flight index = .error failure) := by
  intro result found s' events listed
  obtain ⟨visits, last, more, h, hevents, hlisted⟩ := exists_inventory_listRecords list s
  have hrange : s.Quiet ((reportRange listRange).perform s).2 := .of_note rfl trivial
  have hunlisted : listedFlights ((reportRange listRange).perform s).2.history
      = listedFlights s.history ++ [] := by
    rw [history_reportRange, listedFlights_append]
    rfl
  obtain ⟨tried, hle, hge, hselections, hok⟩ := h.exists_tried hevents
  obtain ⟨rest, hhistory, -, -⟩ := h.transcribed
  have hhead : events.head? = some (.rangeReported listRange) := by
    have heq : s'.history = s.history ++ (.rangeReported listRange :: rest) := by
      rw [List.append_cons, ← history_reportRange]
      exact hhistory
    rw [show events = .rangeReported listRange :: rest from stretch_eq heq]
    rfl
  refine ⟨⟨h.capacity, flights_listRecords list s, ?_, ?_⟩, fun flight hmem => ?_,
    ⟨tried, visits.length + more, hle, hge, h.within, hselections, hhead, h.ranges, ?_, hok⟩,
    fun before request after heq => ?_, ?_⟩
  · exact h.capacity ▸ found.fits
  · rw [show listed = _ from hlisted]
    exact h.pairwise_index
  · rw [show listed = _ from hlisted] at hmem
    exact h.exists_asked_of_mem hevents hmem
  · rw [List.range_eq_range']
    exact h.positions
  · have hspares := (Spares.of_quiet hrange (list.capacity - list.size)).trans hunlisted h.spares
    have := hspares.stretch heq
    omega
  · intro hresult before request selection after index hcut htype hpayload hack hindex
    rw [show listed = _ from hlisted] at hindex
    exact h.unreadable_of_notMem hevents hresult hcut htype hpayload hack hindex

end FlightRecorder
