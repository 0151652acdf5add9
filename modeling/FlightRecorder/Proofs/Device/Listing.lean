import FlightRecorder.Proofs.Device.Conduct
import FlightRecorder.Proofs.Device.Dialogue
import FlightRecorder.Proofs.Text.Utf8

/-!
# Listing a device that answers

A device that lets its records be selected one by one, tells their descriptions and refuses the
first number behind them has its records listed: the list takes the flights of the records whose
descriptions can be read, in the order of their numbers and up to its capacity.

* `Recorder`, `listingTurns` — a device with its records, and the turns that list them
* `flightsFrom` — the flights that can be read, each with the number of its record
* `perform_findRecord_of_prepared` — one record
* `listFrom_of_prepared` — the records that are left
* `listRecords_of_answered` — all records
-/

namespace FlightRecorder

/-! ## Devices and their records -/

/-- A flight has the number under which its description is read. -/
theorem Flight.index_of_parseInfo? {text : List Char} {index : UInt8} {flight : Flight}
    (h : Flight.parseInfo? text index = some flight) : flight.index = index := by
  unfold Flight.parseInfo? at h
  simp only [Option.bind_eq_bind, Option.bind_eq_some_iff] at h
  obtain ⟨_, _, _, _, _, _, _, _, _, _, _, _, hflight⟩ := h
  cases hflight
  rfl

/-- A record as a device tells of it. -/
structure StoredRecord where
  /-- The device's own numbers of its two answers. -/
  ownSelection : UInt16
  ownDescription : UInt16
  /-- What the answer to the selection carries. -/
  greeting : Bytes
  /-- The description, and how many null bytes stand behind it. -/
  text : Bytes
  nulls : Nat
  deriving DecidableEq, Repr

namespace StoredRecord

/-- The selection of the record. -/
def selection (r : StoredRecord) (index : UInt8) : Turn where
  type := .selectRecord
  payload := [index]
  own := r.ownSelection
  accepted := true
  data := r.greeting

/-- The request for the description. -/
def description (r : StoredRecord) : Turn where
  type := .getRecordInfo
  payload := []
  own := r.ownDescription
  accepted := true
  data := r.text ++ nullBytes r.nulls

/-- The flight that the description tells of. -/
def flight? (r : StoredRecord) (index : UInt8) : Option Flight :=
  Flight.parseInfo? (trimNulls (decodeText r.text)) index

/-- What is found under the number of the record. -/
def finding (r : StoredRecord) (index : UInt8) : Finding :=
  match r.flight? index with
  | some flight => .described flight
  | none => .unreadable

/-- Both answers fit a frame. -/
def Fits (r : StoredRecord) : Prop := (r.selection 0).Fits ∧ r.description.Fits

instance (r : StoredRecord) : Decidable r.Fits :=
  inferInstanceAs (Decidable ((r.selection 0).Fits ∧ r.description.Fits))

/-- **The answer with the description tells of the flight**, whether it can be read or not. -/
theorem toOption_flight_reply (r : StoredRecord) (sequence : UInt16) (index : UInt8) :
    ((r.description.reply sequence).flight index).toOption = r.flight? index := by
  have htype : (r.description.reply sequence).type = .ack := rfl
  have hdata : (r.description.reply sequence).data = r.text ++ nullBytes r.nulls := rfl
  rw [Reply.flight, if_neg (fun hne => hne htype), hdata]
  split
  · next hempty =>
    have hnone : decodeText [] = [] := by
      rw [decodeText, decodeOnto]
      rfl
    rw [flight?, (List.append_eq_nil_iff.mp hempty).1, hnone]
    rfl
  · rw [trimNulls_decodeText_append, flight?]
    dsimp only
    cases Flight.parseInfo? (trimNulls (decodeText r.text)) index <;> rfl

end StoredRecord

/-- A device with its records. -/
structure Recorder where
  records : List StoredRecord
  /-- The device's own number of its refusal, and what that carries. -/
  ownRefusal : UInt16
  excuse : Bytes
  deriving DecidableEq, Repr

namespace Recorder

/-- The selection of a record that is not there. -/
def refusal (d : Recorder) (index : UInt8) : Turn where
  type := .selectRecord
  payload := [index]
  own := d.ownRefusal
  accepted := false
  data := d.excuse

/-- Every answer fits a frame. -/
def Fits (d : Recorder) : Prop := (d.refusal 0).Fits ∧ ∀ r ∈ d.records, r.Fits

instance (d : Recorder) : Decidable d.Fits :=
  inferInstanceAs (Decidable ((d.refusal 0).Fits ∧ ∀ r ∈ d.records, r.Fits))

end Recorder

/-- The turns that list these records if so many numbers are left and so many flights fit the list:
each record is selected and described, and the first number without a record is refused. -/
def listingTurns (d : Recorder) : Nat → Nat → List StoredRecord → List Turn
  | 0, _, _ => []
  | _ + 1, 0, _ => []
  | left + 1, _ + 1, [] => [d.refusal (UInt8.ofNat (recordCount - (left + 1)))]
  | left + 1, free + 1, r :: records =>
    let index := UInt8.ofNat (recordCount - (left + 1))
    r.selection index :: r.description ::
      -- A record that cannot be read takes no room on the list.
      match r.flight? index with
      | some _ => listingTurns d left free records
      | none => listingTurns d left (free + 1) records

/-- The turns that put the records of a device on a list. -/
def Recorder.turns (d : Recorder) (list : FlightList) : List Turn :=
  listingTurns d recordCount (list.capacity - list.size) d.records

/-- The flights that records tell of, the first of which is number `first`. -/
def flightsFrom (first : Nat) (records : List StoredRecord) : List Flight :=
  (records.zipIdx first).filterMap fun item => item.1.flight? (UInt8.ofNat item.2)

/-- The flights that the records of a device tell of. There are no more records than numbers. -/
def Recorder.flights (d : Recorder) : List Flight := flightsFrom 0 (d.records.take recordCount)

theorem flightsFrom_cons (first : Nat) (r : StoredRecord) (records : List StoredRecord) :
    flightsFrom first (r :: records)
      = (r.flight? (UInt8.ofNat first)).toList ++ flightsFrom (first + 1) records := by
  rw [flightsFrom, List.zipIdx_cons, List.filterMap_cons]
  cases r.flight? (UInt8.ofNat first) <;> rfl

theorem Recorder.fits_of_mem_listingTurns {d : Recorder} (hrefusal : (d.refusal 0).Fits)
    {left free : Nat} {records : List StoredRecord} (hrecords : ∀ r ∈ records, r.Fits) {t : Turn}
    (h : t ∈ listingTurns d left free records) : t.Fits := by
  fun_induction listingTurns d left free records with
  | case1 => cases h
  | case2 => cases h
  | case3 left free =>
    rw [List.mem_singleton.mp h]
    exact hrefusal
  | case4 left free r records index ih ih' =>
    have hr := hrecords r List.mem_cons_self
    have hrest : ∀ other ∈ records, other.Fits :=
      fun other hother => hrecords other (List.mem_cons_of_mem r hother)
    rcases List.mem_cons.mp h with rfl | h
    · exact hr.1
    rcases List.mem_cons.mp h with rfl | h
    · exact hr.2
    · split at h
      · exact ih hrest h
      · exact ih' hrest h

/-! ## One record -/

theorem perform_reportPosition (position : Nat) (s : Session) :
    (reportPosition position).perform s = (.ok (), ((reportPosition position).perform s).2) := rfl

theorem perform_selectRecord_of_expects {s : Session} {t : Turn} {turns : List Turn}
    {index : UInt8} (h : s.Expects (t :: turns)) (htype : t.type = .selectRecord)
    (hpayload : t.payload = [index]) :
    ∃ s', (selectRecord index).perform s = (.ok t.answerType, s') ∧ s'.Expects turns ∧
      s.Asked s' (t.request s.nextSequence) := by
  obtain ⟨s', hperform, hrest⟩ := perform_exchange_of_expects h
  rw [htype, hpayload] at hperform
  refine ⟨s', ?_, hrest⟩
  rw [selectRecord, Action.perform_bind, hperform]
  rfl

theorem perform_selectRecord_of_prepared {s : Session} {t : Turn} {turns : List Turn}
    {index : UInt8} (h : s.Prepared (t :: turns)) (htype : t.type = .selectRecord)
    (hpayload : t.payload = [index]) :
    ∃ s', (selectRecord index).perform s = (.ok t.answerType, s') ∧ s'.Prepared turns ∧
      s.Discussed s' [t] := by
  obtain ⟨s', hperform, hexpects, hasked⟩ :=
    perform_selectRecord_of_expects h.toExpects htype hpayload
  exact ⟨s', hperform, h.of_asked hasked hexpects, hasked.discussed⟩

theorem perform_readInfo_of_expects {s : Session} {r : StoredRecord} {turns : List Turn}
    (index : UInt8) (h : s.Expects (r.description :: turns)) :
    ∃ s', (readInfo index).perform s = ((r.description.reply s.nextSequence).flight index, s') ∧
      s'.Expects turns ∧ s.Asked s' (r.description.request s.nextSequence) := by
  obtain ⟨s', hperform, hrest⟩ := perform_exchange_of_expects h
  have hask : (exchange .getRecordInfo [] (·.controlTimeout)).perform s
      = (.ok (r.description.reply s.nextSequence), s') := hperform
  refine ⟨s', ?_, hrest⟩
  rw [readInfo, Action.perform_bind, hask]
  rfl

theorem perform_readInfo_of_prepared {s : Session} {r : StoredRecord} {turns : List Turn}
    (index : UInt8) (h : s.Prepared (r.description :: turns)) :
    ∃ s', (readInfo index).attempt.perform s = (.ok (r.flight? index), s') ∧ s'.Prepared turns ∧
      s.Discussed s' [r.description] := by
  obtain ⟨s', hread, hexpects, hasked⟩ := perform_readInfo_of_expects index h.toExpects
  refine ⟨s', ?_, h.of_asked hasked hexpects, hasked.discussed⟩
  rw [Action.perform_attempt_of_perform hread, r.toOption_flight_reply]

/-- **A number without a record is found to have none.** -/
theorem perform_findRecord_of_refused {s : Session} {d : Recorder} {index : UInt8}
    {turns : List Turn} (h : s.Prepared (d.refusal index :: turns)) :
    ∃ s', (findRecord index).perform s = (.ok .nothing, s') ∧ s'.Prepared turns ∧
      s.Discussed s' [d.refusal index] := by
  let reported := ((reportPosition (index.toNat % listRange)).perform s).2
  have hready : reported.polled.Prepared (d.refusal index :: turns) :=
    (h.reportPosition _).polled
  obtain ⟨s', hselect, hprepared, hdiscussed⟩ :=
    perform_selectRecord_of_prepared hready rfl rfl
  refine ⟨s', ?_, hprepared,
    ((Session.Discussed.reportPosition s _).trans (.polled reported)).trans hdiscussed⟩
  rw [findRecord, Action.perform_bind, perform_reportPosition]
  simp only
  rw [Action.perform_bind, perform_poll_of_patient (h.reportPosition _).patient]
  simp only
  rw [Action.perform_bind, hselect]
  rfl

/-- **What is found under the number of a record is what its description tells.** -/
theorem perform_findRecord_of_prepared {s : Session} {r : StoredRecord} {index : UInt8}
    {turns : List Turn} (h : s.Prepared (r.selection index :: r.description :: turns)) :
    ∃ s', (findRecord index).perform s = (.ok (r.finding index), s') ∧ s'.Prepared turns ∧
      s.Discussed s' [r.selection index, r.description] := by
  let reported := ((reportPosition (index.toNat % listRange)).perform s).2
  have hready : reported.polled.Prepared (r.selection index :: r.description :: turns) :=
    (h.reportPosition _).polled
  obtain ⟨selected, hselect, hselected, hturn⟩ :=
    perform_selectRecord_of_prepared hready rfl rfl
  obtain ⟨described, hdescribe, hdescribed, hturn'⟩ :=
    perform_readInfo_of_prepared index hselected.polled
  refine ⟨described.polled, ?_, hdescribed.polled, ?_⟩
  · rw [findRecord, Action.perform_bind, perform_reportPosition]
    simp only
    rw [Action.perform_bind, perform_poll_of_patient (h.reportPosition _).patient]
    simp only
    rw [Action.perform_bind, hselect]
    have hnack : ¬ (r.selection index).answerType = .nack := fun hsame => by cases hsame
    have hack : (r.selection index).answerType = .ack := rfl
    simp only
    rw [if_neg hnack, if_pos hack, Action.perform_bind, perform_poll_of_patient hselected.patient]
    simp only
    rw [Action.perform_bind, hdescribe]
    simp only
    rw [Action.perform_bind, perform_poll_of_patient hdescribed.patient]
    simp only [StoredRecord.finding]
    cases r.flight? index <;> rfl
  · exact ((((Session.Discussed.reportPosition s _).trans (.polled reported)).trans hturn).trans
      (.polled selected)).trans (hturn'.trans (.polled described))

/-! ## All records -/

theorem FlightList.exists_push_eq_ok {l : FlightList} (flight : Flight)
    (h : l.flights.length < l.capacity) :
    ∃ l', l.push flight = .ok l' ∧ l'.capacity = l.capacity ∧
      l'.flights = l.flights ++ [flight] := by
  rw [push, dif_pos h]
  exact ⟨_, rfl, rfl, rfl⟩

theorem FlightList.isFull_eq_true_iff (l : FlightList) :
    l.isFull = true ↔ l.capacity - l.size = 0 := by
  rw [isFull, decide_eq_true_iff]
  omega

/-- **The records that are left are listed** as far as there are numbers and room for them. -/
theorem listFrom_of_prepared {d : Recorder} {left : Nat} {records : List StoredRecord}
    {list : FlightList} {s : Session} (hleft : left ≤ recordCount)
    (h : s.Prepared (listingTurns d left (list.capacity - list.size) records)) :
    ∃ list' s', listFrom left list s = (.ok (), list', s') ∧ list'.capacity = list.capacity ∧
      list'.flights = list.flights ++ (flightsFrom (recordCount - left) (records.take left)).take
        (list.capacity - list.size) ∧
      s.Discussed s' (listingTurns d left (list.capacity - list.size) records) := by
  induction left generalizing records list s with
  | zero => exact ⟨list, s, rfl, rfl, by simp [flightsFrom], .refl s⟩
  | succ left ih =>
    rw [listFrom]
    rcases hfree : list.capacity - list.size with _ | free
    · rw [if_pos (list.isFull_eq_true_iff.mpr hfree)]
      exact ⟨list, s, rfl, rfl, by simp, .refl s⟩
    have hroom : ¬ list.isFull = true := by
      rw [list.isFull_eq_true_iff, hfree]
      exact Nat.succ_ne_zero free
    rw [if_neg hroom]
    rw [hfree] at h
    cases records with
    | nil =>
      obtain ⟨s', hfind, -, hturn⟩ := perform_findRecord_of_refused h
      rw [hfind]
      exact ⟨list, s', rfl, rfl, by simp [flightsFrom], hturn⟩
    | cons r records =>
      have hnext : recordCount - (left + 1) + 1 = recordCount - left := by omega
      rw [List.take_succ_cons, flightsFrom_cons, hnext]
      rw [listingTurns] at h ⊢
      obtain ⟨s', hfind, hprepared, hturns⟩ := perform_findRecord_of_prepared h
      rw [hfind, StoredRecord.finding]
      -- The room is a difference: it is folded back for the list that goes into the next step,
      -- which is the same list or one with a flight more.
      cases hflight : r.flight? (UInt8.ofNat (recordCount - (left + 1))) with
      | none =>
        rw [hflight, ← hfree] at hprepared
        obtain ⟨list', s'', hlist, hcapacity, hflights, hturns'⟩ := ih (by omega) hprepared
        refine ⟨list', s'', hlist, hcapacity, ?_, ?_⟩
        · rw [hflights, hfree]
          rfl
        · rw [← hfree]
          exact hturns.trans hturns'
      | some flight =>
        obtain ⟨longer, hpush, hlonger, happend⟩ := list.exists_push_eq_ok flight (by
          show list.size < list.capacity
          omega)
        have hsize : longer.size = list.size + 1 := by
          rw [FlightList.size, happend, List.length_append]
          rfl
        have hleast : longer.capacity - longer.size = free := by omega
        rw [hflight, ← hleast] at hprepared
        obtain ⟨list', s'', hlist, hcapacity, hflights, hturns'⟩ :=
          ih (by omega) (hprepared.note (.listed flight))
        refine ⟨list', s'', ?_, hcapacity.trans hlonger, ?_, ?_⟩
        · simp only [hpush]
          exact hlist
        · rw [hflights, happend, hleast, List.append_assoc]
          rfl
        · rw [← hleast]
          exact hturns.trans ((Session.Discussed.note s' rfl rfl).trans hturns')

/--
**A device that answers in time has its records listed.**

The list keeps its flights and takes behind them those that the descriptions tell of, each under the
number of its record, until it is full or the records or their numbers are used up. A description
that cannot be read is left out, and the records behind it keep their numbers. No request is made
but those that list the records, and nothing is sent but their bytes.
-/
theorem listRecords_of_answered {d : Recorder} {list : FlightList} {s : Session} (hd : d.Fits)
    (hpatient : s.observer.Patient)
    (hlink : s.outgoing.Takes (requestBytes s.nextSequence (d.turns list)).length)
    (hstale : ∀ verdict ∈ s.decoder.ready, ∀ reply, ¬ verdict.Answers s.nextSequence reply)
    (harrive : ArriveInTime s.settings.controlTimeout s.clock
      (answersOf s.nextSequence (d.turns list)) (timedBytes s.clock s.incoming)) :
    ∃ list' s', listRecords list s = (.ok (), list', s') ∧ list'.capacity = list.capacity ∧
      list'.flights = list.flights ++ d.flights.take (list.capacity - list.size) ∧
      issuedRequests s'.history
        = issuedRequests s.history ++ requestsOf s.nextSequence (d.turns list) ∧
      sentBytes s'.history
        = sentBytes s.history ++ requestBytes s.nextSequence (d.turns list) ∧
      s'.storage = s.storage := by
  have hprepared : s.Prepared (d.turns list) :=
    .of_arriveInTime hlink hpatient (fun _ ht => d.fits_of_mem_listingTurns hd.1 hd.2 ht) hstale
      harrive
  obtain ⟨list', s', hlist, hcapacity, hflights, hturns⟩ :=
    listFrom_of_prepared (Nat.le_refl recordCount) (hprepared.reportRange listRange)
  have hall := (Session.Discussed.reportRange s listRange).trans hturns
  rw [Nat.sub_self] at hflights
  exact ⟨list', s', hlist, hcapacity, hflights, hall.issued, hall.sent, hall.storage⟩

/-- Letters as bytes. -/
def letters (text : String) : Bytes := text.toList.map fun c => UInt8.ofNat c.toNat

/-- A device with descriptions of both forms, one that is empty and one that is no text. -/
def recorderWithGaps : Recorder where
  records := [
    { ownSelection := 1, ownDescription := 2, greeting := [], nulls := 2
      text := letters "2000-11-08|20:05:21|01:21:09|J.Doe|XYZ|15M" },
    { ownSelection := 3, ownDescription := 4, greeting := [], nulls := 0, text := [] },
    { ownSelection := 5, ownDescription := 6, greeting := [9], nulls := 1, text := [0xC3, 0x28] },
    { ownSelection := 7, ownDescription := 8, greeting := [], nulls := 0
      text := letters "18CG6NG1.IGC|2011-08-12|12:23:48|02:03:25|T|TH|Club" },
    { ownSelection := 9, ownDescription := 10, greeting := [], nulls := 0
      text := letters "2012-05-01|09:00:00|00:30:00|A|B|C" }]
  ownRefusal := 11
  excuse := []

/-- A list with one flight and room for two. -/
def listWithRoomForTwo : FlightList where
  capacity := 3
  flights := [{
    date := { year := 1999, month := 1, day := 2 }
    startTime := { hour := 3, minute := 4, second := 5 }
    endTime := { hour := 6, minute := 7, second := 8 }
    index := 9 }]

/-- A session whose numbers are about to start again. The answers of the device are on their way. -/
def sessionWithRecorder : Session where
  clock := 10
  incoming := oneByOne
    ((answersOf 65533 (recorderWithGaps.turns listWithRoomForTwo)).map fun f => (1000, f))
  outgoing := .unlimited
  storage := .empty
  settings := .standard
  decoder := { state := .within .header true #[9], ready := [.refused .strayStart] }
  nextSequence := 65533
  observer := .patient
  journal := []

theorem listRecords_with_gaps :
    ∃ list' s', listRecords listWithRoomForTwo sessionWithRecorder = (.ok (), list', s') ∧
      list'.flights.map Flight.index = [9, 0, 3] ∧ (issuedRequests s'.history).length = 8 ∧
      (sentBytes s'.history).length = 76 := by
  have hlink : sessionWithRecorder.outgoing.Takes (requestBytes sessionWithRecorder.nextSequence
      (recorderWithGaps.turns listWithRoomForTwo)).length := ⟨by decide, trivial⟩
  have hstale : ∀ verdict ∈ sessionWithRecorder.decoder.ready, ∀ reply,
      ¬ verdict.Answers sessionWithRecorder.nextSequence reply := by
    intro verdict hverdict
    rw [← Verdict.reply?_eq_none_iff, List.mem_singleton.mp hverdict]
    rfl
  have harrive : ArriveInTime sessionWithRecorder.settings.controlTimeout sessionWithRecorder.clock
      (answersOf sessionWithRecorder.nextSequence (recorderWithGaps.turns listWithRoomForTwo))
      (timedBytes sessionWithRecorder.clock sessionWithRecorder.incoming) := by
    have hframes : ∀ frames : List Frame,
        (frames.map fun f => (1000, f)).map Prod.snd = frames := by
      intro frames
      rw [List.map_map]
      exact List.map_id frames
    rw [← hframes (answersOf _ _)]
    refine arriveInTime_oneByOne fun item hitem => ?_
    obtain ⟨f, -, rfl⟩ := List.mem_map.mp hitem
    exact Nat.le_refl 1000
  obtain ⟨list', s', hlist, -, hflights, hissued, hsent, -⟩ :=
    listRecords_of_answered (by decide) (fun _ _ => rfl) hlink hstale harrive
  refine ⟨list', s', hlist, ?_, ?_, ?_⟩
  · rw [hflights]
    decide +kernel
  · rw [hissued]
    decide +kernel
  · rw [hsent]
    decide +kernel

end FlightRecorder
