import FlightRecorder.CommandLine.Run
import FlightRecorder.Proofs.Device.Listing

/-!
# One record and all records

A command for a single record selects it and reads its description. The listing does so for one
record after the other, leaves out those that cannot be read and ends at the first refusal. What the
two tell of a record is the same.

* `Recorder.flight?` — the flight that a device tells of under a number
* `Recorder.mem_flights_iff` — the listed flights are these, each under its number
* `Recorder.Describes`, `describes_of_expects` — how the reading of a single record ends
* `listing_agrees_with_description` — both ways of reading a record agree
-/

namespace FlightRecorder

open Session

/-! ## What a device tells of a record -/

namespace StoredRecord

/-- The bytes that describe the record. -/
def info (r : StoredRecord) : Bytes := r.text ++ nullBytes r.nulls

theorem flight?_eq (r : StoredRecord) (index : UInt8) :
    r.flight? index = Flight.parseInfo? (trimNulls (decodeText r.info)) index := by
  rw [info, trimNulls_decodeText_append]
  rfl

/-- The flight of a record has the number of the record. -/
theorem index_of_flight? {r : StoredRecord} {index : UInt8} {flight : Flight}
    (h : r.flight? index = some flight) : flight.index = index := Flight.index_of_parseInfo? h

end StoredRecord

namespace Recorder

/-- The flight that the device tells of under a number. -/
def flight? (d : Recorder) (index : UInt8) : Option Flight :=
  d.records[index.toNat]?.bind (·.flight? index)

theorem flight?_eq_none_of_le {d : Recorder} {index : UInt8}
    (h : d.records.length ≤ index.toNat) : d.flight? index = none := by
  rw [flight?, List.getElem?_eq_none h]
  rfl

/-- Devices with the same descriptions tell of the same flights. -/
theorem flight?_congr {d d' : Recorder}
    (h : d'.records.map StoredRecord.info = d.records.map StoredRecord.info) (index : UInt8) :
    d'.flight? index = d.flight? index := by
  have hsame : d'.records[index.toNat]?.map StoredRecord.info
      = d.records[index.toNat]?.map StoredRecord.info := by
    rw [← List.getElem?_map, h, List.getElem?_map]
  unfold flight?
  cases hd : d.records[index.toNat]? with
  | none =>
    rw [hd] at hsame
    rw [Option.map_eq_none_iff.mp hsame]
  | some r =>
    rw [hd] at hsame
    obtain ⟨r', hr', hinfo⟩ := Option.map_eq_some_iff.mp hsame
    rw [hr']
    show r'.flight? index = r.flight? index
    rw [r'.flight?_eq, r.flight?_eq, hinfo]

/-- **The listed flights are those that the device tells of under their numbers.** -/
theorem mem_flights_iff {d : Recorder} {index : UInt8} {flight : Flight} :
    (flight ∈ d.flights ∧ flight.index = index) ↔ d.flight? index = some flight := by
  constructor
  · rintro ⟨hmem, hindex⟩
    obtain ⟨⟨r, n⟩, hitem, hread⟩ := List.mem_filterMap.mp hmem
    have hr := List.mk_mem_zipIdx_iff_getElem?.mp hitem
    rw [List.getElem?_take] at hr
    split at hr
    · next hn =>
      have hn' : n < 256 := hn
      have hnumber : index = UInt8.ofNat n := hindex.symm.trans (StoredRecord.index_of_flight? hread)
      have hplace : index.toNat = n := by
        rw [hnumber]
        exact UInt8.toNat_ofNat_of_lt' hn'
      rw [flight?, hplace, hr, hnumber]
      exact hread
    · cases hr
  · intro hflight
    obtain ⟨r, hr, hread⟩ := Option.bind_eq_some_iff.mp hflight
    have hplace : index.toNat < recordCount := index.toNat_lt
    refine ⟨List.mem_filterMap.mpr ⟨(r, index.toNat), ?_, ?_⟩, StoredRecord.index_of_flight? hread⟩
    · rw [List.mk_mem_zipIdx_iff_getElem?, List.getElem?_take, if_pos hplace]
      exact hr
    · show r.flight? (UInt8.ofNat index.toNat) = some flight
      rw [UInt8.ofNat_toNat]
      exact hread

/-- The turns in which the device tells of one record, or refuses it. -/
def turnsOf (d : Recorder) (index : UInt8) : List Turn :=
  match d.records[index.toNat]? with
  | some r => [r.selection index, r.description]
  | none => [d.refusal index]

theorem fits_of_mem_turnsOf {d : Recorder} (hd : d.Fits) {index : UInt8} {t : Turn}
    (h : t ∈ d.turnsOf index) : t.Fits := by
  unfold turnsOf at h
  split at h
  · next r hr =>
    have hfits : r.Fits := hd.2 r (List.mem_of_getElem? hr)
    rcases List.mem_cons.mp h with rfl | h
    · exact hfits.1
    · rw [List.mem_singleton.mp h]
      exact hfits.2
  · rw [List.mem_singleton.mp h]
    exact hd.1

end Recorder

/-! ## A single record -/

namespace Report

/-- What is reported of a number without a record. -/
def noRecord (index : UInt8) : Report :=
  .ofSentence s!"No record #{index.toNat} on the device"

/-- What is reported of a record whose description cannot be read. -/
def unreadableInfo (index : UInt8) (failure : Failure) : Report :=
  (Report.ofFailure failure).within s!"Failed to read info of record #{index.toNat}"

theorem noRecord_ne_unreadableInfo (index : UInt8) (failure : Failure) :
    noRecord index ≠ unreadableInfo index failure := by
  intro h
  have hcauses := congrArg Report.causes h
  cases hcauses

end Report

namespace Recorder

/-- How the reading of a single record of the device can end. -/
inductive Describes (d : Recorder) (index : UInt8) : Except Report Flight → Prop
  | described {flight : Flight} (hflight : d.flight? index = some flight) :
      Describes d index (.ok flight)
  | unreadable (failure : Failure) (hthere : index.toNat < d.records.length)
      (hflight : d.flight? index = none) :
      Describes d index (.error (.unreadableInfo index failure))
  | missing (hmissing : d.records.length ≤ index.toNat) :
      Describes d index (.error (.noRecord index))

namespace Describes

variable {d : Recorder} {index : UInt8} {result : Except Report Flight}

theorem eq_ok_iff (h : d.Describes index result) (flight : Flight) :
    result = .ok flight ↔ d.flight? index = some flight := by
  cases h with
  | described hflight => simp [hflight]
  | unreadable failure hthere hflight => simp [hflight]
  | missing hmissing => simp [flight?_eq_none_of_le hmissing]

theorem eq_noRecord_iff (h : d.Describes index result) :
    result = .error (.noRecord index) ↔ d.records.length ≤ index.toNat := by
  cases h with
  | described hflight =>
    constructor
    · intro hsame
      cases hsame
    · intro hmissing
      rw [flight?_eq_none_of_le hmissing] at hflight
      cases hflight
  | unreadable failure hthere hflight =>
    constructor
    · intro hsame
      exact absurd (Except.error.inj hsame).symm (Report.noRecord_ne_unreadableInfo index failure)
    · intro hmissing
      omega
  | missing hmissing => exact ⟨fun _ => hmissing, fun _ => rfl⟩

theorem eq_unreadableInfo_iff (h : d.Describes index result) :
    (∃ failure, result = .error (.unreadableInfo index failure)) ↔
      index.toNat < d.records.length ∧ d.flight? index = none := by
  cases h with
  | described hflight => simp [hflight]
  | unreadable failure hthere hflight => exact ⟨fun _ => ⟨hthere, hflight⟩, fun _ => ⟨failure, rfl⟩⟩
  | missing hmissing =>
    constructor
    · rintro ⟨failure, hsame⟩
      exact absurd (Except.error.inj hsame) (Report.noRecord_ne_unreadableInfo index failure)
    · rintro ⟨hthere, -⟩
      omega

end Describes

end Recorder

/-- The description of a selected record is read, or it is reported why not. -/
theorem describeRecord_of_selected {index : UInt8} {s s' : Session}
    (h : (selectRecord index).perform s = (.ok .ack, s')) :
    ((describeRecord index s).1 =
      match ((readInfo index).perform s').1 with
      | .ok flight => .ok flight
      | .error failure => .error (Report.unreadableInfo index failure)) ∧
    (describeRecord index s).2 = ((readInfo index).perform s').2 := by
  rw [describeRecord, h]
  dsimp only
  rw [if_pos rfl]
  rcases (readInfo index).perform s' with ⟨_ | _, s''⟩ <;> exact ⟨rfl, rfl⟩

/-- **A single record is read as the device tells of it**, and the device is asked for nothing
else. -/
theorem describes_of_expects {d : Recorder} {index : UInt8} {s : Session}
    (h : s.Expects (d.turnsOf index)) :
    d.Describes index (describeRecord index s).1 ∧
      s.Discussed (describeRecord index s).2 (d.turnsOf index) := by
  cases hr : d.records[index.toNat]? with
  | none =>
    rw [Recorder.turnsOf, hr] at h ⊢
    obtain ⟨s', hselect, -, hasked⟩ := perform_selectRecord_of_expects h rfl rfl
    have hend : describeRecord index s = (.error (Report.noRecord index), s') := by
      rw [describeRecord, hselect]
      rfl
    rw [hend]
    exact ⟨.missing (List.getElem?_eq_none_iff.mp hr), hasked.discussed⟩
  | some r =>
    rw [Recorder.turnsOf, hr] at h ⊢
    obtain ⟨s', hselect, hrest, hasked⟩ := perform_selectRecord_of_expects h rfl rfl
    obtain ⟨s'', hread, -, hasked'⟩ := perform_readInfo_of_expects index hrest
    have hend := describeRecord_of_selected hselect
    rw [hread] at hend
    have hdiscussed : s.Discussed (describeRecord index s).2 [r.selection index, r.description] := by
      rw [hend.2]
      exact hasked.discussed.trans hasked'.discussed
    have hthere : index.toNat < d.records.length := (List.getElem?_eq_some_iff.mp hr).1
    have htold : d.flight? index
        = ((r.description.reply s'.nextSequence).flight index).toOption := by
      rw [Recorder.flight?, hr, r.toOption_flight_reply]
      rfl
    refine ⟨?_, hdiscussed⟩
    rw [hend.1]
    cases hresult : (r.description.reply s'.nextSequence).flight index with
    | ok flight =>
      rw [hresult] at htold
      exact .described htold
    | error failure =>
      rw [hresult] at htold
      exact .unreadable failure hthere htold

/-! ## All records -/

/-- There are no more flights than numbers. -/
theorem Recorder.length_flights_le (d : Recorder) : d.flights.length ≤ recordCount := by
  have hread := List.length_filterMap_le (fun item => item.1.flight? (UInt8.ofNat item.2))
    ((d.records.take recordCount).zipIdx 0)
  rw [List.length_zipIdx, List.length_take] at hread
  exact Nat.le_trans hread (Nat.min_le_left _ _)

/-- A list with room for every number takes the flights of all records, and the device is asked for
nothing else. -/
theorem exists_listRecords_of_prepared {d : Recorder} {capacity : Nat}
    (hcapacity : recordCount ≤ capacity) {s : Session}
    (h : s.Prepared (d.turns (.empty capacity))) :
    ∃ list s', listRecords (.empty capacity) s = (.ok (), list, s') ∧ list.flights = d.flights ∧
      s.Discussed s' (d.turns (.empty capacity)) := by
  obtain ⟨list, s', hlist, -, hflights, hturns⟩ :=
    listFrom_of_prepared (Nat.le_refl recordCount) (h.reportRange listRange)
  refine ⟨list, s', hlist, ?_, (Session.Discussed.reportRange s listRange).trans hturns⟩
  have hall : list.flights = [] ++ d.flights.take capacity := by
    rw [Nat.sub_self] at hflights
    exact hflights
  rw [hall, List.nil_append, List.take_of_length_le (Nat.le_trans d.length_flights_le hcapacity)]

/-! ## Agreement -/

/-- The link takes the requests of a dialogue, its answers come in time, and nothing that was received
before answers the first of them. -/
structure Session.Served (s : Session) (turns : List Turn) : Prop where
  link : s.outgoing.Takes (requestBytes s.nextSequence turns).length
  stale : ∀ verdict ∈ s.decoder.ready, ∀ reply, ¬ verdict.Answers s.nextSequence reply
  arrive : ArriveInTime s.settings.controlTimeout s.clock (answersOf s.nextSequence turns)
    (timedBytes s.clock s.incoming)

theorem Session.Served.expects {s : Session} {turns : List Turn} (h : s.Served turns)
    (hfits : ∀ t ∈ turns, t.Fits) : s.Expects turns :=
  .of_arriveInTime h.link hfits h.stale h.arrive

/--
**The listing and the command for a single record agree on every record.**

Two sessions with a device that holds the same descriptions may count their requests from anywhere,
and the device may number its answers as it likes. The flight that a listing with room for all puts
on the list under a number is the one that is read when the record is asked for alone. A number
without a record is reported as such, and a record is reported to be unreadable exactly if it is
there and the listing has left it out. Both make the requests that read the records in their turns,
and nothing is sent but the bytes of these.
-/
theorem listing_agrees_with_description {d d' : Recorder} {capacity : Nat} {index : UInt8}
    {s t : Session} (hd : d.Fits) (hd' : d'.Fits)
    (hinfo : d'.records.map StoredRecord.info = d.records.map StoredRecord.info)
    (hcapacity : recordCount ≤ capacity) (hpatient : s.observer.Patient)
    (hlisting : s.Served (d.turns (.empty capacity))) (hsingle : t.Served (d'.turnsOf index)) :
    ∃ list s', listRecords (.empty capacity) s = (.ok (), list, s') ∧
      (∀ flight, (flight ∈ list.flights ∧ flight.index = index) ↔
        (describeRecord index t).1 = .ok flight) ∧
      ((describeRecord index t).1 = .error (Report.noRecord index) ↔
        d.records.length ≤ index.toNat) ∧
      ((∃ failure, (describeRecord index t).1 = .error (Report.unreadableInfo index failure)) ↔
        index.toNat < d.records.length ∧ ∀ flight ∈ list.flights, flight.index ≠ index) ∧
      (issuedRequests s'.history
          = issuedRequests s.history ++ requestsOf s.nextSequence (d.turns (.empty capacity)) ∧
        sentBytes s'.history
          = sentBytes s.history ++ requestBytes s.nextSequence (d.turns (.empty capacity))) ∧
      issuedRequests (describeRecord index t).2.history
          = issuedRequests t.history ++ requestsOf t.nextSequence (d'.turnsOf index) ∧
        sentBytes (describeRecord index t).2.history
          = sentBytes t.history ++ requestBytes t.nextSequence (d'.turnsOf index) := by
  have hprepared : s.Prepared (d.turns (.empty capacity)) :=
    ⟨hlisting.expects fun _ ht => d.fits_of_mem_listingTurns hd.1 hd.2 ht, hpatient⟩
  obtain ⟨list, s', hlist, hflights, hlisted⟩ :=
    exists_listRecords_of_prepared hcapacity hprepared
  obtain ⟨hdescribes, hread⟩ :=
    describes_of_expects (hsingle.expects fun _ ht => Recorder.fits_of_mem_turnsOf hd' ht)
  have hflight : d'.flight? index = d.flight? index := Recorder.flight?_congr hinfo index
  have hlength : d'.records.length = d.records.length := by
    have hlengths := congrArg List.length hinfo
    rwa [List.length_map, List.length_map] at hlengths
  have hleftOut : d.flight? index = none ↔ ∀ flight ∈ list.flights, flight.index ≠ index := by
    rw [hflights, Option.eq_none_iff_forall_ne_some]
    constructor
    · intro hnone flight hmem hindex
      exact hnone flight (Recorder.mem_flights_iff.mp ⟨hmem, hindex⟩)
    · intro hother flight hsome
      obtain ⟨hmem, hindex⟩ := Recorder.mem_flights_iff.mpr hsome
      exact hother flight hmem hindex
  refine ⟨list, s', hlist, fun flight => ?_, ?_, ?_, ⟨hlisted.issued, hlisted.sent⟩, hread.issued,
    hread.sent⟩
  · rw [hdescribes.eq_ok_iff, hflight, hflights]
    exact Recorder.mem_flights_iff
  · rw [hdescribes.eq_noRecord_iff, hlength]
  · rw [hdescribes.eq_unreadableInfo_iff, hlength, hflight, hleftOut]

/-- A session whose next request has this number. The answers of a dialogue are on their way, each
one just in time. -/
def sessionAwaiting (sequence : UInt16) (turns : List Turn) : Session where
  clock := 10
  incoming := oneByOne ((answersOf sequence turns).map fun f => (defaultControlTimeout, f))
  outgoing := .unlimited
  storage := .empty
  settings := .standard
  decoder := { state := .within .header true #[9], ready := [.refused .strayStart] }
  nextSequence := sequence
  observer := .patient
  journal := []

theorem served_sessionAwaiting (sequence : UInt16) (turns : List Turn) :
    (sessionAwaiting sequence turns).Served turns where
  link := ⟨(fun h => by cases h), trivial⟩
  stale := by
    intro verdict hverdict
    rw [← Verdict.reply?_eq_none_iff, List.mem_singleton.mp hverdict]
    rfl
  arrive := by
    let frames := (answersOf sequence turns).map fun f => (defaultControlTimeout, f)
    have hframes : frames.map Prod.snd = answersOf sequence turns := by
      rw [List.map_map]
      exact List.map_id _
    have harrive : ArriveInTime defaultControlTimeout 10 (frames.map Prod.snd)
        (timedBytes 10 (oneByOne frames)) := by
      apply arriveInTime_oneByOne
      intro item hitem
      obtain ⟨f, -, rfl⟩ := List.mem_map.mp hitem
      exact Nat.le_refl defaultControlTimeout
    rw [hframes] at harrive
    exact harrive

/-- The same device as `recorderWithGaps` on another day: it numbers its answers differently, says
something else when a record is selected, and its descriptions are the same. -/
def recorderAnotherDay : Recorder where
  records := recorderWithGaps.records.map fun r =>
    { r with ownSelection := r.ownSelection + 100, greeting := [7, 7], text := r.info, nulls := 0 }
  ownRefusal := 200
  excuse := [1]

/-- Record 3 is listed and can be read alone; record 1 has no description, so the listing leaves it
out, and it cannot be read alone. -/
theorem listing_agrees_with_description_of_gaps :
    let alone := fun index => (describeRecord index
      (sessionAwaiting 7 (recorderAnotherDay.turnsOf index))).1
    ∃ list s', listRecords (.empty recordCount)
        (sessionAwaiting 65533 (recorderWithGaps.turns (.empty recordCount))) = (.ok (), list, s') ∧
      (∃ flight ∈ list.flights, flight.index = 3 ∧ alone 3 = .ok flight) ∧
      alone 1 = .error (Report.unreadableInfo 1 (.insufficientData 3 2)) ∧
      (∀ flight ∈ list.flights, flight.index ≠ 1) ∧
      (issuedRequests s'.history).length = 11 ∧ (sentBytes s'.history).length = 105 := by
  intro alone
  have hinfo : recorderAnotherDay.records.map StoredRecord.info
      = recorderWithGaps.records.map StoredRecord.info := by decide +kernel
  obtain ⟨list, s', hlist, hread, -, -, ⟨hissued, hsent⟩, -, -⟩ :=
    listing_agrees_with_description (by decide) (by decide) hinfo (Nat.le_refl recordCount)
      (fun _ _ => rfl)
      (served_sessionAwaiting 65533 (recorderWithGaps.turns (.empty recordCount)))
      (served_sessionAwaiting 7 (recorderAnotherDay.turnsOf 3))
  obtain ⟨list', s'', hlist', -, -, hleftOut, -, -, -⟩ :=
    listing_agrees_with_description (by decide) (by decide) hinfo (Nat.le_refl recordCount)
      (fun _ _ => rfl)
      (served_sessionAwaiting 65533 (recorderWithGaps.turns (.empty recordCount)))
      (served_sessionAwaiting 7 (recorderAnotherDay.turnsOf 1))
  have hunreadable : alone 1 = .error (Report.unreadableInfo 1 (.insufficientData 3 2)) := by
    have hreport : (match alone 1 with | .ok _ => none | .error report => some report)
        = some (Report.unreadableInfo 1 (.insufficientData 3 2)) := by decide +kernel
    cases halone : alone 1 with
    | ok flight =>
      rw [halone] at hreport
      cases hreport
    | error report =>
      rw [halone] at hreport
      exact congrArg Except.error (Option.some.inj hreport)
  have hsame : list' = list := by
    rw [hlist] at hlist'
    cases hlist'
    rfl
  refine ⟨list, s', hlist, ?_, hunreadable, ?_, ?_, ?_⟩
  · have hdescribed : (alone 3).toOption.isSome := by decide +kernel
    cases halone : alone 3 with
    | error report =>
      rw [halone] at hdescribed
      cases hdescribed
    | ok flight =>
      obtain ⟨hmem, hindex⟩ := (hread flight).mpr halone
      exact ⟨flight, hmem, hindex, rfl⟩
  · rw [← hsame]
    exact (hleftOut.mp ⟨_, hunreadable⟩).2
  · rw [hissued]
    decide +kernel
  · rw [hsent]
    decide +kernel

end FlightRecorder
