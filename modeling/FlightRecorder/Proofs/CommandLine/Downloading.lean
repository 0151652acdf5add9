import FlightRecorder.Proofs.CommandLine.Describing
import FlightRecorder.Proofs.Device.Agenda
import FlightRecorder.Proofs.Device.Cancellation
import FlightRecorder.Proofs.Device.Inventory
import FlightRecorder.Proofs.Device.Rollback
import Mathlib.Data.List.Infix

/-!
# The command that downloads a record

The command reads the description of the record first, which selects it, and then downloads it, which
selects it once more. Where this ends depends on every exchange. However it ends, the device was asked
a front of one list of requests, and the tree of files is in one of three states: as it was, with the
whole record, or with nothing in the place of the file.

* `descriptionAgenda`, `downloadAgenda` — what the command asks
* `DescriptionOutcome`, `describeRecord_outcome` — the ends of the reading of the description
* `not_cancelled_of_patient` — an observer who never stops an operation
* `download_from_command_line` — the whole command
-/

namespace FlightRecorder

open Session

/-! ## What is asked -/

/-- What the reading of a single record asks. -/
def descriptionAgenda (index : UInt8) : Agenda := [(.selectRecord, [index]), (.getRecordInfo, [])]

/-- What the command for a download asks if it asks for so many pieces of content. -/
def downloadAgenda (index : UInt8) (pieces : Nat) : Agenda :=
  descriptionAgenda index
    ++ (.selectRecord, [index]) :: List.replicate pieces (.getIgcData, [])

theorem length_le_of_mem_descriptionAgenda (index : UInt8) :
    ∀ item ∈ descriptionAgenda index, item.2.length ≤ maxPayloadSize := by
  intro item hmem
  rcases List.mem_cons.mp hmem with rfl | hmem
  · exact length_singleton_le index
  · rw [List.mem_singleton.mp hmem]
    exact Nat.zero_le _

theorem length_le_of_mem_downloadAgenda (index : UInt8) (pieces : Nat) :
    ∀ item ∈ downloadAgenda index pieces, item.2.length ≤ maxPayloadSize := by
  intro item hmem
  rcases List.mem_append.mp hmem with hmem | hmem
  · exact length_le_of_mem_descriptionAgenda index item hmem
  · rcases List.mem_cons.mp hmem with rfl | hmem
    · exact length_singleton_le index
    · rw [(List.mem_replicate.mp hmem).2]
      exact Nat.zero_le _

/-- **From its beginning on, a connection has seen a front of what was going to be asked**: the
requests that were issued, the bytes that the link took, and the requests that the device has read. -/
theorem Session.KeepsTo.prefixes {ε α : Type} {s : Session} {agenda : Agenda}
    {ending : Except ε α × Session} (h : s.KeepsTo agenda ending) (hnew : s.history = [])
    (hsize : ∀ item ∈ agenda, item.2.length ≤ maxPayloadSize) :
    issuedRequests ending.2.history <+: numbered s.nextSequence agenda ∧
      sentBytes ending.2.history <+: (numbered s.nextSequence agenda).flatMap Frame.encode ∧
      acceptedFrames (peerVerdicts ending.2) <+: numbered s.nextSequence agenda := by
  obtain ⟨asked, taken, h⟩ := h
  obtain ⟨events, heq, hissued, htaken⟩ := h.said
  rw [hnew, List.nil_append] at heq
  have hsent : taken <+: (numbered s.nextSequence agenda).flatMap Frame.encode :=
    h.sent.trans (h.front.flatMap _)
  rw [peerVerdicts, heq, hissued, htaken]
  exact ⟨h.front, hsent, acceptedFrames_run_of_prefix (consistent_of_mem_numbered hsize) hsent .idle⟩

/-! ## The description -/

/-- How the reading of a single record ends, with the steps that lead there. -/
inductive DescriptionOutcome (index : UInt8) (s : Session) : Except Report Flight × Session → Prop
  /-- The selection was not answered. -/
  | unselected {s' : Session} {failure : Failure} (report : Report)
      (hselect : (selectRecord index).perform s = (.error failure, s')) :
      DescriptionOutcome index s (.error report, s')
  /-- The selection was refused. -/
  | refused {s' : Session} {type : MessageType} (report : Report)
      (hselect : (selectRecord index).perform s = (.ok type, s')) :
      DescriptionOutcome index s (.error report, s')
  | unreadable {selected s' : Session} {failure : Failure} (report : Report)
      (hselect : (selectRecord index).perform s = (.ok .ack, selected))
      (hread : (readInfo index).perform selected = (.error failure, s')) :
      DescriptionOutcome index s (.error report, s')
  | described {selected s' : Session} {flight : Flight}
      (hselect : (selectRecord index).perform s = (.ok .ack, selected))
      (hread : (readInfo index).perform selected = (.ok flight, s')) :
      DescriptionOutcome index s (.ok flight, s')

theorem describeRecord_outcome (index : UInt8) (s : Session) :
    DescriptionOutcome index s (describeRecord index s) := by
  rw [describeRecord]
  rcases hselect : (selectRecord index).perform s with ⟨failure | type, selected⟩
  · exact .unselected _ hselect
  · dsimp only
    split
    · next htype =>
      subst htype
      rcases hread : (readInfo index).perform selected with ⟨failure | flight, s'⟩
      · exact .unreadable _ hselect hread
      · exact .described hselect hread
    · split
      · exact .refused _ hselect
      · exact .refused _ hselect

namespace DescriptionOutcome

variable {index : UInt8} {s s' : Session} {ending : Except Report Flight × Session} {flight : Flight}

/-- **The reading of a single record asks two requests.** -/
theorem keepsTo (h : DescriptionOutcome index s ending) :
    s.KeepsTo (descriptionAgenda index) ending := by
  have hselection := keepsTo_selectRecord index s
  cases h with
  | unselected report hselect =>
    rw [hselect] at hselection
    exact hselection.failed [(.getRecordInfo, [])]
  | @refused s' _ report hselect =>
    rw [hselect] at hselection
    have hnothing : s'.KeepsTo [] ((.error report, s') : Except Report Flight × Session) :=
      .of_aside (.refl s')
    exact hselection.goOn (hnothing.failed [(.getRecordInfo, [])])
  | @unreadable selected s' _ report hselect hread =>
    have hinfo := keepsTo_readInfo index selected
    rw [hread] at hinfo
    rw [hselect] at hselection
    exact hselection.goOn (hinfo.failed [])
  | @described selected s' flight hselect hread =>
    have hinfo := keepsTo_readInfo index selected
    rw [hread] at hinfo
    rw [hselect] at hselection
    have hdescribed : selected.KeepsTo [(.getRecordInfo, [])]
        ((.ok flight, s') : Except Report Flight × Session) := hinfo.then_aside (.refl s')
    exact hselection.goOn hdescribed

theorem leads {R : Session → Session → Prop} (h : DescriptionOutcome index s ending)
    (hrefl : ∀ s, R s s) (htrans : ∀ {s s' s''}, R s s' → R s' s'' → R s s'')
    (hexchange : ∀ type payload timeout, (exchange type payload timeout).Leads R) : R s ending.2 := by
  have hselection : (selectRecord index).Leads R :=
    .bind htrans (hexchange _ _ _) fun _ => Action.leads_pure hrefl _
  have hinfo : (readInfo index).Leads R :=
    .bind htrans (hexchange _ _ _) fun _ => Action.leads_ofResult hrefl _
  cases h with
  | unselected report hselect => exact hselection.of_perform hselect
  | refused report hselect => exact hselection.of_perform hselect
  | unreadable report hselect hread =>
    exact htrans (hselection.of_perform hselect) (hinfo.of_perform hread)
  | described hselect hread =>
    exact htrans (hselection.of_perform hselect) (hinfo.of_perform hread)

theorem talked (h : DescriptionOutcome index s ending) : s.Talked ending.2 :=
  h.leads Talked.refl Talked.trans leads_talked_exchange

theorem observer_eq (h : DescriptionOutcome index s ending) : ending.2.observer = s.observer :=
  h.leads (R := fun s s' => s'.observer = s.observer) (fun _ => rfl) (fun h h' => h'.trans h)
    leads_observer_exchange

/-- **The flight that is read is the one that the answer describes.** -/
theorem exists_answered (h : DescriptionOutcome index s (.ok flight, s')) :
    ∃ selection info, s.Answered s' [(.build s.nextSequence .selectRecord [index], selection),
        (.build (s.nextSequence + 1) .getRecordInfo [], info)] ∧
      info.flight index = .ok flight := by
  cases h with
  | @described selected _ _ hselect hread =>
    have hselection := keepsTo_selectRecord index s
    rw [hselect] at hselection
    obtain ⟨selection, asked, hexchange, hdone⟩ := Action.exists_of_perform_bind_eq_ok hselect
    rw [Action.perform_pure, Prod.mk.injEq] at hdone
    obtain ⟨-, rfl⟩ := hdone
    obtain ⟨info, read, hexchange', hdone⟩ := Action.exists_of_perform_bind_eq_ok hread
    rw [Action.ofResult, Action.perform_ofPerform, Prod.mk.injEq] at hdone
    obtain ⟨hflight, rfl⟩ := hdone
    obtain ⟨_, _, hpursued⟩ := hselection
    have hnumber : asked.nextSequence = s.nextSequence + 1 := (hpursued.whole _ rfl).2.2.2
    have hinfo := answered_exchange hexchange'
    rw [hnumber] at hinfo
    exact ⟨selection, info, (answered_exchange hexchange).trans hinfo, hflight⟩

end DescriptionOutcome

/-! ## Observers who never stop an operation -/

theorem Observer.Patient.behind {o : Observer} (h : o.Patient) (events : List Event) :
    (o.behind events).Patient := by
  refine List.foldlRecOn events Observer.seeing (motive := Observer.Patient) h ?_
  intro o ho event _
  cases event <;> exact ho

/-- **An operation is not cancelled behind the back of its observer.** -/
theorem not_cancelled_of_patient {s : Session} (h : s.observer.Patient) (op : LongOperation) :
    (op.operation.perform s).1.failure? ≠ some .cancelled := by
  intro hstopped
  obtain ⟨c, ⟨events, heq, hbehind⟩, hstop⟩ := op.goes s
  rw [hstop.mp hstopped] at hbehind
  have hpolled : .polled true ∈ events := Consent.polled_true_mem (fun h => by cases h) hbehind
  obtain ⟨before, after, hcut⟩ := List.append_of_mem hpolled
  have hrecorded := (op.operation.composed.recorded s).stretch
  rw [stretch_eq heq] at hrecorded
  have hanswer := hrecorded.answered before true after hcut
  rw [Observer.answer, h.behind before] at hanswer
  cases hanswer

theorem download_not_cancelled {s : Session} (h : s.observer.Patient) (flight : Flight)
    (path : String) : ((download flight path).perform s).1 ≠ .error .cancelled := by
  intro hstopped
  refine not_cancelled_of_patient h (.download flight path) ?_
  exact (Outcome.failure?_done _).mpr hstopped

/-! ## The command -/

/-- A program without a log file on an open serial port is its command. -/
theorem Program.execute_eq {words : List String} {arguments : Arguments}
    (hparse : Arguments.parse words = .ok arguments) (hlog : arguments.logFile = none)
    (s : Session) :
    execute words none s
      = (exitOf (arguments.command.run { s with settings := settings arguments }).1,
        (arguments.command.run { s with settings := settings arguments }).2) := by
  rw [execute, hparse]
  dsimp only
  rw [hlog]
  rfl

section Run

variable {index : UInt8} {output : Option String} {s described : Session} {report : Report}
  {flight : Flight}

theorem run_download_of_failed (h : describeRecord index s = (.error report, described)) :
    (Command.download index output).run s = (.error report, described) := by
  rw [Command.run, h]

/-- What the command reports of the download of a record that it has described. -/
def downloadReport (index : UInt8) (path : String) : Except Failure Unit → CommandResult
  | .error failure =>
    .error ((Report.ofFailure failure).within s!"Failed to download record #{index.toNat}")
  | .ok () => .ok ["Saved " ++ path]

theorem run_download_of_described (h : describeRecord index s = (.ok flight, described)) :
    (Command.download index output).run s
      = (downloadReport index (output.getD flight.defaultFileName)
          ((download flight (output.getD flight.defaultFileName)).perform described).1,
        ((download flight (output.getD flight.defaultFileName)).perform described).2) := by
  rw [Command.run, h]
  dsimp only
  rw [Action.reporting]
  rcases (download flight (output.getD flight.defaultFileName)).perform described with ⟨_ | _, s'⟩
  · rfl
  · rfl

theorem code_downloadReport_eq_zero_iff (path : String) (result : Except Failure Unit) :
    (Program.exitOf (downloadReport index path result)).code = 0 ↔ result = .ok () := by
  cases result <;> simp [downloadReport, Program.exitOf]

/-- **The command asks for the description, selects the record again and asks for content.** -/
theorem keepsTo_run_download (index : UInt8) (output : Option String) (s : Session) :
    ∃ pieces, s.KeepsTo (downloadAgenda index pieces) ((Command.download index output).run s) := by
  have houtcome := describeRecord_outcome index s
  rcases hdescribe : describeRecord index s with ⟨report | flight, described⟩
  · rw [hdescribe] at houtcome
    rw [run_download_of_failed hdescribe]
    exact ⟨0, houtcome.keepsTo.failed _⟩
  · rw [hdescribe] at houtcome
    obtain ⟨selection, info, -, hflight⟩ := houtcome.exists_answered
    have hindex : flight.index = index :=
      Flight.index_of_parseInfo? (Reply.flight_eq_ok_iff.mp hflight).2.2
    obtain ⟨_, ⟨pieces, rfl⟩, hdownload⟩ :=
      keepsTo_download flight (output.getD flight.defaultFileName) described
    rw [hindex] at hdownload
    refine ⟨pieces, ?_⟩
    rw [run_download_of_described hdescribe]
    have hall := houtcome.keepsTo.goOn hdownload
    generalize (download flight (output.getD flight.defaultFileName)).perform described = ending
      at hall
    obtain ⟨failure | _, s'⟩ := ending
    · exact List.append_nil (downloadAgenda index pieces) ▸ hall.failed []
    · exact hall.then_aside (.refl s')

end Run

/-- The reading of a single record asks for no content. -/
theorem messageType_ne_getIgcData {sequence : UInt16} {index : UInt8} :
    ∀ request ∈ numbered sequence (descriptionAgenda index), request.messageType ≠ .getIgcData := by
  intro request hmem
  rcases List.mem_cons.mp hmem with rfl | hmem
  · exact fun hcontent => by cases hcontent
  · rw [List.mem_singleton.mp hmem]
    exact fun hcontent => by cases hcontent

/-! ## From the beginning of a connection -/

section Beginning

variable {s described s' : Session} {rest : List Event}

/-- What was answered first is in front of everything that was answered. -/
theorem Session.Answered.answers_append {given : List (Frame × Reply)}
    (h : s.Answered described given) (hnew : s.history = []) :
    answers (described.history ++ rest) = given ++ answers rest := by
  obtain ⟨events, heq, hgiven⟩ := h
  rw [heq, hnew, List.nil_append, answers, hgiven]
  rfl

theorem Session.Answered.contentReplies_append {given : List (Frame × Reply)}
    (h : s.Answered described given) (hnew : s.history = [])
    (hcontrol : ∀ answer ∈ given, answer.1.messageType ≠ .getIgcData) :
    contentReplies (described.history ++ rest) = contentReplies rest := by
  have hnone : given.filterMap contentReply? = [] :=
    List.filterMap_eq_nil_iff.mpr fun answer hmem => if_neg (hcontrol answer hmem)
  rw [contentReplies_of_answers_eq (h.answers_append hnew), hnone, List.nil_append]

/-- A file is created behind what only talks. -/
theorem Session.Talked.created_mem_append_iff (h : s.Talked described) (hnew : s.history = [])
    (place : Place) :
    .created place ∈ described.history ++ rest ↔ .created place ∈ rest := by
  obtain ⟨events, heq, hnone⟩ := h.adds
  have hfront : .created place ∉ described.history := by
    rw [heq, hnew, List.nil_append]
    exact fun hmem => hnone _ hmem place rfl
  rw [List.mem_append]
  exact or_iff_right hfront

/-- **Behind the reading of a description**, the history still tells what answered it, and the
content is what was answered since. -/
theorem DescriptionOutcome.exists_info {index : UInt8} {flight : Flight}
    (h : DescriptionOutcome index s (.ok flight, described)) (hnew : s.history = []) :
    ∃ info, info.flight index = .ok flight ∧ ∀ rest,
      (.build (s.nextSequence + 1) .getRecordInfo [], info)
          ∈ answers (described.history ++ rest) ∧
        contentReplies (described.history ++ rest) = contentReplies rest := by
  obtain ⟨selection, info, hanswered, hflight⟩ := h.exists_answered
  have hcontrol : ∀ answer ∈ [(Frame.build s.nextSequence .selectRecord [index], selection),
      (.build (s.nextSequence + 1) .getRecordInfo [], info)],
      answer.1.messageType ≠ .getIgcData :=
    fun answer hmem => messageType_ne_getIgcData answer.1 (List.mem_map_of_mem hmem)
  refine ⟨info, hflight, fun rest => ⟨?_, hanswered.contentReplies_append hnew hcontrol⟩⟩
  rw [hanswered.answers_append hnew]
  exact List.mem_append_left _ (List.mem_cons_of_mem _ List.mem_cons_self)

end Beginning

/--
**The command that downloads a record asks for what it should and leaves the whole record or none.**

Whatever index and path the command line gives, whatever timeouts it sets, whatever there is on the
link and among the files: without a log file and without anybody who cancels it, the requests that
go out are a front of the same list, and so are those that the device can read. If the description of
the record cannot be read, nothing is asked behind it and no file is touched. Otherwise it is a
flight as the device describes it, and the path is the given one or the name that this flight gives.
If the program succeeds, the path holds the data of all pieces, up to the first one with the end
mark; if it fails behind the creation of the file, nothing is left there; if it fails before, the
files are as they were. No other place changes.
-/
theorem download_from_command_line {words : List String} {arguments : Arguments} {index : UInt8}
    {output : Option String} (hparse : Arguments.parse words = .ok arguments)
    (hcommand : arguments.command = .download index output) (hlog : arguments.logFile = none)
    (incoming : List Arrival) (outgoing : Outgoing) (storage : Storage) :
    let connected := Session.start (Program.settings arguments) incoming outgoing storage
    let described := (describeRecord index connected).1
    let ending := Program.execute words none (.start .standard incoming outgoing storage)
    let code := ending.1.code
    let files := ending.2.storage
    let events := ending.2.history
    (∃ pieces,
      issuedRequests events <+: numbered 0 (downloadAgenda index pieces) ∧
      sentBytes events <+: (numbered 0 (downloadAgenda index pieces)).flatMap Frame.encode ∧
      acceptedFrames (peerVerdicts ending.2) <+: numbered 0 (downloadAgenda index pieces)) ∧
    (∀ report, described = .error report →
      ending.1 = Program.exitOf (.error report) ∧ files = storage ∧
      sentBytes events <+: (numbered 0 (descriptionAgenda index)).flatMap Frame.encode ∧
      ∀ request ∈ issuedRequests events, request.messageType ≠ .getIgcData) ∧
    (∀ flight, described = .ok flight →
      let path := output.getD flight.defaultFileName
      (∃ info, (.build 1 .getRecordInfo [], info) ∈ answers events ∧ info.type = .ack ∧
        Flight.parseInfo? (trimNulls (decodeText info.data)) index = some flight) ∧
      (code = 0 → ∃ inner last,
        (contentReplies events).map Reply.chunk = (inner ++ [last]).map Except.ok ∧
        (∀ chunk ∈ inner, chunk.isLast = false) ∧ last.isLast = true ∧
        files.content? path = some ((inner ++ [last]).flatMap Chunk.data)) ∧
      (code ≠ 0 → ∀ place, .created place ∈ events →
        files.locate path = .ok place ∧ files.get? place = none ∧ files.content? path = none) ∧
      (code ≠ 0 → (∀ place, .created place ∉ events) → files = storage) ∧
      ∀ other, storage.locate path ≠ .ok other → files.get? other = storage.get? other) := by
  intro connected described ending code files events
  let run := (Command.download index output).run connected
  have hending : ending = (Program.exitOf run.1, run.2) := by
    have hexecute := Program.execute_eq hparse hlog (.start .standard incoming outgoing storage)
    rw [hcommand] at hexecute
    exact hexecute
  have hcode : code = (Program.exitOf run.1).code := congrArg (·.1.code) hending
  have hfiles : files = run.2.storage := congrArg (·.2.storage) hending
  have hevents : events = run.2.history := congrArg (·.2.history) hending
  have houtcome := describeRecord_outcome index connected
  refine ⟨?_, fun report hreport => ?_, fun flight hflight => ?_⟩
  · obtain ⟨pieces, hkeeps⟩ := keepsTo_run_download index output connected
    refine ⟨pieces, ?_⟩
    rw [hevents, hending]
    exact hkeeps.prefixes rfl (length_le_of_mem_downloadAgenda index pieces)
  · obtain ⟨s', hdescribe⟩ : ∃ s', describeRecord index connected = (.error report, s') :=
      ⟨_, Prod.ext hreport rfl⟩
    have hrun : run = (.error report, s') := run_download_of_failed hdescribe
    rw [hdescribe] at houtcome
    obtain ⟨hissued, hsent, -⟩ :=
      houtcome.keepsTo.prefixes rfl (length_le_of_mem_descriptionAgenda index)
    rw [hending, hfiles, hevents, hrun]
    exact ⟨rfl, houtcome.talked.storage, hsent, fun request hmem =>
      messageType_ne_getIgcData request (hissued.subset hmem)⟩
  · obtain ⟨s', hdescribe⟩ : ∃ s', describeRecord index connected = (.ok flight, s') :=
      ⟨_, Prod.ext hflight rfl⟩
    rw [hdescribe] at houtcome
    let path := output.getD flight.defaultFileName
    let loaded := (download flight path).perform s'
    have hrun : run = (downloadReport index path loaded.1, loaded.2) :=
      run_download_of_described hdescribe
    have hsucceeded : code = 0 ↔ loaded.1 = .ok () := by
      rw [hcode, hrun]
      exact code_downloadReport_eq_zero_iff path loaded.1
    have hbehind : loaded.2.history = s'.history ++ s'.stretch loaded.2 :=
      ((straight_download flight path).composed.recorded s').stretch.history
    have hall : events = s'.history ++ s'.stretch loaded.2 := by
      rw [hevents, hrun]
      exact hbehind
    have hleft : files = loaded.2.storage := by rw [hfiles, hrun]
    have hstorage : s'.storage = storage := houtcome.talked.storage
    have hpatient : s'.observer.Patient := by
      rw [houtcome.observer_eq]
      exact fun _ _ => rfl
    have hdownload : DownloadOutcome path s' (loaded.1, loaded.2) := download_outcome flight path s'
    have hcreated : ∀ place, .created place ∈ events ↔ .created place ∈ s'.stretch loaded.2 := by
      intro place
      rw [hall]
      exact houtcome.talked.created_mem_append_iff rfl place
    obtain ⟨info, hinfo, hrest⟩ := houtcome.exists_info rfl
    obtain ⟨hmem, hreplies⟩ := hrest (s'.stretch loaded.2)
    obtain ⟨htype, -, hparsed⟩ := Reply.flight_eq_ok_iff.mp hinfo
    refine ⟨⟨info, hall ▸ hmem, htype, hparsed⟩, fun hok => ?_, fun hfailed place hmem => ?_,
      fun hfailed hnone => ?_, fun other hother => ?_⟩
    · rw [hall, hreplies, hleft]
      rw [hsucceeded.mp hok] at hdownload
      exact hdownload.written
    · rw [hleft]
      exact hdownload.gone (mt hsucceeded.mpr hfailed) ((hcreated place).mp hmem)
    · rw [hleft, ← hstorage]
      have hunmade : ∀ place, .created place ∉ s'.stretch loaded.2 :=
        fun place => mt (hcreated place).mpr (hnone place)
      exact hdownload.untouched (mt hsucceeded.mpr hfailed)
        (download_not_cancelled hpatient flight path) hunmade
    · rw [hleft, ← hstorage]
      rw [← hstorage] at hother
      exact hdownload.elsewhere hother

/-- The words that ask for record 4 without a path. -/
def wordsForRecord : List String := ["-p", "/dev/ttyUSB0", "download", "4"]

/-- The answers of a device to the command for record 4, which comes in two pieces. -/
def answersForRecord : List Arrival :=
  [.data (Frame.reply 1 .ack 0 []).encode,
    .data (Frame.reply 2 .ack 1
      (letters "18CG6NG1.IGC|2011-08-12|12:23:48|02:03:25|T|TH|Club")).encode,
    .silence 20, .data (Frame.reply 3 .ack 2 []).encode,
    .data (Frame.reply 4 .ack 3 [50, 65, 66]).encode,
    .data (Frame.reply 5 .ack 4 [200, 67, endOfContent]).encode]

/-- The record is in the file that its flight names, beside the older ones. A device without the
record leaves these alone. -/
theorem download_from_command_line_under_name_of_flight :
    let answered := Program.execute wordsForRecord none
      (.start .standard answersForRecord .unlimited olderRecords)
    let refused := Program.execute wordsForRecord none
      (.start .standard [.data (Frame.reply 1 .nack 0 []).encode] .unlimited olderRecords)
    (∃ arguments, Arguments.parse wordsForRecord = .ok arguments ∧
      arguments.command = .download 4 none ∧ arguments.logFile = none) ∧
    answered.1.code = 0 ∧ answered.2.storage.content? "2011-08-12-4.igc" = some [65, 66, 67] ∧
    answered.2.storage.get? ["other.igc"] = some (.file [9, 9]) ∧
    refused.1 = Program.exitOf (.error (.noRecord 4)) ∧ refused.2.storage = olderRecords := by
  intro answered refused
  let arguments : Arguments :=
    { port := "/dev/ttyUSB0", baud := defaultBaud, controlTimeout := defaultControlTimeout,
      dataTimeout := defaultDataTimeout, logFile := none, level := .info,
      command := .download 4 none }
  have hparse : Arguments.parse wordsForRecord = .ok arguments := by decide +kernel
  obtain ⟨-, -, hdescribed⟩ :=
    download_from_command_line hparse rfl rfl answersForRecord .unlimited olderRecords
  obtain ⟨-, hwritten, -, -, hkept⟩ := hdescribed flightInAugust (by decide +kernel)
  obtain ⟨hcode, hpieces⟩ : answered.1.code = 0 ∧
      (contentReplies answered.2.history).map Reply.chunk
        = [{ progress := 50, data := [65, 66], isLast := false },
            { progress := 100, data := [67], isLast := true }].map Except.ok := by
    decide +kernel
  obtain ⟨inner, last, hreplies, -, -, hcontent⟩ := hwritten hcode
  have hchunks := List.map_inj_right (fun _ _ => Except.ok.inj) |>.mp
    (hreplies.symm.trans hpieces)
  rw [hchunks] at hcontent
  obtain ⟨-, hfailed, -⟩ := download_from_command_line hparse rfl rfl
    [.data (Frame.reply 1 .nack 0 []).encode] .unlimited olderRecords
  obtain ⟨hexit, hfiles, -⟩ := hfailed (.noRecord 4) (by decide +kernel)
  exact ⟨⟨arguments, hparse, rfl, rfl⟩, hcode, hcontent, hkept ["other.igc"] (by decide +kernel),
    hexit, hfiles⟩

end FlightRecorder
