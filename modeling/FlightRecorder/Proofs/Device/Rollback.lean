import FlightRecorder.Proofs.Device.Answers
import FlightRecorder.Proofs.Device.Transfer
import Mathlib.Control.Monad.Basic

/-!
# A download leaves the whole file or none

A download touches one place of the tree, and only from the creation of its file on. While it lasts,
the file holds a front of what has come. If it fails then, nothing is left at that place; if it
succeeds, the file holds what the device sent, up to the piece with the end mark. Before the creation
there is one weak point: an observer who stops the download right before it has the path cleared of
whatever was there.

* `Session.Received`, `Session.Appended` — pieces have come, and were appended to a file
* `TransferOutcome`, `transferFrom_outcome` — the ends of a transfer
* `SelectedOutcome` — the ends of a download of the selected record
* `downloadSelected_leaves_front` — the file behind such a download, if it fails
* `perform_download_cases` — what comes before it
* `DownloadOutcome`, `download_outcome` — the ends of a whole download
* `DownloadOutcome.gone`, `DownloadOutcome.untouched` — the tree behind one that has failed
* `download_all_or_nothing` — the file behind a download
* `download_of_not_created` — a download that fails before it creates its file
-/

namespace FlightRecorder

open Session

/-! ## Pieces that have come -/

/-- The reply to a request, if the request was for content. -/
def contentReply? (answer : Frame × Reply) : Option Reply :=
  if answer.1.messageType = .getIgcData then some answer.2 else none

/-- Where answers come in front of all others, so do those of them that are content. -/
theorem contentReplies_of_answers_eq {history rest : List Event} {given : List (Frame × Reply)}
    (h : answers history = given ++ answers rest) :
    contentReplies history = given.filterMap contentReply? ++ contentReplies rest := by
  rw [contentReplies, h, List.filterMap_append]
  rfl

/-- The answers to requests for content are those in the first part of a stretch, in which every
request was answered, and then those behind it. -/
theorem contentReplies_stretch {s s' s'' : Session} {given : List (Frame × Reply)}
    {P : Event → Prop} (h : s.Answered s' given) (h' : s'.Adds P s'') :
    contentReplies (s.stretch s'')
      = given.filterMap contentReply? ++ contentReplies (s'.stretch s'') := by
  obtain ⟨events, heq, hgiven⟩ := h
  obtain ⟨events', heq', -⟩ := h'
  refine contentReplies_of_answers_eq ?_
  rw [stretch_eq heq', stretch_eq (by rw [heq', heq, List.append_assoc])]
  exact hgiven events'

/-- Between two sessions these pieces have come, one for each request for content, and nothing else
was asked. -/
def Session.Received (s s' : Session) (chunks : List Chunk) : Prop :=
  ∃ given, s.Answered s' given ∧ (given.filterMap contentReply?).map Reply.chunk = chunks.map .ok

namespace Session.Received

variable {s s' s'' : Session} {chunks chunks' : List Chunk}

theorem of_quiet (h : s.Quiet s') : s.Received s' [] := ⟨[], h.answered, rfl⟩

theorem of_nextChunk {chunk : Chunk} (h : nextChunk.perform s = (.ok chunk, s')) :
    s.Received s' [chunk] := by
  obtain ⟨reply, hanswered, hreply⟩ := answered_nextChunk h
  exact ⟨_, hanswered, congrArg (fun result => [result]) hreply⟩

theorem trans (h : s.Received s' chunks) (h' : s'.Received s'' chunks') :
    s.Received s'' (chunks ++ chunks') := by
  obtain ⟨given, hgiven, hchunks⟩ := h
  obtain ⟨given', hgiven', hchunks'⟩ := h'
  refine ⟨given ++ given', hgiven.trans hgiven', ?_⟩
  rw [List.filterMap_append, List.map_append, List.map_append, hchunks, hchunks']

/-- **The pieces that have come are what the requests for content were answered with first.** -/
theorem prefix_contentReplies {P : Event → Prop} (h : s.Received s' chunks) (h' : s'.Adds P s'') :
    chunks.map Except.ok <+: (contentReplies (s.stretch s'')).map Reply.chunk := by
  obtain ⟨given, hgiven, hchunks⟩ := h
  rw [contentReplies_stretch hgiven h', List.map_append, hchunks]
  exact List.prefix_append _ _

/-- **The pieces that have come are what the requests for content were answered with.** -/
theorem contentReplies_eq (h : s.Received s' chunks) :
    (contentReplies (s.stretch s')).map Reply.chunk = chunks.map Except.ok := by
  obtain ⟨given, hgiven, hchunks⟩ := h
  rw [← hchunks, contentReplies_stretch hgiven (.refl Event.IsQuiet s'), List.map_append,
    stretch_eq (List.append_nil _).symm]
  exact List.append_nil _

end Session.Received

/-! ## The transfer -/

/-- A request and a wait do not reach the observer. -/
theorem leads_observer_exchange (type : MessageType) (payload : Bytes) (timeout : Settings → Nat) :
    (exchange type payload timeout).Leads fun s s' => s'.observer = s.observer := by
  refine leads_exchange (R := fun s s' => s'.observer = s.observer) (fun _ => rfl)
    (fun h h' => h'.trans h) (fun _ _ => rfl) (fun bytes duration s => ?_) (fun h => h.observer)
    type payload timeout
  rw [transmit, Action.perform_ofPerform]
  dsimp only
  split
  · split <;> rfl
  all_goals rfl

/-- Asks for the next piece without telling the observer of it. -/
def receiveChunk : Action Chunk := do
  poll
  let reply ← exchange .getIgcData [] (·.dataTimeout)
  poll
  Action.ofResult reply.chunk

theorem nextChunk_eq : nextChunk = (do
    let chunk ← receiveChunk
    reportPosition chunk.progress
    pure chunk) := by
  simp only [nextChunk, receiveChunk, bind_assoc]

theorem leads_positions_receiveChunk :
    receiveChunk.Leads fun s s' => s'.observer.positions = s.observer.positions := by
  have htrans : ∀ {s s' s'' : Session}, s'.observer.positions = s.observer.positions →
      s''.observer.positions = s'.observer.positions →
      s''.observer.positions = s.observer.positions := fun h h' => h'.trans h
  have hpoll : poll.Leads fun s s' => s'.observer.positions = s.observer.positions := by
    intro s
    rw [poll, Action.perform_ofPerform]
    dsimp only
    split <;> rfl
  exact .bind htrans hpoll fun _ =>
    .bind htrans (fun s => congrArg Observer.positions (leads_observer_exchange _ _ _ s)) fun _ =>
      .bind htrans hpoll fun _ _ => rfl

/-- **The position moves with a piece that has come, and with nothing else.** -/
theorem positions_nextChunk {s s' : Session} {result : Except Failure Chunk}
    (h : nextChunk.perform s = (result, s')) :
    s'.observer.positions
      = s.observer.positions ++ (result.toOption.map Chunk.progress).toList := by
  rw [nextChunk_eq, Action.perform_bind] at h
  have hsame := leads_positions_receiveChunk s
  rcases hreceived : receiveChunk.perform s with ⟨failure | chunk, received⟩
  · rw [hreceived] at h hsame
    cases h
    exact hsame.trans (List.append_nil _).symm
  · rw [hreceived] at h hsame
    cases h
    exact congrArg (· ++ [chunk.progress]) hsame

/-- Between two sessions these pieces have come and were appended to the file of a writer, each with
a report of its position. -/
structure Session.Appended (s s' : Session) (w : FileWriter) (chunks : List Chunk) : Prop where
  storage : ∀ tree, s.storage = w.save tree →
    s'.storage = (w.appendAll (chunks.map Chunk.data)).save tree
  adds : s.Adds Event.CreatesNothing s'
  received : s.Received s' chunks
  positions : s'.observer.positions = s.observer.positions ++ chunks.map Chunk.progress

namespace Session.Appended

variable {s s' s'' : Session} {w : FileWriter} {chunk : Chunk} {chunks : List Chunk}

theorem refl (s : Session) (w : FileWriter) : s.Appended s w [] where
  storage := fun _ h => h
  adds := .refl _ s
  received := .of_quiet (.refl _ s)
  positions := (List.append_nil _).symm

theorem of_nextChunk (w : FileWriter) (h : nextChunk.perform s = (.ok chunk, s')) :
    s.Appended (s'.saving (w.append chunk.data)) w [chunk] where
  storage := by
    intro tree htree
    have hstorage := (leads_talked_nextChunk.of_perform h).storage
    show (w.append chunk.data).save s'.storage = (w.append chunk.data).save tree
    rw [hstorage, htree, FileWriter.save_save (w.place_append _)]
  adds := (leads_talked_nextChunk.of_perform h).adds
  received := by
    have hreceived : s.Received s' [chunk] := .of_nextChunk h
    exact hreceived
  positions := positions_nextChunk h

theorem exists_of_appendChunk {w' : FileWriter} {isLast : Bool}
    (h : (appendChunk w).perform s = (.ok (w', isLast), s')) :
    ∃ chunk, w' = w.append chunk.data ∧ chunk.isLast = isLast ∧ s.Appended s' w [chunk] := by
  rw [perform_appendChunk] at h
  rcases hchunk : nextChunk.perform s with ⟨failure | chunk, received⟩
  · rw [hchunk] at h
    cases h
  · rw [hchunk] at h
    simp only [Prod.mk.injEq, Except.ok.injEq] at h
    obtain ⟨⟨rfl, hlast⟩, rfl⟩ := h
    exact ⟨chunk, rfl, hlast, .of_nextChunk w hchunk⟩

theorem cons (h : s.Appended s' w [chunk]) (h' : s'.Appended s'' (w.append chunk.data) chunks) :
    s.Appended s'' w (chunk :: chunks) where
  storage := fun tree htree => h'.storage tree (h.storage tree htree)
  adds := h.adds.trans h'.adds
  received := h.received.trans h'.received
  positions := by
    rw [h'.positions, h.positions, List.append_assoc]
    rfl

end Session.Appended

/-- How a transfer ends. -/
inductive TransferOutcome (w : FileWriter) (s : Session) :
    Except Failure FileWriter × Session → Prop
  /-- It failed behind these pieces, none of which was the last one. -/
  | broken {stored s' : Session} {failure : Failure} {chunks : List Chunk}
      (happended : s.Appended stored w chunks) (hinner : ∀ chunk ∈ chunks, chunk.isLast = false)
      (htalked : stored.Talked s')
      (hpositions : s'.observer.positions = stored.observer.positions) :
      TransferOutcome w s (.error failure, s')
  /-- All pieces have come, up to the one with the end mark. -/
  | whole {s' : Session} {inner : List Chunk} {last : Chunk}
      (happended : s.Appended s' w (inner ++ [last]))
      (hinner : ∀ chunk ∈ inner, chunk.isLast = false) (hlast : last.isLast = true) :
      TransferOutcome w s (.ok (w.appendAll ((inner ++ [last]).map Chunk.data)), s')

theorem TransferOutcome.cons {w : FileWriter} {s s' : Session} {chunk : Chunk}
    {ending : Except Failure FileWriter × Session} (h : s.Appended s' w [chunk])
    (hchunk : chunk.isLast = false) (h' : TransferOutcome (w.append chunk.data) s' ending) :
    TransferOutcome w s ending := by
  have hall : ∀ {chunks : List Chunk}, (∀ other ∈ chunks, other.isLast = false) →
      ∀ other ∈ chunk :: chunks, other.isLast = false := fun hchunks =>
    List.forall_mem_cons.mpr ⟨hchunk, hchunks⟩
  cases h' with
  | broken happended hinner htalked hpositions =>
    exact .broken (h.cons happended) (hall hinner) htalked hpositions
  | @whole _ inner _ happended hinner hlast =>
    have happended' : s.Appended _ w ((chunk :: inner) ++ [_]) := h.cons happended
    exact .whole happended' (hall hinner) hlast

/-- A piece that has not come is not appended, and no position is reported. -/
theorem talked_of_appendChunk_eq_error {w : FileWriter} {s s' : Session} {failure : Failure}
    (h : (appendChunk w).perform s = (.error failure, s')) :
    s.Talked s' ∧ s'.observer.positions = s.observer.positions := by
  rw [perform_appendChunk] at h
  rcases hchunk : nextChunk.perform s with ⟨failure' | chunk, received⟩
  · rw [hchunk] at h
    cases h
    exact ⟨leads_talked_nextChunk.of_perform hchunk,
      (positions_nextChunk hchunk).trans (List.append_nil _)⟩
  · rw [hchunk] at h
    cases h

/-- **Every transfer ends in one of these ways.** -/
theorem transferFrom_outcome (w : FileWriter) (s : Session) :
    TransferOutcome w s (transferFrom w s) := by
  have hnone : ∀ chunk ∈ ([] : List Chunk), chunk.isLast = false := fun _ hmem => by cases hmem
  fun_induction transferFrom w s with
  | case1 w s failure s' h =>
    obtain ⟨htalked, hpositions⟩ := talked_of_appendChunk_eq_error h
    exact .broken (.refl s w) hnone htalked hpositions
  | case2 w s w' s' h =>
    obtain ⟨chunk, rfl, hlast, happended⟩ := Appended.exists_of_appendChunk h
    have hpieces : s.Appended s' w ([] ++ [chunk]) := happended
    exact .whole hpieces hnone hlast
  | case3 w s w' isLast s' h hlast ih =>
    obtain ⟨chunk, rfl, rfl, happended⟩ := Appended.exists_of_appendChunk h
    exact .cons happended (Bool.eq_false_iff.mpr hlast) ih

/-! ## The selected record -/

/-- The observer stops an operation, or is asked once more and lets it go on. -/
theorem perform_poll_cases (s : Session) :
    (∃ s', poll.perform s = (.error .cancelled, s') ∧ s.Talked s' ∧
      s'.observer.polls = s.observer.polls + 1) ∨ poll.perform s = (.ok (), s.polled) := by
  have htalked := leads_talked_poll s
  rw [poll, Action.perform_ofPerform] at htalked ⊢
  dsimp only at htalked ⊢
  cases hc : s.observer.cancels (s.observer.polls + 1) s.observer.positions with
  | true =>
    rw [hc, if_pos rfl] at htalked
    exact .inl ⟨_, rfl, htalked, rfl⟩
  | false => exact .inr rfl

theorem talked_polled (s : Session) : s.Talked s.polled :=
  ⟨rfl, .of_note rfl fun _ hcreated => by cases hcreated⟩

/-- Nothing but talking creates no file. -/
theorem Session.Talked.created_notMem {s s' : Session} (h : s.Talked s') (place : Place) :
    .created place ∉ s.stretch s' := by
  obtain ⟨events, heq, hnone⟩ := h.adds
  rw [stretch_eq heq]
  exact fun hmem => hnone _ hmem place rfl

theorem history_opened (s : Session) (place : Place) (created : Storage) :
    (s.polled.opened place created).history
      = s.history ++ [.polled false, .created place, .rangeReported downloadRange] := by
  simp [opened, polled, history, note]

theorem quiet_opened (s : Session) (place : Place) (created : Storage) :
    s.Quiet (s.polled.opened place created) :=
  ⟨_, history_opened s place created, by simp [Event.IsQuiet]⟩

/-- How the download of the selected record ends. -/
inductive SelectedOutcome (path : String) (s : Session) : Except Failure Unit × Session → Prop
  /-- The observer stopped it before there was a file. -/
  | stopped {s' : Session} (htalked : s.Talked s')
      (hpolls : s'.observer.polls = s.observer.polls + 1) :
      SelectedOutcome path s (.error .cancelled, s')
  /-- There can be no file of that path. -/
  | refused {s' : Session} {fault : StorageFault} (hlocate : s.storage.locate path = .error fault)
      (htalked : s.Talked s') : SelectedOutcome path s (.error (.system (.storage fault)), s')
  /-- The transfer failed behind these pieces. The file holds what was written of them by then, and
  the rest was lost in the buffer. -/
  | broken {s' : Session} {failure : Failure} {place : Place} {chunks : List Chunk}
      (hlocate : s.storage.locate path = .ok place)
      (hstorage : s'.storage
        = ((FileWriter.start place).appendAll (chunks.map Chunk.data)).save s.storage)
      (hadds : (s.polled.opened place (s.storage.put place (.file []))).Adds
        Event.CreatesNothing s')
      (hreplies : chunks.map Except.ok <+: (contentReplies (s.stretch s')).map Reply.chunk)
      (hinner : ∀ chunk ∈ chunks, chunk.isLast = false)
      (hpositions : s'.observer.positions
        = s.observer.positions ++ chunks.map Chunk.progress) :
      SelectedOutcome path s (.error failure, s')
  /-- The file holds the data of all pieces. -/
  | filled {s' : Session} {place : Place} {inner : List Chunk} {last : Chunk}
      (hlocate : s.storage.locate path = .ok place)
      (hstorage : s'.storage
        = s.storage.put place (.file ((inner ++ [last]).flatMap Chunk.data)))
      (hadds : (s.polled.opened place (s.storage.put place (.file []))).Adds
        Event.CreatesNothing s')
      (hreceived : s.Received s' (inner ++ [last]))
      (hinner : ∀ chunk ∈ inner, chunk.isLast = false) (hlast : last.isLast = true) :
      SelectedOutcome path s (.ok (), s')

/-- What becomes of a transfer into an empty file, and of the last writing behind it. -/
theorem SelectedOutcome.of_transfer {path : String} {s : Session} {place : Place}
    (hlocate : s.storage.locate path = .ok place) {result : Except Failure FileWriter}
    {s' : Session}
    (h : TransferOutcome (.start place)
      (s.polled.opened place (s.storage.put place (.file []))) (result, s')) :
    SelectedOutcome path s
      (match result with
        | .ok w => (.ok (), s'.saving w.flush)
        | .error failure => (.error failure, s')) := by
  let opened := s.polled.opened place (s.storage.put place (.file []))
  have hempty : opened.storage = (FileWriter.start place).save s.storage := rfl
  have hopened := Received.of_quiet (quiet_opened s place (s.storage.put place (.file [])))
  cases h with
  | @broken stored _ _ chunks happended hinner htalked hpositions =>
    refine .broken hlocate ?_ (happended.adds.trans htalked.adds)
      ((hopened.trans happended.received).prefix_contentReplies htalked.adds) hinner ?_
    · exact htalked.storage.trans (happended.storage _ hempty)
    · exact hpositions.trans happended.positions
  | @whole _ inner last happended hinner hlast =>
    let w := (FileWriter.start place).appendAll ((inner ++ [last]).map Chunk.data)
    have hcontent : w.content = (inner ++ [last]).flatMap Chunk.data :=
      FileWriter.content_start_appendAll _ _ _
    have hreceived : s.Received s' (inner ++ [last]) := hopened.trans happended.received
    refine .filled hlocate ?_ happended.adds hreceived hinner hlast
    show w.flush.save s'.storage = _
    rw [happended.storage _ hempty, FileWriter.save_save w.place_flush, FileWriter.save_flush,
      hcontent, FileWriter.place_appendAll]
    rfl

/-- **Every download of the selected record ends in one of these ways.** -/
theorem downloadSelected_outcome (path : String) (s : Session) :
    SelectedOutcome path s ((downloadSelected path).perform s) := by
  rw [downloadSelected, Action.perform_bind]
  rcases perform_poll_cases s with ⟨s', hpoll, htalked, hpolls⟩ | hpoll
  · rw [hpoll]
    exact .stopped htalked hpolls
  · rw [hpoll]
    simp only
    have hsame : s.polled.storage = s.storage := rfl
    rw [Action.perform_bind, createFile, Action.perform_ofPerform, hsame, Storage.create]
    cases hlocate : s.storage.locate path with
    | error fault => exact .refused hlocate (talked_polled s)
    | ok place =>
      simp only [reportRange, Action.perform_bind, Action.perform_modify, Action.perform_ofPerform]
      have houtcome := transferFrom_outcome (.start place)
        (s.polled.opened place (s.storage.put place (.file [])))
      rcases htransfer : transferFrom (.start place)
          (s.polled.opened place (s.storage.put place (.file []))) with ⟨failure | w, s'⟩
      · rw [htransfer] at houtcome
        rw [Session.opened] at htransfer
        rw [htransfer]
        exact .of_transfer hlocate houtcome
      · rw [htransfer] at houtcome
        rw [Session.opened] at htransfer
        rw [htransfer]
        exact .of_transfer hlocate houtcome

/--
**A download of the selected record that fails leaves a front of what has come.**

From the creation of its file on, the pieces are accepted whose positions the observer was told.
They are the first ones with which the device answered the requests for content. The file holds a
front of their data, and no more of it than a buffer is missing. No other place of the tree is
changed.
-/
theorem downloadSelected_leaves_front {path : String} {s s' : Session} {failure : Failure}
    {place : Place} (h : (downloadSelected path).perform s = (.error failure, s'))
    (hcreated : .created place ∈ s.stretch s') :
    ∃ (chunks : List Chunk) (front : Bytes),
      chunks.map Except.ok <+: (contentReplies (s.stretch s')).map Reply.chunk ∧
      s'.observer.positions = s.observer.positions ++ chunks.map Chunk.progress ∧
      s'.storage.content? path = some front ∧ front <+: chunks.flatMap Chunk.data ∧
      (chunks.flatMap Chunk.data).length ≤ front.length + bufferSize ∧
      ∀ other, s.storage.locate path ≠ .ok other →
        s'.storage.get? other = s.storage.get? other := by
  have houtcome := downloadSelected_outcome path s
  rw [h] at houtcome
  cases houtcome with
  | stopped htalked => exact absurd hcreated (htalked.created_notMem place)
  | refused _ htalked => exact absurd hcreated (htalked.created_notMem place)
  | @broken _ _ opened chunks hlocate hstorage _ hreplies _ hpositions =>
    let w := (FileWriter.start opened).appendAll (chunks.map Chunk.data)
    have hcontent : w.content = chunks.flatMap Chunk.data :=
      FileWriter.content_start_appendAll _ _ _
    have hput : s'.storage = s.storage.put opened (.file w.written.toList) := by
      rw [hstorage, FileWriter.save, FileWriter.place_appendAll]
      rfl
    refine ⟨chunks, w.written.toList, hreplies, hpositions, ?_, ?_, ?_, fun other hother => ?_⟩
    · rw [hput]
      exact Storage.content?_put _ hlocate
    · rw [← hcontent]
      exact w.written_prefix
    · rw [← hcontent, Array.length_toList]
      exact w.length_content_le
    · rw [hput, Storage.get?_put_other]
      rintro rfl
      exact hother hlocate

/-! ## The flight -/

/-- **A download fails before anything else than talking is done, or it comes to the download of the
selected record**, with the file removed behind a failure. -/
theorem perform_download_cases (flight : Flight) (path : String) (s : Session) :
    (∃ failure s', (download flight path).perform s = (.error failure, s') ∧ s.Talked s') ∨
    ∃ reply ready, s.Talked ready ∧ ready.observer.polls = s.observer.polls + 2 ∧
      s.Answered ready [(.build s.nextSequence .selectRecord [flight.index], reply)] ∧
      (download flight path).perform s
        = ((downloadSelected path).removingOnFailure path).perform ready := by
  rw [download, Action.perform_bind]
  rcases perform_poll_cases s with ⟨s', hpoll, htalked, -⟩ | hpoll
  · rw [hpoll]
    exact .inl ⟨_, _, rfl, htalked⟩
  · rw [hpoll]
    simp only [selectRecord, Action.perform_bind]
    rcases hexchange : (exchange .selectRecord [flight.index] (·.controlTimeout)).perform s.polled
      with ⟨failure | reply, asked⟩
    · exact .inl ⟨_, _, rfl, (talked_polled s).trans
        ((leads_talked_exchange _ _ _).of_perform hexchange)⟩
    · have htalked := (talked_polled s).trans ((leads_talked_exchange _ _ _).of_perform hexchange)
      have hobserver := (leads_observer_exchange _ _ _).of_perform hexchange
      have hgiven : s.Answered asked
          [(.build s.nextSequence .selectRecord [flight.index], reply)] :=
        (leads_quiet_poll.of_perform hpoll).answered.trans (answered_exchange hexchange)
      simp only [Action.perform_pure]
      by_cases htype : reply.type = .ack
      · rw [if_neg fun hne => hne htype, Action.perform_bind]
        rcases perform_poll_cases asked with ⟨s', hpoll', htalked', -⟩ | hpoll'
        · rw [hpoll']
          exact .inl ⟨_, _, rfl, htalked.trans htalked'⟩
        · rw [hpoll']
          refine .inr ⟨reply, asked.polled, htalked.trans (talked_polled asked), ?_, ?_, rfl⟩
          · show asked.observer.polls + 1 = _
            rw [hobserver]
            rfl
          · exact hgiven.trans (leads_quiet_poll.of_perform hpoll').answered
      · rw [if_pos htype]
        exact .inl ⟨_, _, rfl, htalked⟩

/-! ## The whole download -/

/-- Among events that create nothing, the creation of one file is the creation of no other. -/
theorem created_mem_stretch_iff {s ready s' : Session} {place other : Place} {created : Storage}
    (h : s.Talked ready)
    (h' : (ready.polled.opened place created).Adds Event.CreatesNothing s') :
    .created other ∈ s.stretch s' ↔ other = place := by
  obtain ⟨before, hbefore, hnone⟩ := h.adds
  obtain ⟨behind, hbehind, hnone'⟩ := h'
  have hbefore' : .created other ∉ before := fun hmem => hnone _ hmem other rfl
  have hbehind' : .created other ∉ behind := fun hmem => hnone' _ hmem other rfl
  rw [stretch_eq (by rw [hbehind, history_opened, hbefore, List.append_assoc, List.append_assoc])]
  simp [hbefore', hbehind']

/-- How a download ends. -/
inductive DownloadOutcome (path : String) (s : Session) : Except Failure Unit × Session → Prop
  /-- It failed before there was a file. -/
  | unchanged {s' : Session} {failure : Failure} (hstorage : s'.storage = s.storage)
      (hnone : ∀ place, .created place ∉ s.stretch s') : DownloadOutcome path s (.error failure, s')
  /-- The observer stopped it right before there was a file, and the path was cleared. -/
  | cleared {s' : Session} (hstorage : s'.storage = s.storage.remove path)
      (hnone : ∀ place, .created place ∉ s.stretch s')
      (hpolls : s'.observer.polls = s.observer.polls + 3) :
      DownloadOutcome path s (.error .cancelled, s')
  /-- It failed behind the creation of the file, and the file was removed. -/
  | rolledBack {s' : Session} {failure : Failure} {place : Place}
      (hlocate : s.storage.locate path = .ok place)
      (hstorage : s'.storage = s.storage.erase place)
      (hcreated : ∀ other, .created other ∈ s.stretch s' ↔ other = place) :
      DownloadOutcome path s (.error failure, s')
  /-- The file holds the data of all pieces. -/
  | complete {s' : Session} {place : Place} {inner : List Chunk} {last : Chunk}
      (hlocate : s.storage.locate path = .ok place)
      (hstorage : s'.storage
        = s.storage.put place (.file ((inner ++ [last]).flatMap Chunk.data)))
      (hreplies : (contentReplies (s.stretch s')).map Reply.chunk
        = (inner ++ [last]).map Except.ok)
      (hinner : ∀ chunk ∈ inner, chunk.isLast = false) (hlast : last.isLast = true) :
      DownloadOutcome path s (.ok (), s')

/-- What a download that has selected its record does with the tree, whatever becomes of it. -/
theorem DownloadOutcome.of_selected {flight : Flight} {path : String} {s ready : Session}
    {reply : Reply} (htalked : s.Talked ready)
    (hpolls : ready.observer.polls = s.observer.polls + 2)
    (hselected : s.Answered ready
      [(.build s.nextSequence .selectRecord [flight.index], reply)]) :
    DownloadOutcome path s (((downloadSelected path).removingOnFailure path).perform ready) := by
  have hready := htalked.storage
  have houtcome := downloadSelected_outcome path ready
  rw [Action.removingOnFailure, Action.perform_ofPerform]
  rcases hp : (downloadSelected path).perform ready with ⟨outcome, stored⟩
  rw [hp] at houtcome
  cases houtcome with
  | stopped htalked' hpolls' =>
    refine .cleared ?_ (htalked.trans htalked').created_notMem (hpolls'.trans (by rw [hpolls]))
    simp only [htalked'.storage, hready]
  | refused hlocate htalked' =>
    -- What cannot be created cannot be there to be removed.
    refine .unchanged ?_ (htalked.trans htalked').created_notMem
    rw [hready] at hlocate
    simp only [htalked'.storage, hready, Storage.remove_of_fault hlocate]
  | @broken _ _ place chunks hlocate hstorage hadds =>
    rw [hready] at hlocate hstorage
    refine .rolledBack hlocate ?_ fun _ => created_mem_stretch_iff htalked hadds
    -- Whatever is in the file, its path still names it, and it is removed.
    have hplace : ((FileWriter.start place).appendAll (chunks.map Chunk.data)).place = place :=
      FileWriter.place_appendAll _ _
    show stored.storage.remove path = _
    rw [hstorage, FileWriter.save, hplace, Storage.write,
      Storage.remove_of_locate (Storage.locate_put _ hlocate), Storage.erase_put]
  | filled hlocate hstorage hadds hreceived hinner hlast =>
    have hselection : s.Received ready [] := ⟨_, hselected, rfl⟩
    rw [hready] at hlocate hstorage
    exact .complete hlocate hstorage (hselection.trans hreceived).contentReplies_eq hinner hlast

/-- **Every download ends in one of these ways.** -/
theorem download_outcome (flight : Flight) (path : String) (s : Session) :
    DownloadOutcome path s ((download flight path).perform s) := by
  rcases perform_download_cases flight path s with
    ⟨failure, s', heq, htalked⟩ | ⟨reply, ready, htalked, hpolls, hselected, heq⟩
  · rw [heq]
    exact .unchanged htalked.storage htalked.created_notMem
  · rw [heq]
    exact .of_selected htalked hpolls hselected

/-! ## All or nothing -/

namespace DownloadOutcome

variable {path : String} {s s' : Session} {result : Except Failure Unit} {place other : Place}

/-- **A download that succeeds leaves the data of its pieces in the file.** -/
theorem written (h : DownloadOutcome path s (.ok (), s')) :
    ∃ inner last,
      (contentReplies (s.stretch s')).map Reply.chunk = (inner ++ [last]).map Except.ok ∧
        (∀ chunk ∈ inner, chunk.isLast = false) ∧ last.isLast = true ∧
        s'.storage.content? path = some ((inner ++ [last]).flatMap Chunk.data) := by
  cases h with
  | complete hlocate hstorage hreplies hinner hlast =>
    refine ⟨_, _, hreplies, hinner, hlast, ?_⟩
    rw [hstorage]
    exact Storage.content?_put _ hlocate

/-- **A download that fails leaves no file that it has created.** -/
theorem gone (h : DownloadOutcome path s (result, s')) (hfailed : result ≠ .ok ())
    (hcreated : .created place ∈ s.stretch s') :
    s'.storage.locate path = .ok place ∧ s'.storage.get? place = none ∧
      s'.storage.content? path = none := by
  cases h with
  | unchanged _ hnone => exact absurd hcreated (hnone place)
  | cleared _ hnone _ => exact absurd hcreated (hnone place)
  | rolledBack hlocate hstorage hall =>
    obtain rfl := (hall place).mp hcreated
    have hremoved := Storage.get?_remove_self hlocate
    rw [Storage.remove_of_locate hlocate] at hremoved
    rw [hstorage]
    exact ⟨Storage.locate_erase hlocate, hremoved⟩
  | complete => exact absurd rfl hfailed

/-- **A download that fails before it has created its file changes nothing**, unless it is
cancelled. -/
theorem untouched (h : DownloadOutcome path s (result, s')) (hfailed : result ≠ .ok ())
    (hgoes : result ≠ .error .cancelled) (hnone : ∀ place, .created place ∉ s.stretch s') :
    s'.storage = s.storage := by
  cases h with
  | unchanged hstorage _ => exact hstorage
  | cleared => exact absurd rfl hgoes
  | rolledBack _ _ hall => exact absurd ((hall _).mpr rfl) (hnone _)
  | complete => exact absurd rfl hfailed

/-- **A download changes no other place.** -/
theorem elsewhere (h : DownloadOutcome path s (result, s'))
    (hother : s.storage.locate path ≠ .ok other) :
    s'.storage.get? other = s.storage.get? other := by
  have hne : ∀ {place}, s.storage.locate path = .ok place → other ≠ place := by
    rintro place hlocate rfl
    exact hother hlocate
  cases h with
  | unchanged hstorage _ => rw [hstorage]
  | cleared hstorage _ _ => rw [hstorage, Storage.get?_remove_other hother]
  | rolledBack hlocate hstorage _ => rw [hstorage, Storage.get?_erase_other _ (hne hlocate)]
  | complete hlocate hstorage _ _ _ => rw [hstorage, Storage.get?_put_other _ _ (hne hlocate)]

end DownloadOutcome

/--
**A download leaves its file whole, or no file, and touches nothing else.**

If it fails after it has created its file, there is nothing at the place of the path any more. If it
succeeds, the path shows the data of the pieces with which the device answered the requests for
content, one behind the other; the last of them, and no other, carried the end mark. Whatever
happens, no other place of the tree is changed.

The tree has no permissions and no links: nothing keeps the file that was created from being removed
again, and its path leads to no other file.
-/
theorem download_all_or_nothing {flight : Flight} {path : String} {s s' : Session}
    {result : Except Failure Unit} (h : (download flight path).perform s = (result, s')) :
    (∀ failure place, result = .error failure → .created place ∈ s.stretch s' →
      s'.storage.locate path = .ok place ∧ s'.storage.get? place = none ∧
        s'.storage.content? path = none) ∧
    (result = .ok () → ∃ inner last,
      (contentReplies (s.stretch s')).map Reply.chunk = (inner ++ [last]).map Except.ok ∧
        (∀ chunk ∈ inner, chunk.isLast = false) ∧ last.isLast = true ∧
        s'.storage.content? path = some ((inner ++ [last]).flatMap Chunk.data)) ∧
    (∀ other, s.storage.locate path ≠ .ok other →
      s'.storage.get? other = s.storage.get? other) := by
  have houtcome := download_outcome flight path s
  rw [h] at houtcome
  refine ⟨fun failure place hfailed hcreated => ?_, fun hok => ?_, fun other => houtcome.elsewhere⟩
  · exact houtcome.gone (fun hok => by cases hfailed.symm.trans hok) hcreated
  · subst hok
    exact houtcome.written

/-- A tree with two records of earlier downloads. -/
def olderRecords : Storage :=
  (Storage.empty.put ["other.igc"] (.file [9, 9])).put ["record.igc"] (.file [65, 66])

/-- A session at the start of a connection, with older records in its tree. -/
def sessionWithOlderRecords (incoming : List Arrival) (cancels : Nat → List Nat → Bool) :
    Session where
  clock := 0
  incoming := incoming
  outgoing := .unlimited
  storage := olderRecords
  settings := .standard
  decoder := .fresh
  nextSequence := 0
  observer := .ofRule cancels
  journal := []

/-- The flight of a record that such a session asks for. -/
def flightInAugust : Flight where
  date := { year := 2011, month := 8, day := 12 }
  startTime := { hour := 12, minute := 23, second := 48 }
  endTime := { hour := 14, minute := 27, second := 13 }
  index := 4

/-- The record is selected and one piece of it comes, but what is behind that is none. -/
def sessionWithBrokenTransfer : Session :=
  sessionWithOlderRecords
    [.data (Frame.reply 1 .ack 0 []).encode, .silence 20,
      .data (Frame.reply 2 .ack 1 [50, 65, 66]).encode, .data (Frame.reply 3 .ack 2 [60]).encode]
    fun _ _ => false

/-- The record is selected and comes in two pieces. -/
def sessionWithWholeTransfer : Session :=
  sessionWithOlderRecords
    [.data (Frame.reply 1 .ack 0 []).encode, .silence 20,
      .data (Frame.reply 2 .ack 1 [50, 65, 66]).encode,
      .data (Frame.reply 3 .ack 2 [200, 67, endOfContent]).encode]
    fun _ _ => false

theorem download_over_older_record :
    (∃ s', (download flightInAugust "record.igc").perform sessionWithBrokenTransfer
        = (.error (.insufficientData minChunkSize 3), s') ∧
      s'.storage.content? "record.igc" = none ∧
      s'.storage.get? ["other.igc"] = some (.file [9, 9])) ∧
    ∃ s', (download flightInAugust "record.igc").perform sessionWithWholeTransfer = (.ok (), s') ∧
      s'.storage.content? "record.igc" = some [65, 66, 67] ∧
      s'.storage.get? ["other.igc"] = some (.file [9, 9]) := by
  have hother : olderRecords.locate "record.igc" ≠ .ok ["other.igc"] := by decide +kernel
  constructor
  · let run := (download flightInAugust "record.igc").perform sessionWithBrokenTransfer
    have hrun : run = (.error (.insufficientData minChunkSize 3), run.2) :=
      Prod.ext (by decide +kernel) rfl
    obtain ⟨hgone, -, hkept⟩ := download_all_or_nothing hrun
    obtain ⟨-, -, hcontent⟩ := hgone _ ["record.igc"] rfl (by decide +kernel)
    exact ⟨run.2, hrun, hcontent, hkept _ hother⟩
  · let run := (download flightInAugust "record.igc").perform sessionWithWholeTransfer
    have hrun : run = (.ok (), run.2) := Prod.ext (by decide +kernel) rfl
    obtain ⟨-, hwhole, hkept⟩ := download_all_or_nothing hrun
    obtain ⟨inner, last, hreplies, -, -, hcontent⟩ := hwhole rfl
    have hpieces : (contentReplies (sessionWithWholeTransfer.stretch run.2)).map Reply.chunk
        = [{ progress := 50, data := [65, 66], isLast := false },
            { progress := 100, data := [67], isLast := true }].map Except.ok := by decide +kernel
    have hchunks := List.map_inj_right (fun _ _ => Except.ok.inj) |>.mp
      (hreplies.symm.trans hpieces)
    rw [hchunks] at hcontent
    exact ⟨run.2, hrun, hcontent, hkept _ hother⟩

/-! ## Without a file of its own -/

/-- A stretch of history without the creation of a file. -/
theorem created_notMem_of_all {events : List Event}
    (h : events.all fun | .created _ => false | _ => true) (place : Place) :
    .created place ∉ events := by
  intro hmem
  have hcreated := List.all_eq_true.mp h _ hmem
  cases hcreated

/--
**A download that fails before it creates its file leaves the tree as it was, unless the observer
stops it at the last question before that.**

Then whatever file the path names is removed, although the download has written nothing to it. The
tree has no permissions and no links, so this removal does not fail, and what is removed is the file
itself.
-/
theorem download_of_not_created {flight : Flight} {path : String} {s s' : Session}
    {failure : Failure} (h : (download flight path).perform s = (.error failure, s'))
    (hnone : ∀ place, .created place ∉ s.stretch s') :
    s'.storage = s.storage ∨
      failure = .cancelled ∧ s'.observer.polls = s.observer.polls + 3 ∧
        s'.storage = s.storage.remove path := by
  have houtcome := download_outcome flight path s
  rw [h] at houtcome
  cases houtcome with
  | unchanged hstorage _ => exact .inl hstorage
  | cleared hstorage _ hpolls => exact .inr ⟨rfl, hpolls, hstorage⟩
  | rolledBack _ _ hcreated => exact absurd ((hcreated _).mpr rfl) (hnone _)

theorem download_of_not_created_when_refused :
    ∃ s', (download flightInAugust "record.igc").perform
        (sessionWithOlderRecords [.data (Frame.reply 1 .nack 0 []).encode] fun _ _ => false)
        = (.error (.unexpectedResponse .nack), s') ∧ s'.storage = olderRecords := by
  let run := (download flightInAugust "record.igc").perform
    (sessionWithOlderRecords [.data (Frame.reply 1 .nack 0 []).encode] fun _ _ => false)
  have hrun : run = (.error (.unexpectedResponse .nack), run.2) :=
    Prod.ext (by decide +kernel) rfl
  rcases download_of_not_created hrun (created_notMem_of_all (by decide +kernel)) with
    hsame | ⟨hcancelled, -, -⟩
  · exact ⟨run.2, hrun, hsame⟩
  · cases hcancelled

/-- The record is selected, and the observer stops the download right before the file is created. -/
def sessionStoppedBeforeCreation : Session :=
  sessionWithOlderRecords [.data (Frame.reply 1 .ack 0 []).encode] fun polls _ => polls = 3

/-- An older file is lost although the download has not touched it. -/
theorem download_removes_older_record :
    ∃ s', (download flightInAugust "record.igc").perform sessionStoppedBeforeCreation
        = (.error .cancelled, s') ∧
      (∀ place, .created place ∉ sessionStoppedBeforeCreation.stretch s') ∧
      sessionStoppedBeforeCreation.storage.content? "record.igc" = some [65, 66] ∧
      s'.storage.content? "record.igc" = none := by
  let run := (download flightInAugust "record.igc").perform sessionStoppedBeforeCreation
  have hrun : run = (.error .cancelled, run.2) := Prod.ext (by decide +kernel) rfl
  exact ⟨run.2, hrun, created_notMem_of_all (by decide +kernel), by decide +kernel,
    by decide +kernel⟩

end FlightRecorder
