import FlightRecorder.Proofs.Device.Dispatch
import FlightRecorder.Proofs.Device.Transcript

/-!
# What a download was going to ask

A download asks one request after the other and goes on only when it has an answer. So wherever it
ends, it has issued a front of what it was going to ask, every request in it but the last one was
answered, and the link took a front of its bytes.

* `Agenda`, `numbered` — what a run is going to ask, and its requests
* `Session.KeepsTo` — a run that has got so far with its agenda
* `Session.KeepsTo.goOn`, `Session.KeepsTo.bind` — one run behind the other
* `keepsTo_exchange`, `keepsTo_transferFrom`, `keepsTo_download` — the operations
* `acceptedFrames_run_of_prefix` — what the device makes of a front of the bytes
-/

namespace FlightRecorder

open Session

/-! ## Agendas -/

/-- What a run is going to ask: the types of its requests and what they carry. -/
abbrev Agenda := List (MessageType × Bytes)

/-- The requests of an agenda, numbered from `sequence` on. -/
def numbered (sequence : UInt16) : Agenda → List Frame
  | [] => []
  | (type, payload) :: agenda => .build sequence type payload :: numbered (sequence + 1) agenda

theorem UInt16.add_one_add_ofNat (sequence : UInt16) (n : Nat) :
    sequence + 1 + UInt16.ofNat n = sequence + UInt16.ofNat (n + 1) := by
  rw [UInt16.ofNat_add, UInt16.add_assoc, UInt16.add_comm 1]
  rfl

theorem numbered_append (sequence : UInt16) (front back : Agenda) :
    numbered sequence (front ++ back)
      = numbered sequence front ++ numbered (sequence + UInt16.ofNat front.length) back := by
  induction front generalizing sequence with
  | nil => simp [numbered]
  | cons item front ih =>
    rw [List.cons_append, numbered, numbered, ih, UInt16.add_one_add_ofNat]
    rfl

theorem length_numbered (sequence : UInt16) (agenda : Agenda) :
    (numbered sequence agenda).length = agenda.length := by
  induction agenda generalizing sequence with
  | nil => rfl
  | cons item agenda ih => exact congrArg Nat.succ (ih (sequence + 1))

/-! ## How far a run has got -/

theorem Session.Aside.trans {s s' s'' : Session} (h : s.Aside s') (h' : s'.Aside s'') :
    s.Aside s'' where
  clock := h'.clock.trans h.clock
  incoming := h'.incoming.trans h.incoming
  outgoing := h'.outgoing.trans h.outgoing
  settings := h'.settings.trans h.settings
  decoder := h'.decoder.trans h.decoder
  nextSequence := h'.nextSequence.trans h.nextSequence
  adds := h.adds.trans h'.adds

/-- A run that was going to ask all this has issued a front of it. The link took a front of what was
issued, and only the last request may have no answer. If the run has succeeded, it has issued all,
sent all and got all answers. -/
structure Session.Pursues {ε α : Type} (s : Session) (agenda : Agenda)
    (ending : Except ε α × Session) (asked : Transcript) (taken : Bytes) : Prop where
  transcribed : s.Transcribed asked ending.2
  said : s.Said (asked.map Prod.fst) taken ending.2
  front : asked.map Prod.fst <+: numbered s.nextSequence agenda
  sent : taken <+: (asked.map Prod.fst).flatMap Frame.encode
  answered : ∀ entry ∈ asked.dropLast, entry.2.isSome
  whole : ∀ a, ending.1 = .ok a → asked.length = agenda.length ∧
    taken = (asked.map Prod.fst).flatMap Frame.encode ∧ (∀ entry ∈ asked, entry.2.isSome) ∧
    ending.2.nextSequence = s.nextSequence + UInt16.ofNat agenda.length

/-- A run has got so far as it can tell with what it was going to ask. -/
def Session.KeepsTo {ε α : Type} (s : Session) (agenda : Agenda) (ending : Except ε α × Session) :
    Prop :=
  ∃ asked taken, s.Pursues agenda ending asked taken

theorem forall_mem_dropLast_append {α : Type} {P : α → Prop} {front back : List α}
    (hfront : ∀ a ∈ front, P a) (hback : ∀ a ∈ back.dropLast, P a) :
    ∀ a ∈ (front ++ back).dropLast, P a := by
  intro a hmem
  cases back with
  | nil =>
    rw [List.append_nil] at hmem
    exact hfront a (List.dropLast_subset front hmem)
  | cons item back =>
    rw [List.dropLast_append_cons] at hmem
    rcases List.mem_append.mp hmem with hmem | hmem
    · exact hfront a hmem
    · exact hback a hmem

namespace Session.KeepsTo

variable {ε ε' α β : Type} {s s' : Session} {agenda agenda' agenda₀ : Agenda}

/-- A run that has failed has not got to what would have come behind. -/
theorem failed {e : ε} {e' : ε'} (h : s.KeepsTo agenda ((.error e, s') : Except ε α × Session))
    (agenda' : Agenda) :
    s.KeepsTo (agenda ++ agenda') ((.error e', s') : Except ε' β × Session) := by
  obtain ⟨asked, taken, h⟩ := h
  refine ⟨asked, taken, h.transcribed, h.said, ?_, h.sent, h.answered, fun a hok => by cases hok⟩
  rw [numbered_append]
  exact h.front.trans (List.prefix_append _ _)

/-- **A run that has succeeded goes on with the rest of the agenda.** -/
theorem goOn {a : α} {ending : Except ε' β × Session}
    (h : s.KeepsTo agenda ((.ok a, s') : Except ε α × Session)) (h' : s'.KeepsTo agenda' ending) :
    s.KeepsTo (agenda ++ agenda') ending := by
  obtain ⟨asked, taken, h⟩ := h
  obtain ⟨asked', taken', h'⟩ := h'
  obtain ⟨hlength, hwhole, hanswered, hnumber⟩ := h.whole a rfl
  have hall : asked.map Prod.fst = numbered s.nextSequence agenda := by
    refine h.front.eq_of_length ?_
    rw [List.length_map, hlength, length_numbered]
  refine ⟨asked ++ asked', taken ++ taken', h.transcribed.trans h'.transcribed, ?_, ?_, ?_, ?_, ?_⟩
  · rw [List.map_append]
    exact h.said.trans h'.said
  · have hfront := h'.front
    rw [show s'.nextSequence = _ from hnumber] at hfront
    rw [List.map_append, numbered_append, hall]
    exact (List.prefix_append_right_inj _).mpr hfront
  · rw [hwhole, List.map_append, List.flatMap_append]
    exact (List.prefix_append_right_inj _).mpr h'.sent
  · exact forall_mem_dropLast_append hanswered h'.answered
  · intro b hok
    obtain ⟨hlength', hwhole', hanswered', hnumber'⟩ := h'.whole b hok
    refine ⟨by rw [List.length_append, List.length_append, hlength, hlength'], ?_, ?_, ?_⟩
    · rw [hwhole, hwhole', List.map_append, List.flatMap_append]
    · exact List.forall_mem_append.mpr ⟨hanswered, hanswered'⟩
    · rw [hnumber', show s'.nextSequence = _ from hnumber, List.length_append, UInt16.ofNat_add,
        UInt16.add_assoc]

/-- What happens aside asks nothing. -/
theorem of_aside {ending : Except ε α × Session} (h : s.Aside ending.2) : s.KeepsTo [] ending := by
  have hquiet : s.Quiet ending.2 := h.adds.mono fun event haside => by
    cases event <;> first | exact haside.elim | trivial
  refine ⟨[], [], .of_quiet hquiet, Silent.of_aside h, List.prefix_refl _, List.prefix_refl _,
    List.forall_mem_nil _, fun a _ => ⟨rfl, rfl, List.forall_mem_nil _, ?_⟩⟩
  rw [h.nextSequence]
  exact (UInt16.add_zero _).symm

theorem then_aside {a : α} {ending : Except ε' β × Session}
    (h : s.KeepsTo agenda ((.ok a, s') : Except ε α × Session)) (h' : s'.Aside ending.2) :
    s.KeepsTo agenda ending := by
  have hboth : s.KeepsTo (agenda ++ []) ending := h.goOn (of_aside h')
  rwa [List.append_nil] at hboth

section Bind

variable {first : Action α} {second : α → Action β}

theorem bind (h : s.KeepsTo agenda (first.perform s))
    (h' : ∀ a s', first.perform s = (.ok a, s') → s'.KeepsTo agenda' ((second a).perform s')) :
    s.KeepsTo (agenda ++ agenda') (Action.perform (first >>= second) s) := by
  rcases Action.perform_bind_cases first second s with ⟨failure, s', hp, heq⟩ | ⟨a, s', hp, heq⟩
  · rw [heq]
    rw [hp] at h
    exact h.failed agenda'
  · rw [heq]
    rw [hp] at h
    exact h.goOn (h' a s' hp)

theorem aside_bind (h : s.Aside (first.perform s).2)
    (h' : ∀ a s', first.perform s = (.ok a, s') → s'.KeepsTo agenda ((second a).perform s')) :
    s.KeepsTo agenda (Action.perform (first >>= second) s) :=
  (of_aside h).bind h'

theorem bind_aside (h : s.KeepsTo agenda (first.perform s))
    (h' : ∀ a (s' : Session), s'.Aside ((second a).perform s').2) :
    s.KeepsTo agenda (Action.perform (first >>= second) s) := by
  have hboth := h.bind fun a s' _ => of_aside (h' a s')
  rwa [List.append_nil] at hboth

/-- How long the rest of the agenda is may depend on what happens. -/
theorem exists_bind {P : Agenda → Prop} (hP : P agenda₀) (h : s.KeepsTo agenda (first.perform s))
    (h' : ∀ a s', first.perform s = (.ok a, s') →
      ∃ agenda', P agenda' ∧ s'.KeepsTo agenda' ((second a).perform s')) :
    ∃ agenda', P agenda' ∧
      s.KeepsTo (agenda ++ agenda') (Action.perform (first >>= second) s) := by
  rcases Action.perform_bind_cases first second s with ⟨failure, s', hp, heq⟩ | ⟨a, s', hp, heq⟩
  · rw [heq]
    rw [hp] at h
    exact ⟨agenda₀, hP, h.failed agenda₀⟩
  · rw [heq]
    rw [hp] at h
    obtain ⟨agenda', hagenda', hrest⟩ := h' a s' hp
    exact ⟨agenda', hagenda', h.goOn hrest⟩

theorem exists_aside_bind {P : Agenda → Prop} (hP : P agenda₀) (h : s.Aside (first.perform s).2)
    (h' : ∀ a s', first.perform s = (.ok a, s') →
      ∃ agenda, P agenda ∧ s'.KeepsTo agenda ((second a).perform s')) :
    ∃ agenda, P agenda ∧ s.KeepsTo agenda (Action.perform (first >>= second) s) :=
  exists_bind hP (of_aside h) h'

end Bind

end Session.KeepsTo

/-! ## Operations -/

/-- **An exchange asks its one request.** -/
theorem keepsTo_exchange (type : MessageType) (payload : Bytes) (timeout : Settings → Nat)
    (s : Session) : s.KeepsTo [(type, payload)] ((exchange type payload timeout).perform s) := by
  obtain ⟨taken, hsaid, hfront, hwhole⟩ := said_request type payload s
  have hasked := transcribed_exchange type payload timeout s
  have hnumber := (Session.Numbers.issued (.exchanged type payload timeout (s := s))).spec.2.1
  have hencode : [(Frame.build s.nextSequence type payload)].flatMap Frame.encode
      = (Frame.build s.nextSequence type payload).encode := List.flatMap_singleton _ _
  refine ⟨_, taken, hasked, ?_, List.prefix_refl _, ?_, List.forall_mem_nil _, ?_⟩
  · rcases perform_exchange_cases type payload timeout s with
      ⟨failure, s', hrequest, hexchange⟩ | ⟨sequence, s', hrequest, hexchange⟩
    · rw [hrequest] at hsaid
      rw [hexchange]
      exact hsaid
    · rw [hrequest] at hsaid
      rw [hexchange]
      have hheard := hsaid.trans (Silent.of_listened
        (listened_awaitFrom sequence (s'.clock + timeout s'.settings) s'))
      rw [List.append_nil, List.append_nil] at hheard
      exact hheard
  · exact hencode.symm ▸ hfront
  · intro reply hok
    refine ⟨rfl, ?_, ?_, hnumber⟩
    · rcases perform_exchange_cases type payload timeout s with
        ⟨failure, s', hrequest, hexchange⟩ | ⟨sequence, s', hrequest, hexchange⟩
      · rw [hexchange] at hok
        cases hok
      · exact (hwhole sequence (congrArg Prod.fst hrequest)).trans hencode.symm
    · rw [hok]
      exact List.forall_mem_singleton.mpr rfl

theorem keepsTo_selectRecord (index : UInt8) (s : Session) :
    s.KeepsTo [(.selectRecord, [index])] ((selectRecord index).perform s) :=
  .bind_aside (keepsTo_exchange _ _ _ s) fun _ => .refl

theorem keepsTo_readInfo (index : UInt8) (s : Session) :
    s.KeepsTo [(.getRecordInfo, [])] ((readInfo index).perform s) :=
  .bind_aside (keepsTo_exchange _ _ _ s) fun _ => .refl

theorem keepsTo_nextChunk (s : Session) :
    s.KeepsTo [(.getIgcData, [])] (nextChunk.perform s) := by
  refine .aside_bind (.poll s) fun _ s₁ _ => .bind_aside (keepsTo_exchange _ _ _ s₁) ?_
  intro reply s₂
  have hrest : ∀ chunk : Chunk, (do
      reportPosition chunk.progress
      pure chunk : Action Chunk).Leads Aside := fun chunk s => .reportPosition _ s
  exact (Action.Leads.bind (R := Aside) .trans Aside.poll fun _ =>
    .bind .trans (Action.leads_ofResult Aside.refl _) hrest) s₂

theorem keepsTo_appendChunk (w : FileWriter) (s : Session) :
    s.KeepsTo [(.getIgcData, [])] ((appendChunk w).perform s) :=
  .bind_aside (keepsTo_nextChunk s) fun _ s' => .storing s' _

/-- An agenda of nothing but requests for content. -/
def Agenda.IsContent (agenda : Agenda) : Prop := ∃ n, agenda = List.replicate n (.getIgcData, [])

theorem Agenda.isContent_nil : Agenda.IsContent [] := ⟨0, rfl⟩

/-- **A transfer asks for content and nothing else**, piece by piece. -/
theorem keepsTo_transferFrom (w : FileWriter) (s : Session) :
    ∃ agenda, Agenda.IsContent agenda ∧ s.KeepsTo agenda (transferFrom w s) := by
  fun_induction transferFrom w s with
  | case1 w s failure s' h =>
    have hchunk := keepsTo_appendChunk w s
    rw [h] at hchunk
    exact ⟨_, ⟨1, rfl⟩, hchunk.failed []⟩
  | case2 w s w' s' h =>
    have hchunk := keepsTo_appendChunk w s
    rw [h] at hchunk
    exact ⟨_, ⟨1, rfl⟩, hchunk.then_aside (.refl s')⟩
  | case3 w s w' isLast s' h hlast ih =>
    have hchunk := keepsTo_appendChunk w s
    rw [h] at hchunk
    obtain ⟨_, ⟨n, rfl⟩, hrest⟩ := ih
    exact ⟨_, ⟨n + 1, rfl⟩, hchunk.goOn hrest⟩

theorem keepsTo_downloadSelected (path : String) (s : Session) :
    ∃ agenda, Agenda.IsContent agenda ∧ s.KeepsTo agenda ((downloadSelected path).perform s) := by
  refine KeepsTo.exists_aside_bind Agenda.isContent_nil (.poll s) fun _ s₁ _ => ?_
  refine KeepsTo.exists_aside_bind Agenda.isContent_nil (.createFile path s₁) fun place s₂ _ => ?_
  refine KeepsTo.exists_aside_bind Agenda.isContent_nil (.reportRange _ s₂) fun _ s₃ _ => ?_
  obtain ⟨agenda, hcontent, htransfer⟩ := keepsTo_transferFrom (.start place) s₃
  have htransfer : s₃.KeepsTo agenda
      ((Action.ofPerform (transferFrom (.start place))).perform s₃) := htransfer
  exact ⟨agenda, hcontent, htransfer.bind_aside fun w s₄ => .storing s₄ _⟩

/-- The removal of the file asks nothing. -/
theorem Session.KeepsTo.removingOnFailure {α : Type} {s : Session} {agenda : Agenda}
    {action : Action α} (h : s.KeepsTo agenda (action.perform s)) (path : String) :
    s.KeepsTo agenda ((action.removingOnFailure path).perform s) := by
  rw [Action.removingOnFailure, Action.perform_ofPerform]
  rcases hp : action.perform s with ⟨failure | a, s'⟩
  · rw [hp] at h
    obtain ⟨asked, taken, h⟩ := h
    have hremoved : s'.Aside { s' with storage := s'.storage.remove path } := .storing s' _
    exact ⟨asked, taken, h.transcribed, h.said, h.front, h.sent, h.answered, fun _ hok => by cases hok⟩
  · rw [hp] at h
    exact h

/-- **A download selects its record and then asks for content.** -/
theorem keepsTo_download (flight : Flight) (path : String) (s : Session) :
    ∃ agenda, Agenda.IsContent agenda ∧
      s.KeepsTo ((.selectRecord, [flight.index]) :: agenda) ((download flight path).perform s) := by
  let P (agenda : Agenda) : Prop :=
    ∃ content, Agenda.IsContent content ∧ agenda = (.selectRecord, [flight.index]) :: content
  have hP : P [(.selectRecord, [flight.index])] := ⟨[], Agenda.isContent_nil, rfl⟩
  have hbehind : ∀ s : Session, ∃ agenda, Agenda.IsContent agenda ∧ s.KeepsTo agenda
      (Action.perform (do poll; (downloadSelected path).removingOnFailure path) s) := by
    intro s
    refine KeepsTo.exists_aside_bind Agenda.isContent_nil (.poll s) fun _ s' _ => ?_
    obtain ⟨agenda, hcontent, h⟩ := keepsTo_downloadSelected path s'
    exact ⟨agenda, hcontent, h.removingOnFailure path⟩
  have hdownload : ∃ agenda, P agenda ∧ s.KeepsTo agenda ((download flight path).perform s) := by
    refine KeepsTo.exists_aside_bind hP (.poll s) fun _ s₁ _ => ?_
    refine Exists.elim (KeepsTo.exists_bind Agenda.isContent_nil
      (keepsTo_selectRecord flight.index s₁) fun type s₂ _ => ?_)
        fun content h => ⟨_, ⟨content, h.1, rfl⟩, h.2⟩
    split
    · exact KeepsTo.exists_aside_bind Agenda.isContent_nil (.refl s₂) fun _ s₃ _ => hbehind s₃
    · exact hbehind s₂
  obtain ⟨_, ⟨content, hcontent, rfl⟩, h⟩ := hdownload
  exact ⟨content, hcontent, h⟩

/-! ## What the device makes of it -/

theorem consistent_of_mem_numbered {sequence : UInt16} {agenda : Agenda}
    (h : ∀ item ∈ agenda, item.2.length ≤ maxPayloadSize) :
    ∀ f ∈ numbered sequence agenda, f.Consistent := by
  induction agenda generalizing sequence with
  | nil => exact List.forall_mem_nil _
  | cons item agenda ih =>
    obtain ⟨hitem, hrest⟩ := List.forall_mem_cons.mp h
    exact List.forall_mem_cons.mpr ⟨Frame.consistent_build _ _ hitem, ih hrest⟩

/-- **Of a front of the bytes of frames a decoder makes a front of the frames.** -/
theorem acceptedFrames_run_of_prefix {frames : List Frame} {taken : Bytes}
    (hframes : ∀ f ∈ frames, f.Consistent) (h : taken <+: frames.flatMap Frame.encode)
    (state : DecoderState) : acceptedFrames (state.run taken).2 <+: frames := by
  obtain ⟨rest, hrest⟩ := h
  let dispatches : List Dispatch := frames.map fun f => { request := f, taken := f.encode }
  have htaken : dispatches.flatMap Dispatch.taken = frames.flatMap Frame.encode :=
    List.flatMap_map _ _ frames
  have hfronts : ∀ d ∈ dispatches, d.request.Consistent ∧ d.taken <+: d.request.encode := by
    intro d hd
    obtain ⟨f, hf, rfl⟩ := List.mem_map.mp hd
    exact ⟨hframes f hf, List.prefix_refl _⟩
  have hwhole : ∀ d ∈ dispatches, d.IsWhole := by
    intro d hd
    obtain ⟨f, -, rfl⟩ := List.mem_map.mp hd
    rfl
  have hall := (run_dispatches hfronts state).1
  rw [deliveredRequests_of_whole hwhole, htaken, ← hrest, DecoderState.run_append,
    acceptedFrames_append, List.map_map] at hall
  refine ⟨_, hall.trans ?_⟩
  exact List.map_id frames

end FlightRecorder
