import FlightRecorder.Proofs.Device.Conduct
import FlightRecorder.Proofs.Device.Transfer

/-!
# What operations are made of

Every operation is put together from a few steps: the observer is asked or told something, the tree
of files is changed, a request is sent, or a request is sent and its reply waited for. So what holds
of these steps, and of one run behind the other, holds of every operation.

* `Composed` — the runs that are put together from these steps
* `Straight` — those of them that end with their first failure
* `Operation`, `Operation.perform` — the operations of a device
* `Operation.composed` — every operation is put together like that
* `Session.Aside` — nothing was said to the device and nothing heard from it
* `Spanning`, `Composed.leads` — a relation between the sessions before and behind a run
-/

namespace FlightRecorder

open Session

/-! ## Steps -/

/-- The runs that are put together from the steps of operations. -/
inductive Composed : {α : Type} → (Session → α × Session) → Prop
  /-- Nothing is done. -/
  | const {α : Type} (a : α) : Composed fun s => (a, s)
  /-- One run behind the other. -/
  | andThen {α β : Type} {first : Session → α × Session} {next : α → Session → β × Session}
      (hfirst : Composed first) (hnext : ∀ a, Composed (next a)) :
      Composed fun s => next (first s).1 (first s).2
  /-- As many rounds as it takes: on every session a number of rounds is enough. -/
  | rounds {α : Type} {run : Session → α × Session} (within : Nat → Session → α × Session)
      (hwithin : ∀ n, Composed (within n))
      (henough : ∀ s, ∃ n, ∀ m, n ≤ m → within m s = run s) : Composed run
  | poll : Composed poll.perform
  | reportRange (range : Nat) : Composed (reportRange range).perform
  | reportPosition (position : Nat) : Composed (reportPosition position).perform
  | list (flight : Flight) : Composed fun s => ((), s.note (.listed flight))
  | createFile (path : String) : Composed (createFile path).perform
  | store (place : Place) (content : Bytes) : Composed (Action.perform (modify fun s =>
      { s with storage := s.storage.write place content }))
  | remove (path : String) : Composed fun s => ((), { s with storage := s.storage.remove path })
  | request (type : MessageType) {payload : Bytes} (hsize : payload.length ≤ maxPayloadSize) :
      Composed (request type payload).perform
  | exchange (type : MessageType) {payload : Bytes} (timeout : Settings → Nat)
      (hsize : payload.length ≤ maxPayloadSize) : Composed (exchange type payload timeout).perform

namespace Composed

variable {α β : Type}

theorem congr {run run' : Session → α × Session} (h : Composed run) (heq : ∀ s, run' s = run s) :
    Composed run' := by
  rw [funext heq]
  exact h

end Composed

/-! ## Actions -/

/-- What comes behind an action, with the action's result. -/
def Action.thenPerform {α β : Type} (second : α → Action β) :
    Except Failure α → Session → Except Failure β × Session
  | .ok a => (second a).perform
  | .error failure => fun s => (.error failure, s)

theorem Action.perform_bind_eq {α β : Type} (first : Action α) (second : α → Action β)
    (s : Session) :
    Action.perform (first >>= second) s
      = thenPerform second (first.perform s).1 (first.perform s).2 := by
  rw [perform_bind]
  rcases first.perform s with ⟨_ | _, s'⟩ <;> rfl

/-- The runs that are put together from these steps and end with their first failure. -/
inductive Straight : {α : Type} → (Session → Except Failure α × Session) → Prop
  | const {α : Type} (result : Except Failure α) : Straight fun s => (result, s)
  | andThen {α β : Type} {first : Session → Except Failure α × Session}
      {next : Except Failure α → Session → Except Failure β × Session} (hfirst : Straight first)
      (hfailed : ∀ failure s, next (.error failure) s = (.error failure, s))
      (hnext : ∀ a, Straight (next (.ok a))) : Straight fun s => next (first s).1 (first s).2
  | rounds {α : Type} {run : Session → Except Failure α × Session}
      (within : Nat → Session → Except Failure α × Session) (hwithin : ∀ n, Straight (within n))
      (henough : ∀ s, ∃ n, ∀ m, n ≤ m → within m s = run s) : Straight run
  | poll : Straight poll.perform
  | reportRange (range : Nat) : Straight (reportRange range).perform
  | reportPosition (position : Nat) : Straight (reportPosition position).perform
  | createFile (path : String) : Straight (createFile path).perform
  | store (place : Place) (content : Bytes) : Straight (Action.perform (modify fun s =>
      { s with storage := s.storage.write place content }))
  | removingOnFailure {α : Type} {action : Action α} (path : String)
      (h : Straight action.perform) : Straight (action.removingOnFailure path).perform
  | request (type : MessageType) {payload : Bytes} (hsize : payload.length ≤ maxPayloadSize) :
      Straight (request type payload).perform
  | exchange (type : MessageType) {payload : Bytes} (timeout : Settings → Nat)
      (hsize : payload.length ≤ maxPayloadSize) : Straight (exchange type payload timeout).perform

section Actions

variable {α β : Type}

theorem Straight.congr {run run' : Session → Except Failure α × Session} (h : Straight run)
    (heq : ∀ s, run' s = run s) : Straight run' := by
  rw [funext heq]
  exact h

theorem straight_pure (a : α) : Straight (Action.perform (pure a)) := .const _

theorem straight_throw (failure : Failure) :
    Straight (Action.perform (throw failure : Action α)) := .const _

theorem straight_ofResult (result : Except Failure α) :
    Straight (Action.perform (.ofResult result)) := .const _

theorem Straight.bind {first : Action α} {second : α → Action β} (h1 : Straight first.perform)
    (h2 : ∀ a, Straight (second a).perform) : Straight (Action.perform (first >>= second)) := by
  have hfailed : ∀ failure s, Action.thenPerform second (.error failure) s = (.error failure, s) :=
    fun _ _ => rfl
  have hnext : ∀ a, Straight (Action.thenPerform second (.ok a)) := h2
  exact (h1.andThen hfailed hnext).congr (Action.perform_bind_eq first second)

/-- **What ends with its first failure is put together from these steps.** -/
theorem Straight.composed {run : Session → Except Failure α × Session} (h : Straight run) :
    Composed run := by
  induction h with
  | const result => exact .const result
  | @andThen α β first next hfirst hfailed hnext ih ihnext =>
    refine ih.andThen fun result => ?_
    cases result with
    | ok a => exact ihnext a
    | error failure => exact (Composed.const (Except.error failure)).congr (hfailed failure)
  | rounds within hwithin henough ih => exact .rounds within ih henough
  | poll => exact .poll
  | reportRange range => exact .reportRange range
  | reportPosition position => exact .reportPosition position
  | createFile path => exact .createFile path
  | store place content => exact .store place content
  | @removingOnFailure α action path h ih =>
    let next : Except Failure α → Session → Except Failure α × Session
      | .ok a => fun s => (.ok a, s)
      | .error failure => fun s => (.error failure, { s with storage := s.storage.remove path })
    have hnext : ∀ result, Composed (next result) := by
      intro result
      cases result with
      | ok a => exact .const _
      | error failure => exact (Composed.remove path).andThen fun _ => .const (Except.error failure)
    refine (ih.andThen hnext).congr fun s => ?_
    rw [Action.removingOnFailure, Action.perform_ofPerform]
    rcases action.perform s with ⟨_ | _, s'⟩ <;> rfl
  | request type hsize => exact .request type hsize
  | exchange type timeout hsize => exact .exchange type timeout hsize

theorem composed_pure (a : α) : Composed (Action.perform (pure a)) := .const _

theorem composed_throw (failure : Failure) :
    Composed (Action.perform (throw failure : Action α)) := .const _

theorem Composed.bind {first : Action α} {second : α → Action β} (h1 : Composed first.perform)
    (h2 : ∀ a, Composed (second a).perform) : Composed (Action.perform (first >>= second)) := by
  have hnext : ∀ result, Composed (Action.thenPerform second result) := by
    intro result
    cases result with
    | ok a => exact h2 a
    | error failure => exact .const _
  exact (h1.andThen hnext).congr (Action.perform_bind_eq first second)

theorem Composed.attempt {action : Action α} (h : Composed action.perform) :
    Composed action.attempt.perform := by
  let next (result : Except Failure α) (s : Session) : Except Failure (Option α) × Session :=
    (.ok result.toOption, s)
  have hnext : ∀ result, Composed (next result) := fun _ => .const _
  exact (h.andThen hnext).congr fun s => Action.perform_attempt_of_perform rfl

end Actions

/-! ## Control operations -/

theorem length_singleton_le (byte : UInt8) : [byte].length ≤ maxPayloadSize := by
  show 1 ≤ maxPayloadSize
  decide

theorem straight_ping : Straight ping.perform := by
  refine .bind (.exchange _ _ (Nat.zero_le _)) fun reply => ?_
  split
  · exact straight_throw _
  · exact straight_pure _

theorem straight_exitBinaryMode : Straight exitBinaryMode.perform :=
  .bind (.request _ (Nat.zero_le _)) fun _ => straight_pure _

theorem straight_selectRecord (index : UInt8) : Straight (selectRecord index).perform :=
  .bind (.exchange _ _ (length_singleton_le index)) fun _ => straight_pure _

theorem straight_readInfo (index : UInt8) : Straight (readInfo index).perform :=
  .bind (.exchange _ _ (Nat.zero_le _)) fun _ => straight_ofResult _

/-! ## Listing -/

theorem composed_findRecord (index : UInt8) : Composed (findRecord index).perform := by
  refine .bind (.reportPosition _) fun _ => .bind .poll fun _ =>
    .bind (straight_selectRecord index).composed fun type => ?_
  split
  · exact composed_pure _
  split
  · refine .bind .poll fun _ => .bind (straight_readInfo index).composed.attempt fun flight? =>
      .bind .poll fun _ => ?_
    cases flight? with
    | some flight => exact composed_pure _
    | none => exact composed_pure _
  · exact composed_throw _

/-- How the listing of the records that are left ends, with the list, and the session behind it. -/
def listing (left : Nat) (list : FlightList) (s : Session) :
    (Except Failure Unit × FlightList) × Session :=
  (((listFrom left list s).1, (listFrom left list s).2.1), (listFrom left list s).2.2)

/-- What the listing does with what it has found. -/
def listingBehind (left : Nat) (list : FlightList) :
    Except Failure Finding → Session → (Except Failure Unit × FlightList) × Session
  | .error failure => fun s => ((.error failure, list), s)
  | .ok .nothing => fun s => ((.ok (), list), s)
  | .ok .unreadable => listing left list
  | .ok (.described flight) =>
    match list.push flight with
    | .ok list' => fun s => listing left list' (s.note (.listed flight))
    | .error _ => fun s => ((.ok (), list), s)

theorem listing_succ {left : Nat} {list : FlightList} (h : ¬ list.isFull) (s : Session) :
    listing (left + 1) list s
      = listingBehind left list
          ((findRecord (UInt8.ofNat (recordCount - (left + 1)))).perform s).1
          ((findRecord (UInt8.ofNat (recordCount - (left + 1)))).perform s).2 := by
  rw [listing, listFrom, if_neg h]
  rcases (findRecord (UInt8.ofNat (recordCount - (left + 1)))).perform s with
    ⟨_ | _ | _ | flight, s'⟩
  · rfl
  · rfl
  · rfl
  · rw [listingBehind]
    dsimp only
    cases list.push flight <;> rfl

/-- **The listing of the records that are left.** -/
theorem composed_listing (left : Nat) (list : FlightList) : Composed (listing left list) := by
  induction left generalizing list with
  | zero => exact .const ((.ok (), list) : Except Failure Unit × FlightList)
  | succ left ih =>
    by_cases hfull : list.isFull
    · have hrun : ∀ s, listing (left + 1) list s = ((.ok (), list), s) := by
        intro s
        rw [listing, listFrom, if_pos hfull]
      exact (Composed.const _).congr hrun
    · refine (Composed.andThen (composed_findRecord _) fun result => ?_).congr (listing_succ hfull)
      rcases result with _ | _ | _ | flight
      · exact .const _
      · exact .const _
      · exact ih list
      · rw [listingBehind]
        cases list.push flight with
        | ok list' => exact .andThen (.list flight) fun _ => ih list'
        | error _ => exact .const _

/-! ## Downloading -/

theorem straight_nextChunk : Straight nextChunk.perform :=
  .bind .poll fun _ => .bind (.exchange _ _ (Nat.zero_le _)) fun _ => .bind .poll fun _ =>
    .bind (straight_ofResult _) fun _ => .bind (.reportPosition _) fun _ => straight_pure _

theorem straight_saving (w : FileWriter) :
    Straight (Action.perform (modify (·.saving w) : Action PUnit)) :=
  .store w.place w.written.toList

theorem straight_appendChunk (w : FileWriter) : Straight (appendChunk w).perform :=
  .bind straight_nextChunk fun _ => .bind (straight_saving _) fun _ => straight_pure _

/-- What a transfer does behind a piece, if it goes on in this way. -/
def transferBehind (goOn : FileWriter → Session → Except Failure FileWriter × Session) :
    Except Failure (FileWriter × Bool) → Session → Except Failure FileWriter × Session
  | .error failure => fun s => (.error failure, s)
  | .ok (w, isLast) => if isLast then fun s => (.ok w, s) else goOn w

/-- A transfer that is given up after so many pieces. -/
def transferWithin : Nat → FileWriter → Session → Except Failure FileWriter × Session
  | 0, _ => fun s => (.error .timeout, s)
  | rounds + 1, w => fun s =>
    transferBehind (transferWithin rounds) ((appendChunk w).perform s).1
      ((appendChunk w).perform s).2

theorem straight_transferWithin (rounds : Nat) (w : FileWriter) :
    Straight (transferWithin rounds w) := by
  induction rounds generalizing w with
  | zero => exact .const _
  | succ rounds ih =>
    refine .andThen (straight_appendChunk w) (fun _ _ => rfl) fun ⟨w', isLast⟩ => ?_
    rw [transferBehind]
    split
    · exact .const _
    · exact ih w'

/-- Every piece uses up some of what the session can still receive, so no transfer takes more pieces
than that. -/
theorem transferWithin_of_pending_lt {rounds : Nat} {s : Session} (h : s.pending < rounds)
    (w : FileWriter) : transferWithin rounds w s = transferFrom w s := by
  induction rounds generalizing s w with
  | zero => exact absurd h (Nat.not_lt_zero _)
  | succ rounds ih =>
    have hspends := spends_appendChunk w s
    rw [transferFrom_eq]
    show transferBehind (transferWithin rounds) ((appendChunk w).perform s).1
      ((appendChunk w).perform s).2 = _
    generalize (appendChunk w).perform s = received at hspends ⊢
    obtain ⟨_ | ⟨w', isLast⟩, s'⟩ := received
    · rfl
    · have hless : s'.pending < s.pending := hspends (w', isLast) rfl
      dsimp only
      rw [transferBehind]
      split
      · rfl
      · exact ih (by omega) _

/-- **The transfer of the content.** -/
theorem straight_transferFrom (w : FileWriter) : Straight (transferFrom w) := by
  refine .rounds (transferWithin · w) (straight_transferWithin · w) fun s => ?_
  exact ⟨s.pending + 1, fun m hm => transferWithin_of_pending_lt (by omega) w⟩

theorem straight_downloadSelected (path : String) : Straight (downloadSelected path).perform :=
  .bind .poll fun _ => .bind (.createFile path) fun _ => .bind (.reportRange _) fun _ =>
    .bind (straight_transferFrom _) fun _ => straight_saving _

theorem straight_download (flight : Flight) (path : String) :
    Straight (download flight path).perform := by
  refine .bind .poll fun _ => .bind (straight_selectRecord _) fun type => ?_
  split
  · exact .bind (straight_throw _) fun _ => .bind .poll fun _ =>
      .removingOnFailure path (straight_downloadSelected path)
  · exact .bind .poll fun _ => .removingOnFailure path (straight_downloadSelected path)

/-! ## Operations -/

/-- What can be asked of a device. -/
inductive Operation
  | ping
  | exitBinaryMode
  | selectRecord (index : UInt8)
  | readInfo (index : UInt8)
  | listRecords (list : FlightList)
  | downloadSelected (path : String)
  | download (flight : Flight) (path : String)

/-- How an operation ends. -/
inductive Outcome
  | done (result : Except Failure Unit)
  | selected (result : Except Failure MessageType)
  | described (result : Except Failure Flight)
  | listed (result : Except Failure Unit) (list : FlightList)

/-- Runs an action; its result is an outcome. -/
def Action.yielding {α : Type} (action : Action α) (outcome : Except Failure α → Outcome)
    (s : Session) : Outcome × Session :=
  (outcome (action.perform s).1, (action.perform s).2)

/-- Runs an operation. -/
def Operation.perform : Operation → Session → Outcome × Session
  | ping => FlightRecorder.ping.yielding .done
  | exitBinaryMode => FlightRecorder.exitBinaryMode.yielding .done
  | selectRecord index => (FlightRecorder.selectRecord index).yielding .selected
  | readInfo index => (FlightRecorder.readInfo index).yielding .described
  | listRecords list => fun s =>
    let (result, list', s') := FlightRecorder.listRecords list s
    (.listed result list', s')
  | downloadSelected path => (FlightRecorder.downloadSelected path).yielding .done
  | download flight path => (FlightRecorder.download flight path).yielding .done

theorem Composed.yielding {α : Type} {action : Action α} (h : Composed action.perform)
    (outcome : Except Failure α → Outcome) : Composed (action.yielding outcome) :=
  .andThen h fun result => .const (outcome result)

theorem composed_listRecords (list : FlightList) :
    Composed (Operation.listRecords list).perform := by
  have hlist := (Composed.reportRange listRange).andThen fun _ => composed_listing recordCount list
  exact (hlist.andThen fun result => .const (Outcome.listed result.1 result.2)).congr fun _ => rfl

/-- **Every operation is put together from these steps.** -/
theorem Operation.composed (op : Operation) : Composed op.perform := by
  cases op with
  | ping => exact straight_ping.composed.yielding _
  | exitBinaryMode => exact straight_exitBinaryMode.composed.yielding _
  | selectRecord index => exact (straight_selectRecord index).composed.yielding _
  | readInfo index => exact (straight_readInfo index).composed.yielding _
  | listRecords list => exact composed_listRecords list
  | downloadSelected path => exact (straight_downloadSelected path).composed.yielding _
  | download flight path => exact (straight_download flight path).composed.yielding _

/-! ## Relations between before and behind -/

/-- What is noted while neither something is said to the device nor heard from it. -/
def Event.IsAside : Event → Prop
  | polled _ => True
  | rangeReported _ => True
  | positionReported _ => True
  | listed _ => True
  | created _ => True
  | _ => False

/-- Between two sessions nothing was said to the device and nothing was heard from it. -/
structure Session.Aside (s s' : Session) : Prop where
  clock : s'.clock = s.clock
  incoming : s'.incoming = s.incoming
  outgoing : s'.outgoing = s.outgoing
  settings : s'.settings = s.settings
  decoder : s'.decoder = s.decoder
  nextSequence : s'.nextSequence = s.nextSequence
  adds : s.Adds Event.IsAside s'

namespace Session.Aside

variable {s s' : Session}

theorem refl (s : Session) : s.Aside s := ⟨rfl, rfl, rfl, rfl, rfl, rfl, .refl _ s⟩

theorem poll (s : Session) : s.Aside (poll.perform s).2 := by
  rw [FlightRecorder.poll, Action.perform_ofPerform]
  dsimp only
  split <;> exact ⟨rfl, rfl, rfl, rfl, rfl, rfl, .of_note rfl trivial⟩

theorem createFile (path : String) (s : Session) : s.Aside ((createFile path).perform s).2 := by
  rw [FlightRecorder.createFile, Action.perform_ofPerform]
  split
  · exact refl s
  · exact ⟨rfl, rfl, rfl, rfl, rfl, rfl, .of_note rfl trivial⟩

theorem reportRange (range : Nat) (s : Session) : s.Aside ((reportRange range).perform s).2 :=
  ⟨rfl, rfl, rfl, rfl, rfl, rfl, .of_note rfl trivial⟩

theorem reportPosition (position : Nat) (s : Session) :
    s.Aside ((reportPosition position).perform s).2 :=
  ⟨rfl, rfl, rfl, rfl, rfl, rfl, .of_note rfl trivial⟩

theorem storing (s : Session) (storage : Storage) : s.Aside { s with storage := storage } :=
  ⟨rfl, rfl, rfl, rfl, rfl, rfl, .refl _ s⟩

end Session.Aside

/-- A relation between sessions that holds of the sessions before and behind every step of an
operation, and of one step behind the other. -/
structure Spanning (R : Session → Session → Prop) : Prop where
  trans : ∀ {s s' s''}, R s s' → R s' s'' → R s s''
  aside : ∀ {s s'}, s.Aside s' → R s s'
  request : ∀ type {payload : Bytes}, payload.length ≤ maxPayloadSize →
    (request type payload).Leads R
  exchange : ∀ type {payload : Bytes} timeout, payload.length ≤ maxPayloadSize →
    (exchange type payload timeout).Leads R

/-- **What spans the steps of operations spans everything that is put together from them.** -/
theorem Composed.leads {R : Session → Session → Prop} {α : Type} {run : Session → α × Session}
    (h : Composed run) (hR : Spanning R) (s : Session) : R s (run s).2 := by
  induction h generalizing s with
  | const a => exact hR.aside (.refl s)
  | andThen hfirst hnext ih ihnext => exact hR.trans (ih s) (ihnext _ _)
  | rounds within hwithin henough ih =>
    obtain ⟨n, hn⟩ := henough s
    rw [← hn n (Nat.le_refl n)]
    exact ih n s
  | poll => exact hR.aside (.poll s)
  | reportRange range => exact hR.aside (.reportRange range s)
  | reportPosition position => exact hR.aside (.reportPosition position s)
  | list flight => exact hR.aside ⟨rfl, rfl, rfl, rfl, rfl, rfl, .of_note rfl trivial⟩
  | createFile path => exact hR.aside (.createFile path s)
  | store place content => exact hR.aside (.storing s _)
  | remove path => exact hR.aside (.storing s _)
  | request type hsize => exact hR.request type hsize s
  | exchange type timeout hsize => exact hR.exchange type timeout hsize s

end FlightRecorder
