import FlightRecorder.CommandLine.Run
import FlightRecorder.Proofs.Device.Agenda

/-!
# How much time operations take

The clock goes on in two places only. A link that stalls under a piece of a request holds it up
until the timeout of the piece, and that ends the request, so the timeouts of its pieces do not add
up. A wait for a reply goes on until its deadline at most, and what is received and dropped does not
move that deadline. So a request with its answer takes no longer than one timeout, and an operation no
longer than its requests.

* `Prompt`, `clock_request` — sending takes time only if it times out
* `clock_awaitFrom_of_timeout` — a wait that times out does so at its deadline
* `Session.ExchangeTime` — one request with its answer
* `Session.Spends`, `OnTime` — how much time a run takes, some of it paid for by requests
* `onTime_exchange_control`, `onTime_exchange_content` — what pays for it
* `spends_listing`, `onTime_transferFrom` — the loops
* `operations_keep_time` — every operation
-/

namespace FlightRecorder

open Session

/-! ## Sending -/

/-- When something ends that takes no time unless it times out. -/
def endOfSending {α : Type} (began timeout : Nat) : Except Failure α → Nat
  | .error .timeout => began + timeout
  | _ => began

/-- A run that takes no time unless it times out. -/
def Prompt {α : Type} (timeout : Nat) (run : Session → Except Failure α × Session) : Prop :=
  ∀ s, (run s).2.clock = endOfSending s.clock timeout (run s).1

theorem endOfSending_le {α : Type} (began timeout : Nat) (result : Except Failure α) :
    endOfSending began timeout result ≤ began + timeout := by
  unfold endOfSending
  split <;> omega

section Sending

variable {α β : Type} {timeout : Nat}

theorem prompt_pure (a : α) : Prompt timeout (Action.perform (pure a)) := fun _ => rfl

/-- What comes behind a part that took no time begins where that part began. -/
theorem Prompt.bind {first : Action α} {second : α → Action β} (h1 : Prompt timeout first.perform)
    (h2 : ∀ a, Prompt timeout (second a).perform) :
    Prompt timeout (Action.perform (first >>= second)) := by
  intro s
  have hfirst := h1 s
  rcases Action.perform_bind_cases first second s with ⟨failure, s', hp, heq⟩ | ⟨a, s', hp, heq⟩
  · rw [hp] at hfirst
    rw [heq]
    cases failure <;> exact hfirst
  · rw [hp] at hfirst
    have hclock : s'.clock = s.clock := hfirst
    rw [heq, ← hclock]
    exact h2 a s'

theorem prompt_transmit (bytes : Bytes) : Prompt timeout (transmit bytes timeout).perform := by
  intro s
  rw [transmit, Action.perform_ofPerform]
  dsimp only
  split
  · split <;> rfl
  all_goals rfl

end Sending

/-- **A request takes no time unless it times out**, however many pieces it is sent in. -/
theorem clock_request (type : MessageType) (payload : Bytes) (s : Session) :
    ((request type payload).perform s).2.clock
      = endOfSending s.clock s.settings.controlTimeout ((request type payload).perform s).1 := by
  let f := Frame.build s.nextSequence type payload
  have hpieces : Prompt s.settings.controlTimeout (Action.perform do
      transmit [startByte] s.settings.controlTimeout
      transmit (stuff f.header.toBytes) s.settings.controlTimeout
      if f.payload ≠ [] then transmit (stuff f.payload) s.settings.controlTimeout
      pure f.header.sequence) := by
    refine (prompt_transmit _).bind fun _ => (prompt_transmit _).bind fun _ => ?_
    split
    · exact (prompt_transmit _).bind fun _ => prompt_pure _
    · exact prompt_pure _
  rw [perform_request]
  exact hpieces (s.issuing f)

theorem settings_request (type : MessageType) (payload : Bytes) (s : Session) :
    ((request type payload).perform s).2.settings = s.settings :=
  leads_request (R := fun s s' => s'.settings = s.settings) (fun _ => rfl)
    (fun h h' => h'.trans h) (fun _ _ => rfl)
    (leads_transmit (fun h h' => h'.trans h) (fun _ _ _ => rfl) (fun _ _ => rfl)) type payload s

/-! ## Waiting -/

theorem clock_of_receive_timedOut {deadline now clock : Nat} {incoming rest : List Arrival}
    (h : receive deadline now incoming = (.timedOut, clock, rest)) : clock = deadline := by
  fun_induction receive deadline now incoming with
  | case1 => cases h; rfl
  | case2 now rest ih => exact ih h
  | case3 => cases h
  | case4 now duration rest _ ih => exact ih h
  | case5 => cases h; rfl
  | case6 now moment rest _ ih => exact ih h
  | case7 => cases h; rfl
  | case8 => cases h
  | case9 => cases h

/-- **A wait that times out does so at its deadline**, whatever was dropped before. -/
theorem clock_awaitFrom_of_timeout {sequence : UInt16} {deadline : Nat} {s : Session}
    (h : (awaitFrom sequence deadline s).1 = .error .timeout) :
    (awaitFrom sequence deadline s).2.clock = deadline := by
  fun_induction awaitFrom sequence deadline s with
  | case1 => cases h
  | case2 s verdict ready hr hv ih => exact ih h
  | case3 s hr bytes clock incoming hb ih => exact ih h
  | case4 => cases h
  | case5 => cases h
  | case6 s hr clock incoming hb => exact clock_of_receive_timedOut hb

/-- How long a request took with its answer: until it was given up if the link held it up, and else
as long as the wait. -/
structure Session.ExchangeTime (s : Session) (timeout : Nat)
    (ending : Except Failure Reply × Session) : Prop where
  settings : ending.2.settings = s.settings
  clock_le : ending.2.clock ≤ s.clock + max s.settings.controlTimeout timeout
  clock_le_of_ok : ∀ reply, ending.1 = .ok reply → ending.2.clock ≤ s.clock + timeout
  clock_of_timeout : ending.1 = .error .timeout →
    ending.2.clock = s.clock + s.settings.controlTimeout ∨ ending.2.clock = s.clock + timeout

/-- **A request with its answer takes one timeout**, not one after the other. -/
theorem exchangeTime_exchange (type : MessageType) (payload : Bytes) (timeout : Settings → Nat)
    (s : Session) :
    s.ExchangeTime (timeout s.settings) ((exchange type payload timeout).perform s) := by
  have hclock := clock_request type payload s
  have hsettings := settings_request type payload s
  rcases perform_exchange_cases type payload timeout s with
    ⟨failure, s', hrequest, hexchange⟩ | ⟨sequence, s', hrequest, hexchange⟩
  · rw [hrequest] at hclock hsettings
    rw [hexchange]
    have hended : s'.clock ≤ s.clock + s.settings.controlTimeout :=
      Nat.le_trans (Nat.le_of_eq hclock) (endOfSending_le _ _ _)
    constructor
    case settings => exact hsettings
    case clock_le => exact Nat.le_trans hended (Nat.add_le_add_left (Nat.le_max_left _ _) _)
    case clock_le_of_ok =>
      intro reply hok
      cases hok
    case clock_of_timeout =>
      intro htimeout
      cases htimeout
      exact .inl hclock
  · -- The request took no time, so the wait begins where the request began.
    rw [hrequest] at hclock hsettings
    have hbegan : s'.clock = s.clock := hclock
    have hkept : s'.settings = s.settings := hsettings
    rw [hexchange, hbegan, hkept]
    have hwait : (awaitFrom sequence (s.clock + timeout s.settings) s').2.clock
        ≤ s.clock + timeout s.settings :=
      (clock_awaitFrom_le (hbegan ▸ Nat.le_add_right _ _)).2
    constructor
    case settings => exact (listened_awaitFrom _ _ s').settings.trans hkept
    case clock_le => exact Nat.le_trans hwait (Nat.add_le_add_left (Nat.le_max_right _ _) _)
    case clock_le_of_ok => exact fun _ _ => hwait
    case clock_of_timeout => exact fun htimeout => .inr (clock_awaitFrom_of_timeout htimeout)

/-! ## Budgets -/

/-- How many of the requests that were issued in a stretch of history ask for content. -/
def contentRequestCount (history : List Event) : Nat :=
  (issuedRequests history).countP (·.messageType = .getIgcData)

theorem contentRequestCount_append (first second : List Event) :
    contentRequestCount (first ++ second)
      = contentRequestCount first + contentRequestCount second := by
  rw [contentRequestCount, issuedRequests_append, List.countP_append]
  rfl

/-- Between two sessions at most so much time passed, beyond a price for every request for content
that was issued. -/
structure Session.Spends (s : Session) (price limit : Nat) (s' : Session) : Prop where
  settings : s'.settings = s.settings
  within : s'.clock + price * contentRequestCount s.history
    ≤ s.clock + price * contentRequestCount s'.history + limit

namespace Session.Spends

variable {s s' s'' : Session} {price limit limit' : Nat}

theorem mono (h : s.Spends price limit s') (hle : limit ≤ limit') : s.Spends price limit' s' :=
  ⟨h.settings, Nat.le_trans h.within (Nat.add_le_add_left hle _)⟩

theorem trans (h : s.Spends price limit s') (h' : s'.Spends price limit' s'') :
    s.Spends price (limit + limit') s'' where
  settings := h'.settings.trans h.settings
  within := by
    have h1 := h.within
    have h2 := h'.within
    omega

/-- Nothing is spent while no time passes and no request is issued. -/
theorem of_aside (h : s.Aside s') : s.Spends price 0 s' where
  settings := h.settings
  within := by
    have hissued : issuedRequests s'.history = issuedRequests s.history :=
      (Unnumbered.of_aside h).issued
    rw [h.clock, contentRequestCount, contentRequestCount, hissued]
    exact Nat.le_refl _

/-- Without a price only the time counts. -/
theorem free_iff : s.Spends 0 limit s' ↔
    s'.settings = s.settings ∧ s'.clock ≤ s.clock + limit := by
  constructor
  · intro h
    have hwithin := h.within
    exact ⟨h.settings, by omega⟩
  · rintro ⟨hsettings, hclock⟩
    exact ⟨hsettings, by omega⟩

/-- What was spent by the end of a stretch of history that goes on with an earlier one. -/
theorem clock_le (h : s.Spends price limit s') {events : List Event}
    (hhistory : s'.history = s.history ++ events) :
    s'.clock ≤ s.clock + contentRequestCount events * price + limit := by
  have hwithin := h.within
  rw [hhistory, contentRequestCount_append, Nat.mul_add, Nat.mul_comm price _,
    Nat.mul_comm price _] at hwithin
  omega

end Session.Spends

/-- A run that begins here and ends so spends this much at most, depending on whether it fails. -/
def Session.SpendsFor {ε α : Type} (s : Session) (price failed gave : Nat) :
    Except ε α × Session → Prop
  | (.error _, s') => s.Spends price failed s'
  | (.ok _, s') => s.Spends price gave s'

/-- Under these settings a run spends this much at most, depending on whether it fails. -/
def OnTime {ε α : Type} (settings : Settings) (price failed gave : Nat)
    (run : Session → Except ε α × Session) : Prop :=
  ∀ s : Session, s.settings = settings → s.SpendsFor price failed gave (run s)

section Rules

variable {ε α β : Type} {s s' : Session} {settings : Settings}
  {price failed gave failed' gave' limit : Nat}

theorem Session.SpendsFor.mono {ending : Except ε α × Session}
    (h : s.SpendsFor price failed gave ending) (hfailed : failed ≤ failed') (hgave : gave ≤ gave') :
    s.SpendsFor price failed' gave' ending := by
  obtain ⟨_ | _, s'⟩ := ending
  · exact Spends.mono h hfailed
  · exact Spends.mono h hgave

/-- What comes behind a part of a run is added to it. -/
theorem Session.SpendsFor.after {ending : Except ε α × Session} (h : s.Spends price gave s')
    (h' : s'.SpendsFor price failed' gave' ending) :
    s.SpendsFor price (gave + failed') (gave + gave') ending := by
  obtain ⟨_ | _, s''⟩ := ending
  · exact Spends.trans h h'
  · exact Spends.trans h h'

/-- However it ends, it does not spend more. -/
theorem Session.SpendsFor.spends {ending : Except ε α × Session}
    (h : s.SpendsFor price limit limit ending) : s.Spends price limit ending.2 := by
  obtain ⟨_ | _, s'⟩ := ending
  · exact h
  · exact h

theorem OnTime.mono {run : Session → Except ε α × Session}
    (h : OnTime settings price failed gave run) (hfailed : failed ≤ failed')
    (hgave : gave ≤ gave') : OnTime settings price failed' gave' run :=
  fun s hs => (h s hs).mono hfailed hgave

/-- **One action behind the other**: the second one is not begun if the first one fails. -/
theorem OnTime.bind {first : Action α} {second : α → Action β}
    (h1 : OnTime settings price failed gave first.perform)
    (h2 : ∀ a, OnTime settings price failed' gave' (second a).perform) :
    OnTime settings price (max failed (gave + failed')) (gave + gave')
      (Action.perform (first >>= second)) := by
  intro s hs
  have hfirst := h1 s hs
  rcases Action.perform_bind_cases first second s with ⟨failure, s', hp, heq⟩ | ⟨a, s', hp, heq⟩
  · rw [hp] at hfirst
    rw [heq]
    exact Spends.mono hfirst (Nat.le_max_left _ _)
  · rw [hp] at hfirst
    rw [heq]
    have hkept : s'.settings = settings := (Spends.settings hfirst).trans hs
    exact (SpendsFor.after hfirst (h2 a s' hkept)).mono (Nat.le_max_right _ _) (Nat.le_refl _)

theorem onTime_of_aside {run : Session → Except ε α × Session}
    (h : ∀ s : Session, s.Aside (run s).2) : OnTime settings price 0 0 run := by
  intro s _
  have hs : s.Spends price 0 (run s).2 := .of_aside (h s)
  rcases hrun : run s with ⟨_ | _, s'⟩
  · rw [hrun] at hs
    exact hs
  · rw [hrun] at hs
    exact hs

theorem onTime_pure (a : α) : OnTime settings price 0 0 (Action.perform (pure a)) :=
  onTime_of_aside fun s => .refl s

theorem onTime_throw (failure : Failure) :
    OnTime settings price 0 0 (Action.perform (throw failure : Action α)) :=
  onTime_of_aside fun s => .refl s

theorem onTime_ofResult (result : Except Failure α) :
    OnTime settings price 0 0 (Action.perform (.ofResult result)) :=
  onTime_of_aside fun s => .refl s

theorem onTime_poll : OnTime settings price 0 0 poll.perform := onTime_of_aside .poll

theorem onTime_reportPosition (position : Nat) :
    OnTime settings price 0 0 (reportPosition position).perform :=
  onTime_of_aside (.reportPosition position)

/-- A failure that is a result like any other takes no less time. -/
theorem OnTime.attempt {action : Action α} (h : OnTime settings price limit limit action.perform) :
    OnTime settings price 0 limit action.attempt.perform := by
  intro s hs
  have hattempt : action.attempt.perform s
      = (.ok (action.perform s).1.toOption, (action.perform s).2) :=
    Action.perform_attempt_of_perform rfl
  rw [hattempt]
  exact (h s hs).spends

end Rules

/-! ## Requests -/

section Requests

variable {settings : Settings}

/-- **A request for no data with its answer** takes no longer than the control timeout. -/
theorem onTime_exchange_control (type : MessageType) (payload : Bytes) :
    OnTime settings 0 settings.controlTimeout settings.controlTimeout
      (exchange type payload (·.controlTimeout)).perform := by
  rintro s rfl
  have htime := exchangeTime_exchange type payload (·.controlTimeout) s
  have hclock := htime.clock_le
  rw [Nat.max_self] at hclock
  have hspends : s.Spends 0 s.settings.controlTimeout
      ((exchange type payload (·.controlTimeout)).perform s).2 :=
    Spends.free_iff.mpr ⟨htime.settings, hclock⟩
  generalize (exchange type payload (·.controlTimeout)).perform s = ending at hspends ⊢
  obtain ⟨_ | _, s'⟩ := ending <;> exact hspends

/-- **A request for content with its answer** is paid for by being issued. If it fails, it may have
been held up by the link instead. -/
theorem onTime_exchange_content :
    OnTime settings settings.dataTimeout settings.controlTimeout 0
      (exchange .getIgcData [] (·.dataTimeout)).perform := by
  rintro s rfl
  have htime := exchangeTime_exchange .getIgcData [] (·.dataTimeout) s
  have hissued : contentRequestCount ((exchange .getIgcData [] (·.dataTimeout)).perform s).2.history
      = contentRequestCount s.history + 1 := by
    have hnumbered := Session.Issues.issuedRequests_eq
      (.exchanged (s := s) .getIgcData [] (·.dataTimeout))
    rw [contentRequestCount, hnumbered, List.countP_append]
    rfl
  generalize (exchange .getIgcData [] (·.dataTimeout)).perform s = ending at htime hissued ⊢
  obtain ⟨result, s'⟩ := ending
  dsimp only at hissued
  cases result with
  | error failure =>
    have hended : s'.clock ≤ s.clock + max s.settings.controlTimeout s.settings.dataTimeout :=
      htime.clock_le
    refine ⟨htime.settings, ?_⟩
    rw [hissued, Nat.mul_succ]
    omega
  | ok reply =>
    have hended : s'.clock ≤ s.clock + s.settings.dataTimeout := htime.clock_le_of_ok reply rfl
    refine ⟨htime.settings, ?_⟩
    rw [hissued, Nat.mul_succ]
    omega

/-- A request that is not waited for takes no longer than the control timeout either. -/
theorem onTime_request (type : MessageType) (payload : Bytes) :
    OnTime settings 0 settings.controlTimeout 0 (request type payload).perform := by
  rintro s rfl
  have hclock := clock_request type payload s
  have hsettings := settings_request type payload s
  generalize (request type payload).perform s = ending at hclock hsettings ⊢
  obtain ⟨failure | sequence, s'⟩ := ending
  · have hend : s'.clock = endOfSending _ _ (Except.error failure : Except Failure UInt16) := hclock
    exact Spends.free_iff.mpr ⟨hsettings, hend ▸ endOfSending_le _ _ _⟩
  · exact Spends.free_iff.mpr ⟨hsettings, Nat.le_of_eq hclock⟩

end Requests

/-! ## Operations -/

section Operations

variable {settings : Settings}

theorem onTime_ping :
    OnTime settings 0 settings.controlTimeout settings.controlTimeout ping.perform := by
  refine ((onTime_exchange_control _ _).bind fun reply =>
    (?_ : OnTime settings 0 0 0 _)).mono (by omega) (by omega)
  split
  · exact onTime_throw _
  · exact onTime_pure _

theorem onTime_exitBinaryMode :
    OnTime settings 0 settings.controlTimeout settings.controlTimeout exitBinaryMode.perform :=
  ((onTime_request _ _).bind fun _ => onTime_pure _).mono (by omega) (by omega)

theorem onTime_selectRecord (index : UInt8) :
    OnTime settings 0 settings.controlTimeout settings.controlTimeout
      (selectRecord index).perform :=
  ((onTime_exchange_control _ _).bind fun _ => onTime_pure _).mono (by omega) (by omega)

theorem onTime_readInfo (index : UInt8) :
    OnTime settings 0 settings.controlTimeout settings.controlTimeout (readInfo index).perform :=
  ((onTime_exchange_control _ _).bind fun _ => onTime_ofResult _).mono (by omega) (by omega)

/-- **Looking for a record** takes two requests. -/
theorem onTime_findRecord (index : UInt8) :
    OnTime settings 0 (2 * settings.controlTimeout) (2 * settings.controlTimeout)
      (findRecord index).perform := by
  refine ((onTime_reportPosition _).bind fun _ => onTime_poll.bind fun _ =>
    (onTime_selectRecord index).bind fun type =>
      (?_ : OnTime settings 0 settings.controlTimeout settings.controlTimeout _)).mono
        (by omega) (by omega)
  split
  · exact (onTime_pure _).mono (by omega) (by omega)
  split
  · refine (onTime_poll.bind fun _ => (onTime_readInfo index).attempt.bind fun flight? =>
      onTime_poll.bind fun _ => (?_ : OnTime settings 0 0 0 _)).mono (by omega) (by omega)
    cases flight? <;> exact onTime_pure _
  · exact (onTime_throw _).mono (by omega) (by omega)

/-- **Listing the records that are left**, by induction on their number. -/
theorem spends_listing (left : Nat) (list : FlightList) {s : Session} (hs : s.settings = settings) :
    s.Spends 0 (2 * settings.controlTimeout * left) (listing left list s).2 := by
  induction left generalizing list s with
  | zero => exact .of_aside (.refl s)
  | succ left ih =>
    rw [Nat.mul_succ]
    by_cases hfull : list.isFull
    · have hsame : (listing (left + 1) list s).2 = s := by
        rw [listing, listFrom, if_pos hfull]
      rw [hsame]
      exact (Spends.of_aside (.refl s)).mono (Nat.zero_le _)
    · have hfound := onTime_findRecord (UInt8.ofNat (recordCount - (left + 1))) s hs
      rw [listing_succ hfull]
      generalize (findRecord (UInt8.ofNat (recordCount - (left + 1)))).perform s = found at hfound ⊢
      obtain ⟨result, s'⟩ := found
      rcases result with failure | _ | _ | flight
      · exact Spends.mono hfound (by omega)
      · exact Spends.mono hfound (by omega)
      · have hkept : s'.settings = settings := (Spends.settings hfound).trans hs
        exact (Spends.trans hfound (ih list hkept)).mono (by omega)
      · have hkept : s'.settings = settings := (Spends.settings hfound).trans hs
        dsimp only [listingBehind]
        cases list.push flight with
        | error _ => exact Spends.mono hfound (by omega)
        | ok longer =>
          have hlisted : s'.Spends 0 0 (s'.note (.listed flight)) :=
            Spends.free_iff.mpr ⟨rfl, Nat.le_refl _⟩
          exact (Spends.trans hfound (hlisted.trans (ih longer hkept))).mono (by omega)

/-- A piece is paid for by its request, unless it does not arrive. -/
theorem onTime_nextChunk :
    OnTime settings settings.dataTimeout settings.controlTimeout 0 nextChunk.perform :=
  (onTime_poll.bind fun _ => onTime_exchange_content.bind fun _ => onTime_poll.bind fun _ =>
    (onTime_ofResult _).bind fun _ => (onTime_reportPosition _).bind fun _ => onTime_pure _).mono
      (by omega) (by omega)

theorem onTime_saving {cost : Nat} (w : FileWriter) :
    OnTime settings cost 0 0 (Action.perform (modify (·.saving w) : Action PUnit)) :=
  onTime_of_aside fun s => .storing s _

theorem onTime_appendChunk (w : FileWriter) :
    OnTime settings settings.dataTimeout settings.controlTimeout 0 (appendChunk w).perform :=
  (onTime_nextChunk.bind fun _ => (onTime_saving _).bind fun _ => onTime_pure _).mono
    (by omega) (by omega)

/-- **A transfer is paid for by its requests**, by induction on its rounds: only the last one can
fail. -/
theorem onTime_transferFrom (w : FileWriter) :
    OnTime settings settings.dataTimeout settings.controlTimeout 0 (transferFrom w) := by
  intro s hs
  fun_induction transferFrom w s with
  | case1 w s failure s' h =>
    have hchunk := onTime_appendChunk w s hs
    rw [h] at hchunk
    exact hchunk
  | case2 w s w' s' h =>
    have hchunk := onTime_appendChunk w s hs
    rw [h] at hchunk
    exact hchunk
  | case3 w s w' isLast s' h hlast ih =>
    have hchunk := onTime_appendChunk w s hs
    rw [h] at hchunk
    have hkept : s'.settings = settings := (Spends.settings hchunk).trans hs
    exact (SpendsFor.after hchunk (ih hkept)).mono (by omega) (by omega)

theorem onTime_downloadSelected (path : String) :
    OnTime settings settings.dataTimeout settings.controlTimeout 0
      (downloadSelected path).perform := by
  have htransfer (place : Place) : OnTime settings settings.dataTimeout settings.controlTimeout 0
      (Action.ofPerform (transferFrom (.start place))).perform := onTime_transferFrom (.start place)
  exact (onTime_poll.bind fun _ => (onTime_of_aside (.createFile path)).bind fun place =>
    (onTime_of_aside (.reportRange _)).bind fun _ => (htransfer place).bind fun _ =>
      onTime_saving _).mono (by omega) (by omega)

/-- A record that is selected and then described takes two requests. -/
theorem onTime_describeRecord (index : UInt8) :
    OnTime settings 0 (2 * settings.controlTimeout) (2 * settings.controlTimeout)
      (describeRecord index) := by
  intro s hs
  have hselect := onTime_selectRecord index s hs
  rw [describeRecord]
  generalize (selectRecord index).perform s = selected at hselect ⊢
  obtain ⟨failure | type, s'⟩ := selected
  · exact Spends.mono hselect (by omega)
  · have hkept : s'.settings = settings := (Spends.settings hselect).trans hs
    have hinfo := onTime_readInfo index s' hkept
    dsimp only
    split
    · generalize (readInfo index).perform s' = described at hinfo ⊢
      obtain ⟨failure | flight, s''⟩ := described
      · exact (Spends.trans hselect hinfo).mono (by omega)
      · exact (Spends.trans hselect hinfo).mono (by omega)
    split
    · exact Spends.mono hselect (by omega)
    · exact Spends.mono hselect (by omega)

end Operations

/-! ## Timeouts -/

/-- A request with its answer that times out takes exactly the control timeout, and so does an
operation that makes something of the answer, if that does not time out. -/
theorem clock_bind_of_timeout {α : Type} {type : MessageType} {payload : Bytes}
    {second : Reply → Action α}
    (hsecond : ∀ reply s, ((second reply).perform s).1 ≠ .error .timeout) {s : Session}
    (h : (Action.perform (exchange type payload (·.controlTimeout) >>= second) s).1
      = .error .timeout) :
    (Action.perform (exchange type payload (·.controlTimeout) >>= second) s).2.clock
      = s.clock + s.settings.controlTimeout := by
  have htime := exchangeTime_exchange type payload (·.controlTimeout) s
  rcases Action.perform_bind_cases (exchange type payload (·.controlTimeout)) second s with
    ⟨failure, s', hp, heq⟩ | ⟨reply, s', hp, heq⟩
  · rw [heq] at h ⊢
    cases h
    rw [hp] at htime
    exact (htime.clock_of_timeout rfl).elim id id
  · rw [heq] at h
    exact absurd h (hsecond reply s')

/-- What a reply means is no matter of time. -/
theorem Reply.flight_ne_timeout (reply : Reply) (index : UInt8) :
    reply.flight index ≠ .error .timeout := by
  intro h
  unfold Reply.flight at h
  split at h
  · cases h
  · split at h
    · cases h
    · dsimp only at h
      split at h <;> cases h

theorem clock_of_ping_timeout {s : Session} (h : (ping.perform s).1 = .error .timeout) :
    (ping.perform s).2.clock = s.clock + s.settings.controlTimeout := by
  refine clock_bind_of_timeout (fun reply t ht => ?_) h
  split at ht <;> cases ht

theorem clock_of_selectRecord_timeout {index : UInt8} {s : Session}
    (h : ((selectRecord index).perform s).1 = .error .timeout) :
    ((selectRecord index).perform s).2.clock = s.clock + s.settings.controlTimeout :=
  clock_bind_of_timeout (fun _ _ ht => by cases ht) h

theorem clock_of_readInfo_timeout {index : UInt8} {s : Session}
    (h : ((readInfo index).perform s).1 = .error .timeout) :
    ((readInfo index).perform s).2.clock = s.clock + s.settings.controlTimeout := by
  refine clock_bind_of_timeout (fun reply t => ?_) h
  exact reply.flight_ne_timeout index

/-! ## Every operation -/

/--
**Operations keep their time.**

However the link takes what is sent, whatever arrives on it and whenever, and however much of that
is dropped: an operation with one request takes no longer than the control timeout, the description
of a record no longer than two of them and a listing no longer than two for each number. A download
takes no longer than the data timeout for each piece that was asked for, and one control timeout for
a last request that the link may have held up. A single request that times out has taken exactly the
control timeout.
-/
theorem operations_keep_time (s : Session) :
    let control := s.settings.controlTimeout
    let data := s.settings.dataTimeout
    (ping.perform s).2.clock ≤ s.clock + control ∧
    (exitBinaryMode.perform s).2.clock ≤ s.clock + control ∧
    (∀ index, ((selectRecord index).perform s).2.clock ≤ s.clock + control) ∧
    (∀ index, ((readInfo index).perform s).2.clock ≤ s.clock + control) ∧
    (∀ index, (describeRecord index s).2.clock ≤ s.clock + 2 * control) ∧
    (∀ list, (listRecords list s).2.2.clock ≤ s.clock + 512 * control) ∧
    (∀ path,
      let ending := (downloadSelected path).perform s
      let pieces := contentRequestCount (s.stretch ending.2)
      ending.2.clock ≤ s.clock + pieces * data + control) ∧
    ((ping.perform s).1 = .error .timeout → (ping.perform s).2.clock = s.clock + control) ∧
    (∀ index, ((selectRecord index).perform s).1 = .error .timeout →
      ((selectRecord index).perform s).2.clock = s.clock + control) ∧
    (∀ index, ((readInfo index).perform s).1 = .error .timeout →
      ((readInfo index).perform s).2.clock = s.clock + control) := by
  intro control data
  have hfree {s' : Session} {limit : Nat} (h : s.Spends 0 limit s') : s'.clock ≤ s.clock + limit :=
    (Spends.free_iff.mp h).2
  refine ⟨hfree (onTime_ping s rfl).spends, hfree (onTime_exitBinaryMode s rfl).spends,
    fun index => hfree (onTime_selectRecord index s rfl).spends,
    fun index => hfree (onTime_readInfo index s rfl).spends,
    fun index => hfree (onTime_describeRecord index s rfl).spends, fun list => ?_, fun path => ?_,
    clock_of_ping_timeout, fun index => clock_of_selectRecord_timeout,
    fun index => clock_of_readInfo_timeout⟩
  · have hrange : s.Spends 0 0 ((reportRange listRange).perform s).2 := .of_aside (.reportRange _ s)
    have hlist := hrange.trans (spends_listing recordCount list hrange.settings)
    have hnumbers : 0 + 2 * s.settings.controlTimeout * recordCount = 512 * control := by
      rw [recordCount]
      omega
    exact hnumbers ▸ hfree hlist
  · have hspends : s.Spends data control ((downloadSelected path).perform s).2 :=
      ((onTime_downloadSelected path s rfl).mono (Nat.le_refl _) (Nat.zero_le _)).spends
    obtain ⟨agenda, -, asked, taken, hpursued⟩ := keepsTo_downloadSelected path s
    obtain ⟨events, hhistory, -⟩ := hpursued.transcribed
    dsimp only
    rw [stretch_eq hhistory]
    exact hspends.clock_le hhistory

/-- A session whose link brings answers to other requests every 300 milliseconds, and the answer to
the first request after 1200. -/
def sessionWithTrickle : Session :=
  let other := Arrival.data (Frame.reply 7 .ack 9 []).encode
  .start .standard
    [.silence 300, other, .silence 300, other, .silence 300, other, .silence 300,
      .data (Frame.reply 8 .ack 0 []).encode]
    .unlimited .empty

theorem operations_keep_time_of_trickle :
    (ping.perform sessionWithTrickle).1 = .error .timeout ∧
      (ping.perform sessionWithTrickle).2.clock = 1000 := by
  have htimeout : (ping.perform sessionWithTrickle).1 = .error .timeout := by decide +kernel
  obtain ⟨-, -, -, -, -, -, -, hping, -⟩ := operations_keep_time sessionWithTrickle
  exact ⟨htimeout, hping htimeout⟩

end FlightRecorder
