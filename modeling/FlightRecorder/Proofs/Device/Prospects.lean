import FlightRecorder.Proofs.Device.Waiting

/-!
# What a wait meets

How bytes are grouped into arrivals does not matter to a wait, and of the bytes only the verdicts
matter that the decoder finds in them. What a session can still meet is therefore a list of verdicts
and pauses, and a wait can be read off that list. Verdicts that answer none of the requests for
which a session will wait can be left out of it.

* `signals` — what is still to come on a link, byte by byte
* `Session.prospects` — the verdicts and pauses that a session can still meet
* `waitAmong` — a wait, read off them
* `waitAmong_prospects` — this is how the wait of a session goes
* `waitAmong_relevant` — only what concerns the requests in use matters
-/

namespace FlightRecorder

open DecoderState

/-! ## Signals -/

/-- What can come on a link besides bytes. -/
inductive Pause
  | silence (duration : Nat)
  | silentUntil (moment : Nat)
  | failure
  | hangup
  deriving DecidableEq, Repr

/-- The smallest part of what comes on a link. -/
inductive Signal
  | byte (value : UInt8)
  | pause (kind : Pause)
  deriving DecidableEq, Repr

/-- What comes on a link, without the grouping of the bytes. -/
def signals : List Arrival → List Signal
  | [] => []
  | .data bytes :: rest => bytes.map .byte ++ signals rest
  | .silence duration :: rest => .pause (.silence duration) :: signals rest
  | .silentUntil moment :: rest => .pause (.silentUntil moment) :: signals rest
  | .failure :: rest => .pause .failure :: signals rest
  | .hangup :: rest => .pause .hangup :: signals rest

/-! ## Prospects -/

/-- One thing that a wait can meet. -/
inductive Prospect
  | verdict (found : Verdict)
  | pause (kind : Pause)
  deriving DecidableEq, Repr

/-- What is met on a link that the decoder reads. -/
def DecoderState.prospects (state : DecoderState) : List Signal → List Prospect
  | [] => []
  | .byte value :: rest =>
    (state.step value).2.toList.map .verdict ++ (state.step value).1.prospects rest
  | .pause kind :: rest => .pause kind :: state.prospects rest

theorem DecoderState.prospects_bytes (state : DecoderState) (bytes : Bytes) (rest : List Signal) :
    state.prospects (bytes.map .byte ++ rest)
      = (state.run bytes).2.map .verdict ++ (state.run bytes).1.prospects rest := by
  induction bytes generalizing state with
  | nil => rfl
  | cons byte bytes ih =>
    rw [List.map_cons, List.cons_append, prospects, ih, run_cons, List.map_append,
      List.append_assoc]

/-- Everything that a session can still meet: the queued verdicts, and what the link brings. -/
def Session.prospects (s : Session) : List Prospect :=
  s.decoder.ready.map .verdict ++ s.decoder.state.prospects (signals s.incoming)

/-! ## Waits -/

/-- A wait from `now` to a deadline among these prospects: how it ends, when, and what is left. -/
def waitAmong (sequence : UInt16) (deadline : Nat) (now : Nat) :
    List Prospect → Except Failure Reply × Nat × List Prospect
  | [] => (.error .timeout, deadline, [])
  | .verdict verdict :: rest =>
    match verdict.reply? sequence with
    | some reply => (.ok reply, now, rest)
    | none => waitAmong sequence deadline now rest
  | .pause (.silence duration) :: rest =>
    if now + duration ≤ deadline then waitAmong sequence deadline (now + duration) rest
    else (.error .timeout, deadline, .pause (.silentUntil (now + duration)) :: rest)
  | .pause (.silentUntil moment) :: rest =>
    if moment ≤ max now deadline then waitAmong sequence deadline (max now moment) rest
    else (.error .timeout, deadline, .pause (.silentUntil moment) :: rest)
  | .pause .failure :: rest => (.error (.system .link), now, rest)
  | .pause .hangup :: rest => (.error .closed, now, .pause .hangup :: rest)

/-- A wait for bytes goes as far as the bytes that it brings, or ends the wait for the reply. -/
theorem waitAmong_receive (sequence : UInt16) (deadline now : Nat) (state : DecoderState)
    (incoming : List Arrival) :
    waitAmong sequence deadline now (state.prospects (signals incoming)) =
      match receive deadline now incoming with
      | (.received bytes, clock, rest) =>
        waitAmong sequence deadline clock (state.prospects (bytes.map .byte ++ signals rest))
      | (.failed, clock, rest) =>
        (.error (.system .link), clock, state.prospects (signals rest))
      | (.closed, clock, rest) => (.error .closed, clock, state.prospects (signals rest))
      | (.timedOut, clock, rest) => (.error .timeout, clock, state.prospects (signals rest)) := by
  fun_induction receive deadline now incoming with
  | case1 now => rfl
  | case2 now rest ih => exact ih
  | case3 now byte bytes rest =>
    dsimp only
    rw [signals, signals, ← List.append_assoc, ← List.map_append, List.take_append_drop]
  | case4 now duration rest hreach ih =>
    rw [signals, DecoderState.prospects, waitAmong, if_pos hreach]
    exact ih
  | case5 now duration rest hreach =>
    rw [signals, DecoderState.prospects, waitAmong, if_neg hreach]
    rfl
  | case6 now moment rest hreach ih =>
    rw [signals, DecoderState.prospects, waitAmong, if_pos hreach]
    exact ih
  | case7 now moment rest hreach =>
    rw [signals, DecoderState.prospects, waitAmong, if_neg hreach]
    rfl
  | case8 now rest => rfl
  | case9 now rest => rfl

/-- Reading bytes leaves what can be met as it is. -/
theorem Session.prospects_absorb {s : Session} (bytes : Bytes) (clock : Nat)
    (incoming : List Arrival) (hready : s.decoder.ready = []) :
    (s.absorb bytes clock incoming).prospects
      = s.decoder.state.prospects (bytes.map .byte ++ signals incoming) := by
  rw [DecoderState.prospects_bytes]
  show (s.decoder.push bytes).ready.map Prospect.verdict ++ _ = _
  rw [Decoder.push, hready]
  rfl

theorem Session.prospects_waited {s : Session} (clock : Nat) (incoming : List Arrival)
    (hready : s.decoder.ready = []) :
    (s.waited clock incoming).prospects = s.decoder.state.prospects (signals incoming) := by
  show s.decoder.ready.map Prospect.verdict ++ _ = _
  rw [hready]
  rfl

/-- **The wait of a session is a wait among its prospects.** -/
theorem waitAmong_prospects (sequence : UInt16) (deadline : Nat) (s : Session) :
    waitAmong sequence deadline s.clock s.prospects
      = ((awaitFrom sequence deadline s).1, (awaitFrom sequence deadline s).2.clock,
          (awaitFrom sequence deadline s).2.prospects) := by
  fun_induction awaitFrom sequence deadline s with
  | case1 s verdict ready hr reply hv =>
    rw [Session.prospects, hr, List.map_cons, List.cons_append, waitAmong, hv]
    rfl
  | case2 s verdict ready hr hv ih =>
    rw [Session.prospects, hr, List.map_cons, List.cons_append, waitAmong, hv]
    exact ih
  | case3 s hr bytes clock incoming hb ih =>
    rw [Session.prospects_absorb bytes clock incoming hr] at ih
    rw [Session.prospects, hr, List.map_nil, List.nil_append, waitAmong_receive, hb]
    exact ih
  | case4 s hr clock incoming hb =>
    rw [Session.prospects, hr, List.map_nil, List.nil_append, waitAmong_receive, hb,
      Session.prospects_waited clock incoming hr]
    rfl
  | case5 s hr clock incoming hb =>
    rw [Session.prospects, hr, List.map_nil, List.nil_append, waitAmong_receive, hb,
      Session.prospects_waited clock incoming hr]
    rfl
  | case6 s hr clock incoming hb =>
    rw [Session.prospects, hr, List.map_nil, List.nil_append, waitAmong_receive, hb,
      Session.prospects_waited clock incoming hr]
    rfl

/-! ## What does not matter -/

/-- A verdict that answers one of these numbers, or a pause. -/
def Prospect.concerns (used : List UInt16) : Prospect → Bool
  | verdict found => used.any fun sequence => (found.reply? sequence).isSome
  | pause _ => true

/-- Prospects without the verdicts that answer none of these numbers. -/
def relevant (used : List UInt16) (prospects : List Prospect) : List Prospect :=
  prospects.filter (Prospect.concerns used)

@[simp]
theorem relevant_pause (used : List UInt16) (kind : Pause) (prospects : List Prospect) :
    relevant used (.pause kind :: prospects) = .pause kind :: relevant used prospects := rfl

theorem relevant_append (used : List UInt16) (first second : List Prospect) :
    relevant used (first ++ second) = relevant used first ++ relevant used second :=
  List.filter_append first second

/-- **A wait for the reply to a request in use meets what concerns the requests in use.** -/
theorem waitAmong_relevant {used : List UInt16} {sequence : UInt16} (h : sequence ∈ used)
    (deadline now : Nat) (prospects : List Prospect) :
    waitAmong sequence deadline now (relevant used prospects)
      = ((waitAmong sequence deadline now prospects).1,
          (waitAmong sequence deadline now prospects).2.1,
          relevant used (waitAmong sequence deadline now prospects).2.2) := by
  fun_induction waitAmong sequence deadline now prospects with
  | case1 now => rfl
  | case2 now verdict rest reply hv =>
    have hused : Prospect.concerns used (.verdict verdict) = true := by
      refine List.any_eq_true.mpr ⟨sequence, h, ?_⟩
      rw [hv]
      rfl
    rw [relevant, List.filter_cons_of_pos hused, waitAmong, hv]
    rfl
  | case3 now verdict rest hv ih =>
    rw [relevant, List.filter_cons]
    split
    · rw [waitAmong, hv]
      exact ih
    · exact ih
  | case4 now duration rest hreach ih =>
    rw [relevant_pause, waitAmong, if_pos hreach]
    exact ih
  | case5 now duration rest hreach =>
    rw [relevant_pause, waitAmong, if_neg hreach]
    rfl
  | case6 now moment rest hreach ih =>
    rw [relevant_pause, waitAmong, if_pos hreach]
    exact ih
  | case7 now moment rest hreach =>
    rw [relevant_pause, waitAmong, if_neg hreach]
  | case8 now rest => rfl
  | case9 now rest => rfl

end FlightRecorder
