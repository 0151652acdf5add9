import FlightRecorder.Device.Exchange
import FlightRecorder.Proofs.Wire.Reading

/-!
# What a session is going to receive

Silences are counted from the moment they are first waited for, so for somebody who goes on reading
every byte of the link has a moment from which it can be read. The decoder adds the verdicts: each
is there from the moment of the byte that it is found at.

* `timedBytes` — the bytes before the link fails or ends, with their moments
* `stop?` — how the link fails or ends, and when
* `DecoderState.runTimed` — the verdicts on bytes with moments
* `Session.upcoming` — all verdicts that a session can still take
* `receive_outcome` — a wait takes bytes off the front and leaves all moments as they are
-/

namespace FlightRecorder

open DecoderState

/-! ## Bytes and moments -/

/-- The bytes that can be read before the link fails or ends, each with the moment from which it can
be read by somebody who reads from `now` on. -/
def timedBytes (now : Nat) : List Arrival → List (UInt8 × Nat)
  | [] => []
  | .data bytes :: rest => bytes.map (·, now) ++ timedBytes now rest
  | .silence duration :: rest => timedBytes (now + duration) rest
  | .silentUntil moment :: rest => timedBytes (max now moment) rest
  | .failure :: _ => []
  | .hangup :: _ => []

/-- The first failing read or the end of the link, with the moment at which it is reached. -/
def stop? (now : Nat) : List Arrival → Option (Failure × Nat)
  | [] => none
  | .data _ :: rest => stop? now rest
  | .silence duration :: rest => stop? (now + duration) rest
  | .silentUntil moment :: rest => stop? (max now moment) rest
  | .failure :: _ => some (.system .link, now)
  | .hangup :: _ => some (.closed, now)

theorem now_le_of_mem_timedBytes {now : Nat} {incoming : List Arrival} {item : UInt8 × Nat}
    (h : item ∈ timedBytes now incoming) : now ≤ item.2 := by
  fun_induction timedBytes now incoming with
  | case1 => cases h
  | case2 now bytes rest ih =>
    rcases List.mem_append.mp h with h | h
    · obtain ⟨byte, -, rfl⟩ := List.mem_map.mp h
      exact Nat.le_refl _
    · exact ih h
  | case3 now duration rest ih => exact Nat.le_trans (Nat.le_add_right _ _) (ih h)
  | case4 now moment rest ih => exact Nat.le_trans (Nat.le_max_left _ _) (ih h)
  | case5 => cases h
  | case6 => cases h

theorem now_le_of_stop? {now moment : Nat} {incoming : List Arrival} {failure : Failure}
    (h : stop? now incoming = some (failure, moment)) : now ≤ moment := by
  fun_induction stop? now incoming with
  | case1 => cases h
  | case2 now bytes rest ih => exact ih h
  | case3 now duration rest ih => exact Nat.le_trans (Nat.le_add_right _ _) (ih h)
  | case4 now until_ rest ih => exact Nat.le_trans (Nat.le_max_left _ _) (ih h)
  | case5 => cases h; exact Nat.le_refl _
  | case6 => cases h; exact Nat.le_refl _

/-- Bytes come in the order of their moments. -/
theorem pairwise_timedBytes (now : Nat) (incoming : List Arrival) :
    (timedBytes now incoming).Pairwise fun a b => a.2 ≤ b.2 := by
  fun_induction timedBytes now incoming with
  | case1 => exact .nil
  | case2 now bytes rest ih =>
    refine List.pairwise_append.mpr ⟨?_, ih, ?_⟩
    · exact List.pairwise_map.mpr (List.pairwise_of_forall fun _ _ => Nat.le_refl _)
    · intro a ha b hb
      obtain ⟨byte, -, rfl⟩ := List.mem_map.mp ha
      exact now_le_of_mem_timedBytes hb
  | case3 now duration rest ih => exact ih
  | case4 now moment rest ih => exact ih
  | case5 => exact .nil
  | case6 => exact .nil

/-- In the order of moments, what comes by a deadline comes before all the rest. -/
theorem eq_filter_append_filter {stream : List (UInt8 × Nat)}
    (h : stream.Pairwise fun a b => a.2 ≤ b.2) (deadline : Nat) :
    stream = stream.filter (·.2 ≤ deadline) ++ stream.filter (deadline < ·.2) := by
  induction h with
  | nil => rfl
  | @cons item rest hrest _ ih =>
    by_cases hitem : item.2 ≤ deadline
    · have hlate : ¬ deadline < item.2 := by omega
      simp only [List.filter_cons, hitem, hlate, decide_true, decide_false, if_true,
        Bool.false_eq_true, if_false, List.cons_append]
      rw [← ih]
    · have hnone : rest.filter (·.2 ≤ deadline) = [] := by
        refine List.filter_eq_nil_iff.mpr fun other hother => ?_
        have := hrest other hother
        simp only [decide_eq_true_eq]
        omega
      have hlate : deadline < item.2 := by omega
      rw [hnone, List.nil_append] at ih
      simp only [List.filter_cons, hitem, hlate, decide_true, decide_false, if_true,
        Bool.false_eq_true, if_false]
      rw [hnone, ← ih]
      rfl

/-! ## One wait -/

/-- How a wait from `now` to a deadline ends on a link with these bytes and this stop to come. -/
inductive WaitOutcome (deadline now : Nat) (stream : List (UInt8 × Nat))
    (stop : Option (Failure × Nat)) : Reception × Nat × List Arrival → Prop
  | received {bytes : Bytes} {clock : Nat} {rest : List Arrival} (hnow : now ≤ clock)
      (hdeadline : clock ≤ deadline)
      (hstream : stream = bytes.map (·, clock) ++ timedBytes clock rest)
      (hstop : stop = stop? clock rest) :
      WaitOutcome deadline now stream stop (.received bytes, clock, rest)
  | failed {clock : Nat} {rest : List Arrival} (hnow : now ≤ clock) (hdeadline : clock ≤ deadline)
      (hstream : stream = []) (hstop : stop = some (.system .link, clock)) :
      WaitOutcome deadline now stream stop (.failed, clock, rest)
  | closed {clock : Nat} {rest : List Arrival} (hnow : now ≤ clock) (hdeadline : clock ≤ deadline)
      (hstream : stream = []) (hstop : stop = some (.closed, clock)) :
      WaitOutcome deadline now stream stop (.closed, clock, rest)
  | timedOut {rest : List Arrival} (hstream : stream = timedBytes deadline rest)
      (hstop : stop = stop? deadline rest) (hlate : ∀ item ∈ stream, deadline < item.2)
      (hlateStop : ∀ failure moment, stop = some (failure, moment) → deadline < moment) :
      WaitOutcome deadline now stream stop (.timedOut, deadline, rest)

theorem WaitOutcome.of_le {deadline now earlier : Nat} {stream : List (UInt8 × Nat)}
    {stop : Option (Failure × Nat)} {result : Reception × Nat × List Arrival}
    (h : WaitOutcome deadline now stream stop result) (hle : earlier ≤ now) :
    WaitOutcome deadline earlier stream stop result := by
  cases h with
  | received hnow hdeadline hstream hstop =>
    exact .received (Nat.le_trans hle hnow) hdeadline hstream hstop
  | failed hnow hdeadline hstream hstop =>
    exact .failed (Nat.le_trans hle hnow) hdeadline hstream hstop
  | closed hnow hdeadline hstream hstop =>
    exact .closed (Nat.le_trans hle hnow) hdeadline hstream hstop
  | timedOut hstream hstop hlate hlateStop => exact .timedOut hstream hstop hlate hlateStop

/-- **A wait takes bytes off the front of the schedule, or reaches the stop of the link, or leaves
everything for later.** -/
theorem receive_outcome {deadline now : Nat} (incoming : List Arrival) (hnow : now ≤ deadline) :
    WaitOutcome deadline now (timedBytes now incoming) (stop? now incoming)
      (receive deadline now incoming) := by
  fun_induction receive deadline now incoming with
  | case1 now =>
    exact .timedOut rfl rfl (fun _ hitem => by cases hitem) (fun _ _ hstop => by cases hstop)
  | case2 now incoming ih => exact ih hnow
  | case3 now byte bytes incoming =>
    refine .received (Nat.le_refl _) hnow ?_ rfl
    simp only [timedBytes]
    rw [← List.append_assoc, ← List.map_append, List.take_append_drop]
  | case4 now duration incoming hreach ih => exact (ih hreach).of_le (Nat.le_add_right _ _)
  | case5 now duration incoming hreach =>
    -- The rest of the silence is kept, so that what comes behind it comes when it would have come.
    have hkept : max deadline (now + duration) = now + duration := by omega
    refine .timedOut ?_ ?_ (fun item hitem => ?_) (fun failure moment hstop => ?_)
    · simp only [timedBytes, hkept]
    · simp only [stop?, hkept]
    · have hrest : item ∈ timedBytes (now + duration) incoming := hitem
      have := now_le_of_mem_timedBytes hrest
      omega
    · have hrest : stop? (now + duration) incoming = some (failure, moment) := hstop
      have := now_le_of_stop? hrest
      omega
  | case6 now moment incoming hreach ih => exact (ih (by omega)).of_le (Nat.le_max_left _ _)
  | case7 now moment incoming hreach =>
    have hkept : max deadline moment = max now moment := by omega
    refine .timedOut ?_ ?_ (fun item hitem => ?_) (fun failure later hstop => ?_)
    · simp only [timedBytes, hkept]
    · simp only [stop?, hkept]
    · have hrest : item ∈ timedBytes (max now moment) incoming := hitem
      have := now_le_of_mem_timedBytes hrest
      omega
    · have hrest : stop? (max now moment) incoming = some (failure, later) := hstop
      have := now_le_of_stop? hrest
      omega
  | case8 now incoming => exact .failed (Nat.le_refl _) hnow rfl rfl
  | case9 now incoming => exact .closed (Nat.le_refl _) hnow rfl rfl

/-! ## Verdicts and moments -/

namespace DecoderState

/-- The verdicts on bytes with moments; each has the moment of the byte that it is found at. -/
def runTimed (state : DecoderState) : List (UInt8 × Nat) → List (Verdict × Nat)
  | [] => []
  | (byte, moment) :: rest =>
    (state.step byte).2.toList.map (·, moment) ++ (state.step byte).1.runTimed rest

/-- Where a stream is cut makes no difference to what is found in it. -/
theorem runTimed_append (state : DecoderState) (first second : List (UInt8 × Nat)) :
    state.runTimed (first ++ second)
      = state.runTimed first ++ (state.run (first.map Prod.fst)).1.runTimed second := by
  induction first generalizing state with
  | nil => rfl
  | cons item first ih => simp [runTimed, run_cons, ih, List.append_assoc]

theorem map_fst_runTimed (state : DecoderState) (stream : List (UInt8 × Nat)) :
    (state.runTimed stream).map Prod.fst = (state.run (stream.map Prod.fst)).2 := by
  induction stream generalizing state with
  | nil => rfl
  | cons item stream ih =>
    rw [runTimed, List.map_append, ih, List.map_cons, run_cons, List.map_map]
    congr 1
    exact List.map_id _

theorem runTimed_map (state : DecoderState) (bytes : Bytes) (moment : Nat) :
    state.runTimed (bytes.map (·, moment)) = (state.run bytes).2.map (·, moment) := by
  induction bytes generalizing state with
  | nil => rfl
  | cons byte bytes ih => rw [List.map_cons, runTimed, ih, run_cons, List.map_append]

theorem exists_byte_of_mem_runTimed {state : DecoderState} {stream : List (UInt8 × Nat)}
    {item : Verdict × Nat} (h : item ∈ state.runTimed stream) :
    ∃ byte, (byte, item.2) ∈ stream := by
  induction stream generalizing state with
  | nil => cases h
  | cons head stream ih =>
    rcases List.mem_append.mp h with h | h
    · obtain ⟨verdict, -, rfl⟩ := List.mem_map.mp h
      exact ⟨head.1, List.mem_cons_self⟩
    · obtain ⟨byte, hbyte⟩ := ih h
      exact ⟨byte, List.mem_cons_of_mem head hbyte⟩

end DecoderState

/-! ## Sessions -/

namespace Session

/-- All verdicts that a session can still take before the link fails or ends, each with the moment
from which it is there. -/
def upcoming (s : Session) : List (Verdict × Nat) :=
  s.decoder.ready.map (·, s.clock)
    ++ s.decoder.state.runTimed (timedBytes s.clock s.incoming)

theorem upcoming_congr {s s' : Session} (hclock : s.clock = s'.clock)
    (hincoming : s.incoming = s'.incoming) (hdecoder : s.decoder = s'.decoder) :
    s.upcoming = s'.upcoming := by
  rw [upcoming, upcoming, hclock, hincoming, hdecoder]

/-- Those that are there by a deadline: what waits in the queue, and what is found in the bytes that
come by then. -/
def upcomingBy (deadline : Nat) (s : Session) : List (Verdict × Nat) :=
  s.decoder.ready.map (·, s.clock)
    ++ s.decoder.state.runTimed ((timedBytes s.clock s.incoming).filter (·.2 ≤ deadline))

/-- What comes by a deadline comes before all the rest. -/
theorem exists_upcoming_eq (deadline : Nat) (s : Session) :
    ∃ later, s.upcoming = s.upcomingBy deadline ++ later ∧ ∀ item ∈ later, deadline < item.2 := by
  have hsplit := eq_filter_append_filter (pairwise_timedBytes s.clock s.incoming) deadline
  let early := (timedBytes s.clock s.incoming).filter (·.2 ≤ deadline)
  let late := (timedBytes s.clock s.incoming).filter (deadline < ·.2)
  refine ⟨(s.decoder.state.run (early.map Prod.fst)).1.runTimed late, ?_, fun item hitem => ?_⟩
  · rw [upcoming, upcomingBy, List.append_assoc, ← runTimed_append, ← hsplit]
  · obtain ⟨byte, hbyte⟩ := exists_byte_of_mem_runTimed hitem
    simpa using (List.mem_filter.mp hbyte).2

theorem le_of_mem_upcomingBy {deadline : Nat} {s : Session} {item : Verdict × Nat}
    (hclock : s.clock ≤ deadline) (h : item ∈ s.upcomingBy deadline) : item.2 ≤ deadline := by
  rcases List.mem_append.mp h with h | h
  · obtain ⟨verdict, -, rfl⟩ := List.mem_map.mp h
    exact hclock
  · obtain ⟨byte, hbyte⟩ := exists_byte_of_mem_runTimed h
    simpa using (List.mem_filter.mp hbyte).2

/-- Taking a verdict leaves the others. -/
theorem upcoming_examine {s : Session} {verdict : Verdict} {ready : List Verdict}
    (h : s.decoder.ready = verdict :: ready) :
    s.upcoming = (verdict, s.clock) :: (s.examine verdict ready).upcoming := by
  rw [upcoming, h]
  rfl

/-- Reading bytes leaves all verdicts as they are, with their moments. -/
theorem upcoming_absorb {s : Session} {bytes : Bytes} {clock : Nat} {incoming : List Arrival}
    (hready : s.decoder.ready = [])
    (hstream : timedBytes s.clock s.incoming = bytes.map (·, clock) ++ timedBytes clock incoming) :
    (s.absorb bytes clock incoming).upcoming = s.upcoming := by
  have hbytes : (bytes.map fun byte => (byte, clock)).map Prod.fst = bytes := by
    rw [List.map_map]
    exact List.map_id _
  rw [upcoming, upcoming, hready, hstream, runTimed_append, runTimed_map, hbytes]
  show (s.decoder.push bytes).ready.map (·, clock) ++ _ = _
  rw [Decoder.push, hready]
  rfl

end Session

end FlightRecorder
