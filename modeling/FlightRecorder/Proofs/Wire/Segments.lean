import FlightRecorder.Proofs.Wire.Calls
import FlightRecorder.Proofs.Wire.RoundTrip

/-!
# A whole stream at once

A stream can be read without a state: it is cut at its start bytes, what stands in front of the
first one is dropped, and each segment behind a start byte is one frame that was opened. A segment
is restored from the left up to its first bad escape pair; what has been restored decides the frame
as soon as it can, and else the bad pair does. A segment that decides nothing is cut off by the next
start byte, and the last one is left open.

* `restoreFront` — a segment restored up to its first bad escape pair
* `judgeSegment`, `judgeSegments`, `judgeStream` — the verdicts on a segment and on a whole stream
* `DecoderState.run_segment`, `DecoderState.run_eq_judgeStream` — what reading byte by byte gives
* `DecoderState.length_run_add_strays` — each start byte opens a frame, and each verdict closes one
* `Decoder.serve_eq_judgeStream` — however bytes are pushed and verdicts taken, they are those of
  the whole stream
-/

namespace FlightRecorder

open DecoderState

/-! ## Reading without a state -/

/-- The bytes that a segment restores to, up to its first bad escape pair, and the second byte of
that pair, if there is one. An escape byte at the end is no pair yet. -/
def restoreFront : Bytes → Bytes × Option UInt8
  | [] => ([], none)
  | byte :: rest =>
    if byte = escapeByte then
      match rest with
      | [] => ([], none)
      | second :: rest =>
        match restore? second with
        | some plain => (plain :: (restoreFront rest).1, (restoreFront rest).2)
        | none => ([], some second)
    else (byte :: (restoreFront rest).1, (restoreFront rest).2)

/-- The verdict on a frame of which these bytes were restored until a bad escape pair with this
second byte, or the end of what there is. -/
def judgeRestored (restored : Bytes) (bad : Option UInt8) : Option Verdict :=
  match Header.ofBytes (restored.take headerSize) with
  | .error _ => bad.map fun second => .refused (.badEscape second)
  | .ok header =>
    if header.length.toNat < headerSize then some (.refused (.lengthTooSmall header.length))
    else if header.length.toNat ≤ restored.length then
      let payload := (restored.take header.length.toNat).drop headerSize
      let computed := checksum (restored.take coveredHeaderSize ++ payload)
      if computed = header.checksum then some (.accepted { header := header, payload := payload })
      else some (.refused (.badChecksum header.checksum computed))
    else bad.map fun second => .refused (.badEscape second)

/-- The verdict on a segment behind a start byte, if it decides its frame. -/
def judgeSegment (segment : Bytes) : Option Verdict :=
  judgeRestored (restoreFront segment).1 (restoreFront segment).2

/-- The verdicts on the segments of a stream. -/
def judgeSegments : List Bytes → List Verdict
  | [] => []
  | [last] => (judgeSegment last).toList
  | segment :: next :: segments =>
    (judgeSegment segment).getD (.refused .strayStart) :: judgeSegments (next :: segments)

/-- The verdicts on a whole stream. -/
def judgeStream (stream : Bytes) : List Verdict := judgeSegments (stream.splitOn startByte).tail

/-! ## A frame decided early or late -/

/-- While nothing is decided, only a bad escape pair can decide. -/
theorem DecoderState.Unsettled.judgeRestored_eq {restored : Bytes} (h : Unsettled restored)
    (bad : Option UInt8) :
    judgeRestored restored bad = bad.map fun second => .refused (.badEscape second) := by
  unfold judgeRestored
  split
  · rfl
  · next header hh =>
    have hlt := h header hh
    have hge := length_ge_of_ofBytes_take hh
    rw [if_neg (by omega), if_neg (by omega)]

theorem coveredBytes_eq_take {restored : Bytes} {header : Header}
    (h : Header.ofBytes (restored.take headerSize) = .ok header) :
    header.coveredBytes = restored.take coveredHeaderSize := by
  have htake := Header.ofBytes_eq_ok_iff.mp h
  have hcut : (restored.take headerSize).take coveredHeaderSize
      = restored.take coveredHeaderSize := by
    rw [List.take_take]
    rfl
  rw [← hcut, htake]
  rfl

/-- **What is decided stays decided**, whatever follows. -/
theorem judgeRestored_append {restored : Bytes} {verdict : Verdict}
    (h : judge? restored = some verdict) (more : Bytes) (bad : Option UInt8) :
    judgeRestored (restored ++ more) bad = some verdict := by
  unfold judge? at h
  split at h
  · cases h
  · next header hh =>
    have hlonger := ofBytes_take_append more hh
    simp only [judgeRestored, hlonger]
    by_cases hsmall : header.length.toNat < headerSize
    · rw [if_pos hsmall] at h ⊢
      exact h
    · rw [if_neg hsmall] at h ⊢
      split at h
      · next hwhole =>
        have hfits : header.length.toNat ≤ (restored ++ more).length := by
          rw [List.length_append]
          omega
        rw [if_pos hfits, ← coveredBytes_eq_take hlonger, List.take_left' hwhole, ← h, settle_eq,
          Header.computeChecksum]
        split <;> rfl
      · cases h

/-! ## One segment -/

namespace DecoderState

/-- A restored byte decides the frame, and the rest of the segment is dropped, or it leaves the frame
to the rest. -/
theorem run_proceed {restored : Bytes} {byte : UInt8} (hopen : Unsettled restored) {rest : Bytes}
    (hfree : startByte ∉ rest) (more : Bytes) (bad : Option UInt8)
    (hrest : Unsettled (restored ++ [byte]) →
      ((reading (restored ++ [byte]) false).run rest).2
        = (judgeRestored (restored ++ [byte] ++ more) bad).toList) :
    (proceed (restored ++ [byte])).2.toList ++ ((proceed (restored ++ [byte])).1.run rest).2
      = (judgeRestored (restored ++ byte :: more) bad).toList := by
  have hcons : restored ++ byte :: more = restored ++ [byte] ++ more := by simp
  rw [hcons]
  cases hj : judge? (restored ++ [byte]) with
  | none =>
    simp only [proceed, hj, hrest (hopen.append_byte hj)]
    rfl
  | some verdict =>
    simp only [proceed, hj, run_noise hfree, judgeRestored_append hj]
    rfl

/-- **A segment read byte by byte gives the verdict on the segment.** -/
theorem run_segment {restored : Bytes} (hopen : Unsettled restored) {segment : Bytes}
    (hfree : startByte ∉ segment) :
    ((reading restored false).run segment).2
      = (judgeRestored (restored ++ (restoreFront segment).1) (restoreFront segment).2).toList := by
  fun_induction restoreFront segment generalizing restored with
  | case1 =>
    rw [List.append_nil, hopen.judgeRestored_eq]
    rfl
  | case2 =>
    rw [List.append_nil, hopen.judgeRestored_eq, run_cons, step_escape hopen]
    rfl
  | case3 second rest plain hplain ih =>
    have hrest : startByte ∉ rest := fun h => hfree (by simp [h])
    rw [run_cons, step_escape hopen, run_cons, step_escaped hopen hplain]
    exact run_proceed hopen hrest _ _ fun hlonger => ih hlonger hrest
  | case4 second rest hbad =>
    -- The frame is closed by the bad pair, and nothing opens another one.
    have hrest : startByte ∉ rest := fun h => hfree (by simp [h])
    have hstart : second ≠ startByte := fun h => hfree (by simp [h])
    rw [List.append_nil, hopen.judgeRestored_eq, run_cons, step_escape hopen, run_cons,
      step_badEscape hopen hstart hbad, run_noise hrest]
    rfl
  | case5 byte rest hescape ih =>
    have hrest : startByte ∉ rest := fun h => hfree (by simp [h])
    have hstart : byte ≠ startByte := fun h => hfree (by simp [h])
    rw [run_cons, step_plain hopen hstart hescape]
    exact run_proceed hopen hrest _ _ fun hlonger => ih hlonger hrest

/-! ## Opened and closed -/

/-- A restored byte leaves its frame open, or closes it with a verdict. -/
theorem length_advance_add_strays (buffer : Array UInt8) (part : FramePart) :
    (advance buffer part).2.toList.length + (advance buffer part).1.strays.length = 1 := by
  cases part with
  | header =>
    rw [advance]
    split
    · rfl
    · split
      · rfl
      · split <;> rfl
  | payload header length =>
    rw [advance]
    split <;> rfl

theorem length_stepWithin_add_strays (part : FramePart) (escaped : Bool) (buffer : Array UInt8)
    (byte : UInt8) :
    (stepWithin part escaped buffer byte).2.toList.length
      + (stepWithin part escaped buffer byte).1.strays.length = 1 := by
  unfold stepWithin
  split
  · split
    · exact length_advance_add_strays _ _
    · rfl
  · split
    · rfl
    · exact length_advance_add_strays _ _

/-- A start byte opens a frame, a verdict closes one, and nothing else does either. -/
theorem length_step_add_strays (state : DecoderState) (byte : UInt8) :
    (state.step byte).2.toList.length + (state.step byte).1.strays.length
      = state.strays.length + [byte].count startByte := by
  by_cases hstart : byte = startByte
  · subst hstart
    cases state <;> rfl
  · have hcount : [byte].count startByte = 0 := by simp [hstart]
    rw [hcount]
    cases state with
    | idle =>
      rw [step_idle hstart]
      rfl
    | within part escaped buffer =>
      rw [step, if_neg hstart]
      exact length_stepWithin_add_strays part escaped buffer byte

/-- **The verdicts and the open frame together are as many as the frames that were opened.** -/
theorem length_run_add_strays (state : DecoderState) (data : Bytes) :
    (state.run data).2.length + (state.run data).1.strays.length
      = state.strays.length + data.count startByte := by
  induction data generalizing state with
  | nil => simp
  | cons byte data ih =>
    have hbyte := length_step_add_strays state byte
    have hrest := ih (state.step byte).1
    have hcount : (byte :: data).count startByte
        = [byte].count startByte + data.count startByte := by
      rw [← List.count_append]
      rfl
    simp only [run_cons, List.length_append, hcount]
    omega

/-! ## All segments -/

/-- A segment without a verdict leaves its frame open. -/
theorem strays_run_segment {segment : Bytes} (hfree : startByte ∉ segment) :
    ((reading [] false).run segment).2 ++ ((reading [] false).run segment).1.strays
      = [(judgeSegment segment).getD (.refused .strayStart)] := by
  have hlength := length_run_add_strays (reading [] false) segment
  rw [List.count_eq_zero_of_not_mem hfree, run_segment unsettled_nil hfree, List.nil_append,
    ← judgeSegment] at hlength
  rw [run_segment unsettled_nil hfree, List.nil_append, ← judgeSegment]
  have hone : (reading [] false).strays.length = 1 := rfl
  rw [hone] at hlength
  cases hstate : ((reading [] false).run segment).1 <;> cases hverdict : judgeSegment segment
    <;> simp_all [strays]

/-- **Behind a start byte, the verdicts are those on the segments.** -/
theorem run_segments (data : Bytes) :
    ((reading [] false).run data).2 = judgeSegments (data.splitOn startByte) := by
  induction hn : data.length using Nat.strongRecOn generalizing data with
  | ind n ih =>
    by_cases hmem : startByte ∈ data
    · -- The next start byte tells what becomes of the first segment, and opens the second one.
      obtain ⟨segment, rest, rfl, hfree⟩ := List.eq_append_cons_of_mem hmem
      have hshorter : rest.length < n := by
        rw [← hn, List.length_append, List.length_cons]
        omega
      have hrest := ih rest.length hshorter rest rfl
      have hcut : (startByte :: rest : Bytes) = [startByte] ++ rest := rfl
      rw [List.splitOn_append_cons_self_of_not_mem hfree, hcut, run_append, run_append, run_start,
        hrest]
      simp only
      rw [← List.append_assoc, strays_run_segment hfree]
      obtain ⟨next, segments, hsegments⟩ :=
        List.exists_cons_of_ne_nil (List.splitOn_ne_nil startByte rest)
      rw [hsegments]
      rfl
    · rw [List.splitOn_eq_singleton hmem, judgeSegments, judgeSegment,
        run_segment unsettled_nil hmem]
      rfl

/-- **A decoder reads a stream segment by segment.** -/
theorem run_eq_judgeStream (stream : Bytes) : (idle.run stream).2 = judgeStream stream := by
  by_cases hmem : startByte ∈ stream
  · obtain ⟨noise, rest, rfl, hfree⟩ := List.eq_append_cons_of_mem hmem
    have hcut : (startByte :: rest : Bytes) = [startByte] ++ rest := rfl
    rw [judgeStream, List.splitOn_append_cons_self_of_not_mem hfree, List.tail_cons, ← run_segments,
      hcut, run_append, run_noise hfree, run_append, run_start]
    rfl
  · rw [judgeStream, List.splitOn_eq_singleton hmem, run_noise hmem]
    rfl

/-- Noise, a frame that is cut off behind its escape byte, a bad pair with a byte behind it that is
dropped, and a frame that stays open. -/
example :
    judgeStream [0x00, startByte, 0x01, escapeByte, startByte, escapeByte, 0x00, 0x01, startByte]
      = [.refused .strayStart, .refused (.badEscape 0x00)] := by decide +kernel

end DecoderState

/-- **However bytes are pushed and verdicts are taken**, the verdicts are those of the whole stream,
and together with the frame that may be open they are as many as its start bytes. -/
theorem Decoder.serve_eq_judgeStream (calls : List DecoderCall) :
    (fresh.serve calls).1 ++ (fresh.serve calls).2.ready = judgeStream (pushedBytes calls) ∧
      ((fresh.serve calls).1 ++ (fresh.serve calls).2.ready).length
          + (if (fresh.serve calls).2.state = .idle then 0 else 1)
        = (pushedBytes calls).count startByte := by
  obtain ⟨hstate, hverdicts⟩ := fresh.serve_eq calls
  have hstream : (fresh.serve calls).1 ++ (fresh.serve calls).2.ready
      = (DecoderState.idle.run (pushedBytes calls)).2 := hverdicts
  constructor
  · rw [hstream, run_eq_judgeStream]
  · have hopened := length_run_add_strays .idle (pushedBytes calls)
    have hstrays : (fresh.serve calls).2.state.strays.length
        = if (fresh.serve calls).2.state = .idle then 0 else 1 := by
      rw [strays_eq]
      split <;> rfl
    have hidle : idle.strays.length = 0 := rfl
    rw [hidle, Nat.zero_add] at hopened
    rw [← hstrays, hstream, hstate]
    exact hopened

end FlightRecorder
