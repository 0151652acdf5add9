import FlightRecorder.Proofs.Wire.Calls
import FlightRecorder.Proofs.Wire.RoundTrip
import FlightRecorder.Proofs.Wire.Stuffing

/-!
# Only encoded frames are accepted

Whatever bytes come in, an open frame is in step with the wire: the bytes since the last start byte
are the stuffed form of the restored ones. So the byte that gets a frame accepted completes exactly
the encoding of that frame.

* `fromLastStart` — the bytes since the last start byte
* `Tracks` — the invariant, kept by every byte (`Tracks.step`) and so by every string (`Tracks.run`)
* `accepted_step_iff` — which byte gets which frame accepted
* `Decoder.accepts_iff_fromLastStart` — the same of the queue and of all that is handed out
-/

namespace FlightRecorder

open DecoderState

/-! ## Since the last start byte -/

/-- The bytes from the last start byte on; none if there is no start byte. -/
def fromLastStart : Bytes → Bytes
  | [] => []
  | byte :: rest =>
    if byte = startByte ∧ startByte ∉ rest then byte :: rest else fromLastStart rest

theorem fromLastStart_append {body : Bytes} (front : Bytes) (h : startByte ∉ body) :
    fromLastStart (front ++ startByte :: body) = startByte :: body := by
  induction front with
  | nil => simp [fromLastStart, h]
  | cons byte front ih =>
    have hmem : startByte ∈ front ++ startByte :: body := by simp
    rw [List.cons_append, fromLastStart, if_neg fun hc => hc.2 hmem, ih]

theorem exists_append_fromLastStart (data : Bytes) :
    ∃ front, data = front ++ fromLastStart data := by
  induction data with
  | nil => exact ⟨[], rfl⟩
  | cons byte data ih =>
    rw [fromLastStart]
    split
    · exact ⟨[], rfl⟩
    · obtain ⟨front, hfront⟩ := ih
      exact ⟨byte :: front, by rw [List.cons_append, ← hfront]⟩

/-- The last start byte of a stream that ends with an encoded frame is that of the frame. -/
theorem fromLastStart_eq_encode_iff (data : Bytes) (f : Frame) :
    fromLastStart data = f.encode ↔ ∃ front, data = front ++ f.encode := by
  constructor
  · intro h
    obtain ⟨front, hfront⟩ := exists_append_fromLastStart data
    exact ⟨front, by rw [← h]; exact hfront⟩
  · rintro ⟨front, rfl⟩
    rw [f.encode_eq, fromLastStart_append front (startByte_notMem_stuff f.bytes)]

/-! ## The decoder is in step with the wire -/

/-- A frame is accepted for its own bytes, and only if it is consistent. -/
theorem DecoderState.bytes_of_judge?_accepted {restored : Bytes} {f : Frame}
    (h : judge? restored = some (.accepted f)) : f.Consistent ∧ f.bytes = restored := by
  unfold judge? at h
  split at h
  · cases h
  · next header hh =>
    have htake := Header.ofBytes_eq_ok_iff.mp hh
    have hge := length_ge_of_ofBytes_take hh
    split at h
    · cases h
    · split at h
      · next hlen =>
        unfold settle at h
        split at h
        · next hv =>
          simp only [Option.some.injEq, Verdict.accepted.injEq] at h
          subst h
          refine ⟨⟨?_, hv⟩, ?_⟩
          · show header.length.toNat = headerSize + (restored.drop headerSize).length
            rw [List.length_drop]
            omega
          · show header.toBytes ++ restored.drop headerSize = restored
            rw [← htake, List.take_append_drop]
        · cases h
      · cases h

/-- The decoder is outside every frame, or what it has restored of an open one is what the wire has
brought since a start byte. -/
inductive DecoderState.Tracks (data : Bytes) : DecoderState → Prop
  | idle : Tracks data .idle
  | inside (front restored : Bytes) (escaped : Bool) (hopen : Unsettled restored)
      (hdata : data = front ++ startByte ::
        (stuff restored ++ if escaped then [escapeByte] else [])) :
      Tracks data (reading restored escaped)

namespace DecoderState

/-- A restored byte keeps the decoder in step, and gets only the frame on the wire accepted. -/
theorem Tracks.proceed {data restored : Bytes} {byte : UInt8} (front : Bytes)
    (hopen : Unsettled restored) (hdata : data = front ++ startByte :: stuff (restored ++ [byte])) :
    Tracks data (DecoderState.proceed (restored ++ [byte])).1 ∧
      ∀ f, (DecoderState.proceed (restored ++ [byte])).2 = some (.accepted f) →
        f.Consistent ∧ ∃ front, data = front ++ f.encode := by
  cases hj : judge? (restored ++ [byte]) with
  | none =>
    rw [DecoderState.proceed, hj]
    refine ⟨.inside front _ false (hopen.append_byte hj) ?_, fun f hf => by cases hf⟩
    simpa using hdata
  | some verdict =>
    rw [DecoderState.proceed, hj]
    refine ⟨.idle, fun f hf => ?_⟩
    cases hf
    obtain ⟨hcons, hbytes⟩ := bytes_of_judge?_accepted hj
    exact ⟨hcons, front, by rw [f.encode_eq, hbytes]; exact hdata⟩

/-- **Every byte keeps the decoder in step with the wire, and gets only a frame accepted whose
encoding it completes.** -/
theorem Tracks.step {data : Bytes} {state : DecoderState} (h : Tracks data state) (byte : UInt8) :
    Tracks (data ++ [byte]) (state.step byte).1 ∧
      ∀ f, (state.step byte).2 = some (.accepted f) →
        f.Consistent ∧ ∃ front, data ++ [byte] = front ++ f.encode := by
  by_cases hstart : byte = startByte
  · -- The only verdict of a start byte is a fault, and it begins a frame of its own.
    subst hstart
    rw [step_start]
    refine ⟨.inside data [] false unsettled_nil rfl, fun f hf => ?_⟩
    cases state <;> cases hf
  · cases h with
    | idle =>
      rw [step_idle hstart]
      exact ⟨.idle, fun f hf => by cases hf⟩
    | inside front restored escaped hopen hdata =>
      cases escaped with
      | false =>
        by_cases hescape : byte = escapeByte
        · subst hescape
          rw [step_escape hopen]
          refine ⟨.inside front restored true hopen ?_, fun f hf => by cases hf⟩
          rw [hdata]
          simp
        · rw [step_plain hopen hstart hescape]
          refine Tracks.proceed front hopen ?_
          rw [hdata, stuff_append, stuff_cons, stuffByte_of_plain hstart hescape]
          simp
      | true =>
        cases hr : restore? byte with
        | none =>
          rw [step_badEscape hopen hstart hr]
          exact ⟨.idle, fun f hf => by cases hf⟩
        | some plain =>
          rw [step_escaped hopen hr]
          refine Tracks.proceed front hopen ?_
          rw [hdata, stuff_append, stuff_cons, stuffByte_of_restore? hr]
          simp

/-- **Every byte string keeps the decoder in step with the wire.** -/
theorem Tracks.run {data : Bytes} {state : DecoderState} (h : Tracks data state) (more : Bytes) :
    Tracks (data ++ more) (state.run more).1 := by
  induction more generalizing data state with
  | nil => simpa using h
  | cons byte more ih =>
    have := ih (h.step byte).1
    rw [run_cons]
    simpa using this

/-! ## Accepted frames -/

/-- **A byte gets a frame accepted exactly when it completes the encoding of a consistent frame.** -/
theorem accepted_step_iff (before : Bytes) (byte : UInt8) (f : Frame) :
    ((idle.run before).1.step byte).2 = some (.accepted f) ↔
      f.Consistent ∧ fromLastStart (before ++ [byte]) = f.encode := by
  rw [fromLastStart_eq_encode_iff]
  constructor
  · have hstart : Tracks [] .idle := .idle
    exact ((hstart.run before).step byte).2 f
  · rintro ⟨hcons, front, hdata⟩
    -- From whatever state the encoding is read, its last byte settles it.
    obtain ⟨shorter, last, hencode, hrun⟩ := hcons.exists_last
    rw [hencode, ← List.append_assoc] at hdata
    obtain ⟨rfl, hlast⟩ := List.append_inj' hdata rfl
    obtain ⟨middle, hshorter, hstep⟩ := hrun (idle.run front).1
    cases hlast
    rw [run_append, hshorter, hstep]

end DecoderState

theorem Decoder.ready_push_append_iff (d : Decoder) (before : Bytes) (byte : UInt8) (f : Frame) :
    (d.push (before ++ [byte])).ready = (d.push before).ready ++ [.accepted f] ↔
      ((d.state.run before).1.step byte).2 = some (.accepted f) := by
  have hready : (d.push (before ++ [byte])).ready
      = (d.push before).ready ++ ((d.state.run before).1.step byte).2.toList := by
    simp [push, run_append, run_cons]
  rw [hready, List.append_right_inj]
  cases ((d.state.run before).1.step byte).2 <;> simp

/--
**The decoder accepts the encodings of consistent frames and nothing else.**

A byte queues a frame exactly when the frame is consistent and its encoding is what the wire has
brought since the last start byte; and every frame that calls ever hand out or leave in the queue
was queued by such a byte, behind as many verdicts as come before it.
-/
theorem Decoder.accepts_iff_fromLastStart :
    (∀ (before : Bytes) (byte : UInt8) (f : Frame),
      (fresh.push (before ++ [byte])).ready = (fresh.push before).ready ++ [.accepted f] ↔
        f.Consistent ∧ fromLastStart (before ++ [byte]) = f.encode) ∧
    (∀ (calls : List DecoderCall) (i : Nat) (f : Frame),
      (verdicts calls)[i]? = some (.accepted f) →
      f.Consistent ∧ ∃ before byte after,
        pushedBytes calls = before ++ byte :: after ∧
        (fresh.push before).ready.length = i ∧
        (fresh.push (before ++ [byte])).ready = (fresh.push before).ready ++ [.accepted f] ∧
        fromLastStart (before ++ [byte]) = f.encode) := by
  constructor
  · intro before byte f
    rw [ready_push_append_iff]
    exact accepted_step_iff before byte f
  · intro calls i f h
    rw [verdicts_eq] at h
    obtain ⟨before, byte, after, hdata, hlen, hstep⟩ := exists_byte_of_getElem? h
    obtain ⟨hcons, hencode⟩ := (accepted_step_iff before byte f).mp hstep
    refine ⟨hcons, before, byte, after, hdata, ?_, ?_, hencode⟩
    · simpa [push, fresh] using hlen
    · exact (ready_push_append_iff fresh before byte f).mpr hstep

/-- A frame behind noise and a frame that it cuts off is handed out by the third call. -/
theorem Decoder.accepts_among_noise :
    (verdicts [.push [0x01, 0x73, 0x02], .next, .push (Frame.build 7 .ack [0x73]).encode, .next])[1]?
        = some (.accepted (Frame.build 7 .ack [0x73])) ∧
      (Frame.build 7 .ack [0x73]).Consistent :=
  have h : (verdicts [.push [0x01, 0x73, 0x02], .next,
      .push (Frame.build 7 .ack [0x73]).encode, .next])[1]?
        = some (.accepted (Frame.build 7 .ack [0x73])) := by decide +kernel
  ⟨h, (accepts_iff_fromLastStart.2 _ 1 _ h).1⟩

end FlightRecorder
