import FlightRecorder.Proofs.Wire.Soundness

/-!
# The decoder in separate parts

A decoder can keep the part of a frame it is in, its buffer and its flag apart, and change each of
them by itself. Then it can come to hold what no stream accounts for: bytes without a frame, an
escape byte that nobody waits for, more bytes than a frame has. It never does. Kept apart, the parts
are at every moment those of the decoder of a connection, which is in step with the wire.

* `Registers` — the parts, and what a byte does to each of them
* `DecoderUse`, `serveUses` — bytes, requests for verdicts and resets, in any order
* `Registers.pushByte_registers`, `Registers.serveUses_registers` — it is the same decoder
* `Registers.WellFormed`, `Registers.wellFormed_of_tracks` — what the parts have to do with each
  other
* `Registers.LastByte`, `Registers.pushByte_of_lastByte`, `Registers.faults_of_not_lastByte` — which
  byte completes a frame
* `Registers.wellFormed_behind_uses` — what holds behind all uses
-/

namespace FlightRecorder

/-- The parts of a decoder. -/
structure Registers where
  /-- The part of a frame that is being read; there is none outside every frame. -/
  part : Option FramePart
  /-- The restored bytes of that part. -/
  buffer : Array UInt8
  /-- Whether an escape byte waits for its second byte. -/
  escaped : Bool
  /-- The verdicts that wait to be taken, earliest first. -/
  ready : List Verdict
  deriving DecidableEq, Repr

namespace Registers

/-! ## What changes which part -/

/-- The parts of a new decoder. -/
def fresh : Registers := { part := none, buffer := #[], escaped := false, ready := [] }

/-- Refuses the frame that is being read. -/
def fail (r : Registers) (fault : FrameFault) : Registers where
  part := none
  buffer := #[]
  escaped := false
  ready := r.ready ++ [.refused fault]

/-- Closes a frame whose payload is in the buffer. -/
def complete (r : Registers) (header : Header) : Registers :=
  { r with
    part := none
    buffer := #[]
    ready := r.ready ++ [DecoderState.settle header r.buffer.toList] }

/-- Goes on to the payload that a header announces. -/
def announce (r : Registers) (header : Header) : Registers :=
  match header.payloadLength with
  | .ok 0 => r.complete header
  | .ok length => { r with part := some (.payload header length) }
  | .error fault => r.fail fault

/-- Looks whether the part that is being read is complete. -/
def advance (r : Registers) : Registers :=
  match r.part with
  | none => r
  | some .header =>
    if r.buffer.size < headerSize then r
    else
      match Header.ofBytes r.buffer.toList with
      | .ok header => announce { r with buffer := #[] } header
      | .error fault => r.fail fault
  | some (.payload header length) =>
    if r.buffer.size = length then r.complete header else r

/-- Puts a restored byte into the buffer. -/
def store (r : Registers) (plain : UInt8) : Registers :=
  advance { r with buffer := r.buffer.push plain }

/-- Opens a frame; the one that is being read has lost its end. -/
def openFrame (r : Registers) : Registers where
  part := some .header
  buffer := #[]
  escaped := false
  ready := if r.part = none then r.ready else r.ready ++ [.refused .strayStart]

/-- Reads one byte. -/
def pushByte (r : Registers) (byte : UInt8) : Registers :=
  if byte = startByte then r.openFrame
  else if r.part = none then r
  else if r.escaped then
    match restore? byte with
    | some plain => store { r with escaped := false } plain
    | none => fail { r with escaped := false } (.badEscape byte)
  else if byte = escapeByte then { r with escaped := true }
  else r.store byte

/-- Reads a byte string. -/
def push (r : Registers) (data : Bytes) : Registers := data.foldl pushByte r

/-- Takes the earliest verdict. -/
def next (r : Registers) : Option Verdict × Registers :=
  match r.ready with
  | [] => (none, r)
  | verdict :: ready => (some verdict, { r with ready := ready })

/-- Drops the frame that is being read and all verdicts. -/
def reset (_ : Registers) : Registers where
  part := none
  buffer := #[]
  escaped := false
  ready := []

end Registers

/-! ## Calls -/

/-- All that can be done with a decoder. -/
inductive DecoderUse
  | call (call : DecoderCall)
  /-- The frame that is being read and all verdicts are dropped. -/
  | reset
  deriving DecidableEq, Repr

/-- What uses hand out, earliest first, and what is behind them. -/
def serveUses {σ : Type} (serve : σ → DecoderUse → List Verdict × σ) :
    σ → List DecoderUse → List Verdict × σ
  | state, [] => ([], state)
  | state, use :: uses =>
    ((serve state use).1 ++ (serveUses serve (serve state use).2 uses).1,
      (serveUses serve (serve state use).2 uses).2)

/-- One use of a decoder. A decoder that is reset is like a new one. -/
def Decoder.serveUse (d : Decoder) : DecoderUse → List Verdict × Decoder
  | .call call => d.serve [call]
  | .reset => ([], fresh)

/-- One use of a decoder in separate parts. -/
def Registers.serveUse (r : Registers) : DecoderUse → List Verdict × Registers
  | .call (.push data) => ([], r.push data)
  | .call .next => (r.next.1.toList, r.next.2)
  | .reset => ([], r.reset)

/-! ## One decoder -/

/-- The parts of a decoder in this state. Outside every frame it holds nothing. -/
def DecoderState.registers (ready : List Verdict) : DecoderState → Registers
  | idle => { part := none, buffer := #[], escaped := false, ready := ready }
  | within part escaped buffer =>
    { part := some part, buffer := buffer, escaped := escaped, ready := ready }

/-- The parts of a decoder. -/
def Decoder.registers (d : Decoder) : Registers := d.state.registers d.ready

namespace Registers

/-- Looking whether a part is complete changes the parts as it changes the state. -/
theorem advance_eq (part : FramePart) (buffer : Array UInt8) (ready : List Verdict) :
    advance { part := some part, buffer := buffer, escaped := false, ready := ready }
      = (DecoderState.advance buffer part).1.registers
          (ready ++ (DecoderState.advance buffer part).2.toList) := by
  cases part with
  | header =>
    simp only [advance, DecoderState.advance]
    by_cases hshort : buffer.size < headerSize
    · rw [if_pos hshort, if_pos hshort]
      simp [DecoderState.registers]
    · rw [if_neg hshort, if_neg hshort]
      cases Header.ofBytes buffer.toList with
      | error fault => rfl
      | ok header =>
        simp only [announce]
        rcases header.payloadLength with fault | _ | length
        · rfl
        · rfl
        · simp [DecoderState.registers]
  | payload header length =>
    simp only [advance, DecoderState.advance]
    by_cases hfull : buffer.size = length
    · rw [if_pos hfull, if_pos hfull]
      rfl
    · rw [if_neg hfull, if_neg hfull]
      simp [DecoderState.registers]

/-- **A byte changes the parts as it changes the state.** -/
theorem pushByte_registers (state : DecoderState) (ready : List Verdict) (byte : UInt8) :
    (state.registers ready).pushByte byte
      = (state.step byte).1.registers (ready ++ (state.step byte).2.toList) := by
  cases state with
  | idle =>
    by_cases hstart : byte = startByte
    · simp [pushByte, openFrame, DecoderState.step, DecoderState.registers, hstart]
    · simp [pushByte, DecoderState.step, DecoderState.registers, hstart]
  | within part escaped buffer =>
    by_cases hstart : byte = startByte
    · simp [pushByte, openFrame, DecoderState.step, DecoderState.registers, hstart]
    · simp only [pushByte, DecoderState.registers, DecoderState.step, DecoderState.stepWithin,
        if_neg hstart, reduceCtorEq, if_false]
      cases escaped with
      | true =>
        cases restore? byte with
        | none => rfl
        | some plain => exact advance_eq part (buffer.push plain) ready
      | false =>
        by_cases hescape : byte = escapeByte
        · simp [hescape]
        · rw [if_neg hescape, if_neg hescape]
          exact advance_eq part (buffer.push byte) ready

theorem push_registers (state : DecoderState) (ready : List Verdict) (data : Bytes) :
    (state.registers ready).push data
      = (state.run data).1.registers (ready ++ (state.run data).2) := by
  induction data generalizing state ready with
  | nil => simp [push]
  | cons byte data ih =>
    have hrest := ih (state.step byte).1 (ready ++ (state.step byte).2.toList)
    rw [push, List.foldl_cons, pushByte_registers, DecoderState.run_cons]
    rw [push] at hrest
    rw [hrest, List.append_assoc]

theorem next_registers (d : Decoder) :
    d.registers.next = (d.next.1, d.next.2.registers) := by
  obtain ⟨state, ready⟩ := d
  cases ready <;> cases state <;> rfl

/-- **One use of the parts is one use of the decoder.** -/
theorem serveUse_registers (d : Decoder) (use : DecoderUse) :
    d.registers.serveUse use = ((d.serveUse use).1, (d.serveUse use).2.registers) := by
  match use with
  | .reset => rfl
  | .call (.push data) =>
    exact Prod.ext rfl (push_registers d.state d.ready data)
  | .call .next =>
    rw [serveUse, next_registers, Decoder.serveUse, Decoder.serve, Decoder.serve, List.append_nil]

/-- **All uses of the parts are uses of the decoder.** -/
theorem serveUses_registers (d : Decoder) (uses : List DecoderUse) :
    serveUses serveUse d.registers uses
      = ((serveUses Decoder.serveUse d uses).1,
          (serveUses Decoder.serveUse d uses).2.registers) := by
  induction uses generalizing d with
  | nil => rfl
  | cons use uses ih =>
    simp only [serveUses, serveUse_registers, ih]

end Registers

/-! ## What a decoder holds -/

open DecoderState

/-- Behind any uses the decoder stands where the bytes since the last reset have brought it. -/
theorem Decoder.exists_run_serveUses (uses : List DecoderUse) :
    ∃ data, (serveUses serveUse fresh uses).2.state = (DecoderState.idle.run data).1 := by
  have hall : ∀ (d : Decoder) (before : Bytes), d.state = (DecoderState.idle.run before).1 →
      ∃ data, (serveUses serveUse d uses).2.state = (DecoderState.idle.run data).1 := by
    induction uses with
    | nil => exact fun d before hd => ⟨before, hd⟩
    | cons use uses ih =>
      intro d before hd
      cases use with
      | reset => exact ih fresh [] rfl
      | call call =>
        refine ih (d.serve [call]).2 (before ++ pushedBytes [call]) ?_
        rw [(d.serve_eq [call]).1, hd, DecoderState.run_append]
  exact hall fresh [] rfl

namespace Registers

/-- The byte that is restored when `byte` is read. -/
def restored? (r : Registers) (byte : UInt8) : Option UInt8 :=
  if byte = startByte ∨ r.part = none then none
  else if r.escaped then restore? byte
  else if byte = escapeByte then none
  else some byte

/-- The restored bytes of the frame that is being read. -/
def received (r : Registers) : Bytes :=
  match r.part with
  | none => []
  | some .header => r.buffer.toList
  | some (.payload header _) => header.toBytes ++ r.buffer.toList

/-- What the parts have to do with each other. -/
structure WellFormed (r : Registers) : Prop where
  /-- Outside every frame nothing is kept. -/
  outside : r.part = none → r.buffer = #[] ∧ r.escaped = false
  /-- A header is read until it is there. -/
  header : r.part = some .header → r.buffer.size < headerSize
  /-- A payload is read until it is as long as its header says. -/
  payload : ∀ header length, r.part = some (.payload header length) →
    header.payloadLength = .ok length ∧ 1 ≤ length ∧ length ≤ maxPayloadSize ∧
      r.buffer.size < length

theorem wellFormed_idle (ready : List Verdict) : (idle.registers ready).WellFormed where
  outside _ := ⟨rfl, rfl⟩
  header hpart := by cases hpart
  payload _ _ hpart := by cases hpart

/-- **An open frame holds fewer bytes than it has.** -/
theorem wellFormed_reading {restored : Bytes} (h : Unsettled restored) (escaped : Bool)
    (ready : List Verdict) : ((reading restored escaped).registers ready).WellFormed := by
  rw [reading]
  cases hh : Header.ofBytes (restored.take headerSize) with
  | error fault =>
    have hshort : restored.length < headerSize := by
      refine Nat.lt_of_not_le fun hlong => ?_
      obtain ⟨header, hok⟩ := Header.exists_ofBytes_eq_ok (List.length_take_of_le hlong)
      rw [hok] at hh
      cases hh
    constructor
    case outside =>
      intro hpart
      cases hpart
    case header => exact fun _ => hshort
    case payload =>
      intro _ _ hpart
      cases hpart
  | ok header =>
    have hge := length_ge_of_ofBytes_take hh
    have hlt := h header hh
    have hbound : header.length.toNat < 65536 := header.length.toNat_lt
    have hsize : (restored.drop headerSize).toArray.size = restored.length - headerSize := by
      rw [List.size_toArray, List.length_drop]
    constructor
    case outside =>
      intro hpart
      cases hpart
    case header =>
      intro hpart
      cases hpart
    case payload =>
      intro _ _ hpart
      cases hpart
      refine ⟨?_, by omega, ?_, ?_⟩
      · rw [Header.payloadLength, if_neg (by omega)]
      · rw [maxPayloadSize]
        omega
      · show (restored.drop headerSize).toArray.size < header.length.toNat - headerSize
        omega

theorem received_reading (restored : Bytes) (escaped : Bool) (ready : List Verdict) :
    ((reading restored escaped).registers ready).received = restored := by
  rw [reading]
  cases hh : Header.ofBytes (restored.take headerSize) with
  | error fault => rfl
  | ok header =>
    show header.toBytes ++ restored.drop headerSize = restored
    rw [← Header.ofBytes_eq_ok_iff.mp hh, List.take_append_drop]

theorem ready_registers (state : DecoderState) (ready : List Verdict) :
    (state.registers ready).ready = ready := by
  cases state <;> rfl

/-! ## What a byte decides -/

/-- The byte is the last one of a frame: what it restores completes the bytes that the length field
of the frame counts. -/
def LastByte (r : Registers) (byte : UInt8) (f : Frame) : Prop :=
  f.Counted ∧ ∃ plain, r.restored? byte = some plain ∧ r.received ++ [plain] = f.bytes

/-- A byte that restores another one makes the open frame longer by that. -/
theorem step_of_restored {restored : Bytes} (h : Unsettled restored) {escaped : Bool}
    {ready : List Verdict} {byte plain : UInt8}
    (hplain : ((reading restored escaped).registers ready).restored? byte = some plain) :
    (reading restored escaped).step byte = proceed (restored ++ [plain]) := by
  obtain ⟨part, buffer, hreading, -⟩ := h.exists_part
  rw [hreading, DecoderState.registers, restored?] at hplain
  split at hplain
  · cases hplain
  · next hopen =>
    obtain ⟨hstart, -⟩ := not_or.mp hopen
    cases escaped with
    | true => exact step_escaped h hplain
    | false =>
      simp only [Bool.false_eq_true, if_false] at hplain
      split at hplain
      · cases hplain
      · next hescape =>
        cases hplain
        exact step_plain h hstart hescape

/-- A byte that restores none decides nothing but that the frame is broken. -/
theorem step_of_not_restored {state : DecoderState} {ready : List Verdict} {byte : UInt8}
    (h : (state.registers ready).restored? byte = none) :
    ∀ verdict ∈ (state.step byte).2,
      verdict = .refused .strayStart ∨ verdict = .refused (.badEscape byte) := by
  intro verdict hverdict
  cases state with
  | idle =>
    rw [step] at hverdict
    split at hverdict <;> cases hverdict
  | within part escaped buffer =>
    rw [step] at hverdict
    split at hverdict
    · cases hverdict
      exact .inl rfl
    · next hstart =>
      rw [DecoderState.registers, restored?, if_neg (by simp [hstart])] at h
      cases escaped with
      | true =>
        have hnone : restore? byte = none := h
        simp only [stepWithin, if_true, hnone] at hverdict
        cases hverdict
        exact .inr rfl
      | false =>
        simp only [Bool.false_eq_true, if_false] at h
        split at h
        · next hescape =>
          simp only [stepWithin, Bool.false_eq_true, if_false, if_pos hescape] at hverdict
          cases hverdict
        · cases h

/-- What is decided about restored bytes is that their length field is too small, or that they are a
whole frame. -/
theorem exists_frame_of_judge? {restored : Bytes} {verdict : Verdict}
    (h : judge? restored = some verdict) :
    (∃ length, verdict = .refused (.lengthTooSmall length)) ∨
      ∃ f : Frame, f.Counted ∧ restored = f.bytes := by
  unfold judge? at h
  split at h
  · cases h
  · next header hh =>
    have htake := Header.ofBytes_eq_ok_iff.mp hh
    have hge := length_ge_of_ofBytes_take hh
    split at h
    · cases h
      exact .inl ⟨_, rfl⟩
    · split at h
      · next hlength =>
        refine .inr ⟨{ header := header, payload := restored.drop headerSize }, ?_, ?_⟩
        · show header.length.toNat = headerSize + (restored.drop headerSize).length
          rw [List.length_drop]
          omega
        · show restored = header.toBytes ++ restored.drop headerSize
          rw [← htake, List.take_append_drop]
      · cases h

/-- **The last byte of a frame completes it.** -/
theorem pushByte_of_lastByte {data : Bytes} {state : DecoderState} (h : Tracks data state)
    {ready : List Verdict} {byte : UInt8} {f : Frame}
    (hlast : (state.registers ready).LastByte byte f) :
    (state.registers ready).pushByte byte
      = idle.registers (ready ++ [settle f.header f.payload]) := by
  obtain ⟨hcounted, plain, hplain, hbytes⟩ := hlast
  cases h with
  | idle =>
    rw [restored?, if_pos (.inr rfl)] at hplain
    cases hplain
  | inside front restored escaped hopen =>
    rw [received_reading] at hbytes
    rw [pushByte_registers, step_of_restored hopen hplain, hbytes, proceed, hcounted.judge?_bytes]
    rfl

/-- **No other byte completes one.** -/
theorem faults_of_not_lastByte {data : Bytes} {state : DecoderState} (h : Tracks data state)
    {ready : List Verdict} {byte : UInt8}
    (hnone : ∀ f, ¬ (state.registers ready).LastByte byte f) :
    ∀ verdict ∈ (state.step byte).2,
      verdict = .refused .strayStart ∨ verdict = .refused (.badEscape byte) ∨
        ∃ length, verdict = .refused (.lengthTooSmall length) := by
  intro verdict hverdict
  cases hplain : (state.registers ready).restored? byte with
  | none =>
    rcases step_of_not_restored hplain verdict hverdict with hfault | hfault
    · exact .inl hfault
    · exact .inr (.inl hfault)
  | some plain =>
    cases h with
    | idle =>
      rw [restored?, if_pos (.inr rfl)] at hplain
      cases hplain
    | inside front restored escaped hopen =>
      rw [step_of_restored hopen hplain, proceed] at hverdict
      split at hverdict
      · cases hverdict
      · next found hj =>
        cases hverdict
        rcases exists_frame_of_judge? hj with hsmall | ⟨f, hcounted, hbytes⟩
        · exact .inr (.inr hsmall)
        · refine absurd ⟨hcounted, plain, hplain, ?_⟩ (hnone f)
          rw [received_reading, hbytes]

theorem wellFormed_of_tracks {data : Bytes} {state : DecoderState} (h : Tracks data state)
    (ready : List Verdict) : (state.registers ready).WellFormed := by
  cases h with
  | idle => exact wellFormed_idle ready
  | inside front restored escaped hopen => exact wellFormed_reading hopen escaped ready

theorem WellFormed.size_le {r : Registers} (h : r.WellFormed) : r.buffer.size ≤ maxPayloadSize := by
  rcases hpart : r.part with _ | _ | ⟨header, length⟩
  · rw [(h.outside hpart).1]
    exact Nat.zero_le _
  · exact Nat.le_trans (Nat.le_of_lt (h.header hpart)) (by decide)
  · obtain ⟨-, -, hmax, hless⟩ := h.payload header length hpart
    omega

/-- One more byte of an open frame is not too much for the buffer. -/
theorem WellFormed.size_push {r : Registers} (h : r.WellFormed) {byte plain : UInt8}
    (hplain : r.restored? byte = some plain) :
    (r.buffer.push plain).size ≤ maxPayloadSize ∧
      (r.part = some .header → (r.buffer.push plain).size ≤ headerSize ∧
        (headerSize ≤ (r.buffer.push plain).size →
          ∃ header, Header.ofBytes (r.buffer.push plain).toList = .ok header)) ∧
      ∀ header length, r.part = some (.payload header length) →
        (r.buffer.push plain).size ≤ length := by
  have hsize : (r.buffer.push plain).size = r.buffer.size + 1 := Array.size_push plain
  have hheader (hpart : r.part = some .header) : (r.buffer.push plain).size ≤ headerSize := by
    have := h.header hpart
    omega
  have hpayload (header : Header) (length : Nat) (hpart : r.part = some (.payload header length)) :
      (r.buffer.push plain).size ≤ length ∧ length ≤ maxPayloadSize := by
    obtain ⟨-, -, hmax, hless⟩ := h.payload header length hpart
    omega
  refine ⟨?_, fun hpart => ⟨hheader hpart, fun hfull => ?_⟩,
    fun header length hpart => (hpayload header length hpart).1⟩
  · rcases hpart : r.part with _ | _ | ⟨header, length⟩
    · rw [restored?, if_pos (.inr hpart)] at hplain
      cases hplain
    · exact Nat.le_trans (hheader hpart) (by decide)
    · exact Nat.le_trans (hpayload header length hpart).1 (hpayload header length hpart).2
  · exact Header.exists_ofBytes_eq_ok (Nat.le_antisymm (hheader hpart) hfull)

/-! ## Every use -/

/--
**What a decoder holds fits together behind every call.**

The parts of a decoder are those of the decoder of a connection, and hand out the same verdicts.
Outside every frame nothing is kept; a header is shorter than a header, and a payload, which has at
least one byte and no more than a frame can have, is shorter than its header says. So the buffer
never holds more than the longest payload, even before it is looked at, and a header that is
complete can be read. A frame is completed by its last byte, with the verdict on its checksum; every
other byte decides at most that a frame is broken.
-/
theorem wellFormed_behind_uses (uses : List DecoderUse) :
    let served := serveUses serveUse fresh uses
    let decoder := serveUses Decoder.serveUse .fresh uses
    let r := served.2
    served = (decoder.1, decoder.2.registers) ∧
    r.WellFormed ∧
    r.buffer.size ≤ maxPayloadSize ∧
    (∀ byte plain, r.restored? byte = some plain →
      (r.buffer.push plain).size ≤ maxPayloadSize ∧
      (r.part = some .header → (r.buffer.push plain).size ≤ headerSize ∧
        (headerSize ≤ (r.buffer.push plain).size →
          ∃ header, Header.ofBytes (r.buffer.push plain).toList = .ok header)) ∧
      ∀ header length, r.part = some (.payload header length) →
        (r.buffer.push plain).size ≤ length) ∧
    (∀ byte f, r.LastByte byte f →
      r.pushByte byte =
        { part := none, buffer := #[], escaped := false
          ready := r.ready ++ [settle f.header f.payload] }) ∧
    (∀ byte, (∀ f, ¬ r.LastByte byte f) → ∃ faults,
      (r.pushByte byte).ready = r.ready ++ faults ∧
      ∀ verdict ∈ faults, verdict = .refused .strayStart ∨ verdict = .refused (.badEscape byte) ∨
        ∃ length, verdict = .refused (.lengthTooSmall length)) := by
  intro served decoder r
  have hserved : served = (decoder.1, decoder.2.registers) := serveUses_registers .fresh uses
  have hr : r = decoder.2.state.registers decoder.2.ready := congrArg Prod.snd hserved
  obtain ⟨data, hdata⟩ := Decoder.exists_run_serveUses uses
  have htracks : Tracks data decoder.2.state := by
    have hstart : Tracks [] .idle := .idle
    have hrun := hstart.run data
    rwa [← hdata] at hrun
  have hwell : r.WellFormed := hr ▸ wellFormed_of_tracks htracks decoder.2.ready
  refine ⟨hserved, hwell, hwell.size_le, fun byte plain => hwell.size_push, fun byte f hlast => ?_,
    fun byte hnone => ?_⟩
  · rw [hr] at hlast ⊢
    rw [ready_registers]
    exact pushByte_of_lastByte htracks hlast
  · rw [hr] at hnone ⊢
    refine ⟨(decoder.2.state.step byte).2.toList, ?_, fun verdict hverdict => ?_⟩
    · rw [pushByte_registers, ready_registers, ready_registers]
    · exact faults_of_not_lastByte htracks hnone verdict (Option.mem_toList.mp hverdict)

/-- A frame whose last byte is stuffed, behind a frame that was dropped: the second byte of the pair
is the last byte of the frame, and completes it. -/
theorem wellFormed_before_stuffed_byte :
    let f := Frame.build 7 .ack [startByte]
    let uses : List DecoderUse :=
      [.call (.push [startByte, 1, escapeByte]), .reset, .call (.push f.encode.dropLast)]
    let r := (serveUses serveUse fresh uses).2
    r.LastByte escapedStart f ∧
      r.pushByte escapedStart
        = { part := none, buffer := #[], escaped := false, ready := [.accepted f] } := by
  intro f uses r
  have hlast : r.LastByte escapedStart f :=
    ⟨(Frame.consistent_build 7 .ack (by decide)).length_eq, startByte, by decide +kernel,
      by decide +kernel⟩
  obtain ⟨-, -, -, -, hcompletes, -⟩ := wellFormed_behind_uses uses
  have hready : r.ready ++ [settle f.header f.payload] = [.accepted f] := by decide +kernel
  refine ⟨hlast, (hcompletes escapedStart f hlast).trans ?_⟩
  rw [hready]

end Registers

end FlightRecorder
