import FlightRecorder.Wire.Decoder

/-!
# Calls on a decoder

A decoder is given bytes and asked for verdicts in any order. What it hands out, followed by what
still waits, are the verdicts on all bytes it was given; so each of them belongs to one byte.
-/

namespace FlightRecorder

/-- One call on a decoder. -/
inductive DecoderCall
  | push (data : Bytes)
  | next
  deriving DecidableEq, Repr

/-- The bytes that calls bring. -/
def DecoderCall.bytes : DecoderCall → Bytes
  | push data => data
  | next => []

/-- What calls bring, one behind the other. -/
def pushedBytes (calls : List DecoderCall) : Bytes := calls.flatMap DecoderCall.bytes

namespace Decoder

/-- The verdicts that calls hand out, earliest first, and the decoder behind the calls. -/
def serve (d : Decoder) : List DecoderCall → List Verdict × Decoder
  | [] => ([], d)
  | .push data :: calls => (d.push data).serve calls
  | .next :: calls =>
    (d.next.1.toList ++ (d.next.2.serve calls).1, (d.next.2.serve calls).2)

/-- The verdicts of a decoder: those that it has handed out, and those that wait. -/
def verdicts (calls : List DecoderCall) : List Verdict :=
  (fresh.serve calls).1 ++ (fresh.serve calls).2.ready

theorem next_eq (d : Decoder) :
    d.next.2.state = d.state ∧ d.next.1.toList ++ d.next.2.ready = d.ready := by
  unfold next
  split
  · next h => exact ⟨rfl, by rw [h]; rfl⟩
  · next h => exact ⟨rfl, by rw [h]; rfl⟩

/-- **However the calls are ordered, nothing is lost, added or moved.** -/
theorem serve_eq (d : Decoder) (calls : List DecoderCall) :
    (d.serve calls).2.state = (d.state.run (pushedBytes calls)).1 ∧
      (d.serve calls).1 ++ (d.serve calls).2.ready
        = d.ready ++ (d.state.run (pushedBytes calls)).2 := by
  induction calls generalizing d with
  | nil => simp [serve, pushedBytes]
  | cons call calls ih =>
    cases call with
    | push data =>
      obtain ⟨hstate, hready⟩ := ih (d.push data)
      have hbytes : pushedBytes (.push data :: calls) = data ++ pushedBytes calls := rfl
      rw [hbytes, DecoderState.run_append]
      refine ⟨hstate, hready.trans ?_⟩
      simp [push, List.append_assoc]
    | next =>
      -- Handing out moves the border between what was handed out and what waits, nothing else.
      obtain ⟨hstate, hready⟩ := ih d.next.2
      obtain ⟨hsame, hqueue⟩ := d.next_eq
      rw [hsame] at hstate hready
      refine ⟨hstate, ?_⟩
      show d.next.1.toList ++ (d.next.2.serve calls).1 ++ (d.next.2.serve calls).2.ready = _
      rw [List.append_assoc, hready, ← List.append_assoc, hqueue]
      rfl

theorem verdicts_eq (calls : List DecoderCall) :
    verdicts calls = (DecoderState.idle.run (pushedBytes calls)).2 :=
  (serve_eq fresh calls).2

end Decoder

/-- A verdict on a byte string is found at one byte, behind the verdicts on the bytes before. -/
theorem DecoderState.exists_byte_of_getElem? {state : DecoderState} {data : Bytes} {i : Nat}
    {verdict : Verdict} (h : (state.run data).2[i]? = some verdict) :
    ∃ before byte after, data = before ++ byte :: after ∧ (state.run before).2.length = i ∧
      ((state.run before).1.step byte).2 = some verdict := by
  induction data generalizing state i with
  | nil => cases h
  | cons byte data ih =>
    rw [run_cons] at h
    cases hs : (state.step byte).2 with
    | none =>
      rw [hs] at h
      obtain ⟨before, found, after, hdata, hlen, hstep⟩ := ih h
      refine ⟨byte :: before, found, after, by rw [hdata]; rfl, ?_, ?_⟩
      · rw [run_cons, hs]
        exact hlen
      · rw [run_cons]
        exact hstep
    | some first =>
      rw [hs] at h
      cases i with
      | zero =>
        refine ⟨[], byte, data, rfl, rfl, hs.trans ?_⟩
        simpa using h
      | succ i =>
        have hrest : ((state.step byte).1.run data).2[i]? = some verdict := by simpa using h
        obtain ⟨before, found, after, hdata, hlen, hstep⟩ := ih hrest
        refine ⟨byte :: before, found, after, by rw [hdata]; rfl, ?_, ?_⟩
        · rw [run_cons, hs]
          simp [hlen]
        · rw [run_cons]
          exact hstep

end FlightRecorder
