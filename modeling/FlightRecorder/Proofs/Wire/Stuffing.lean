import FlightRecorder.Wire.Stuffing

/-!
# Stuffed bytes

What a stuffed byte looks like on the wire: a pair if it is reserved, itself if it is not, and never
a start byte.
-/

namespace FlightRecorder

/-- An escape pair stands for one byte, whose stuffed form it is. -/
theorem stuffByte_of_restore? {second plain : UInt8} (h : restore? second = some plain) :
    stuffByte plain = [escapeByte, second] := by
  unfold restore? at h
  split at h
  · next hs =>
    cases h
    rw [hs]
    rfl
  · split at h
    · next hs =>
      cases h
      rw [hs]
      rfl
    · cases h

theorem stuffByte_of_plain {byte : UInt8} (hstart : byte ≠ startByte)
    (hescape : byte ≠ escapeByte) : stuffByte byte = [byte] := by
  rw [stuffByte, if_neg hstart, if_neg hescape]

theorem startByte_notMem_stuffByte (byte : UInt8) : startByte ∉ stuffByte byte := by
  unfold stuffByte
  split
  · decide
  · next hstart =>
    split
    · decide
    · exact fun hmem => hstart (List.mem_singleton.mp hmem).symm

/-- **Stuffed bytes contain no start byte.** -/
theorem startByte_notMem_stuff (data : Bytes) : startByte ∉ stuff data := by
  intro hmem
  obtain ⟨byte, -, hbyte⟩ := List.mem_flatMap.mp hmem
  exact startByte_notMem_stuffByte byte hbyte

end FlightRecorder
