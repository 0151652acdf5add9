import FlightRecorder.Text.Utf8

/-!
# Null bytes behind a text

A null byte continues no character, so whatever stands in front of it is read as if nothing came
behind: null bytes at the end of a byte string become null characters at the end of the text, also
where the bytes break off inside a character.

* `readCharacter_append_nulls` — one character
* `decodeText_append_nulls` — the text
* `trimNulls_decodeText_append` — the text without the null characters at its end
-/

namespace FlightRecorder

/-- So many null bytes. -/
def nullBytes (count : Nat) : Bytes := List.replicate count 0

theorem nullBytes_succ (count : Nat) : nullBytes (count + 1) = 0 :: nullBytes count := rfl

theorem mayFollow_null (first : UInt8) : mayFollow first 0 = false := by
  unfold mayFollow
  repeat' split
  all_goals decide

/-! ## One character -/

theorem readTwo_append_nulls (first : UInt8) (rest : Bytes) (count : Nat) :
    readTwo first (rest ++ nullBytes count)
      = ((readTwo first rest).1, (readTwo first rest).2 ++ nullBytes count) := by
  cases rest with
  | nil => cases count <;> rfl
  | cons second rest =>
    rw [List.cons_append, readTwo, readTwo]
    split <;> rfl

theorem readThree_append_nulls (first : UInt8) (rest : Bytes) (count : Nat) :
    readThree first (rest ++ nullBytes count)
      = ((readThree first rest).1, (readThree first rest).2 ++ nullBytes count) := by
  cases rest with
  | nil =>
    cases count with
    | zero => rfl
    | succ count => simp [readThree, nullBytes_succ, mayFollow_null]
  | cons second rest =>
    simp only [List.cons_append, readThree]
    split
    · cases rest with
      | nil => cases count <;> rfl
      | cons third rest =>
        rw [List.cons_append]
        dsimp only
        split <;> rfl
    · rfl

theorem readFour_append_nulls (first : UInt8) (rest : Bytes) (count : Nat) :
    readFour first (rest ++ nullBytes count)
      = ((readFour first rest).1, (readFour first rest).2 ++ nullBytes count) := by
  cases rest with
  | nil =>
    cases count with
    | zero => rfl
    | succ count => simp [readFour, nullBytes_succ, mayFollow_null]
  | cons second rest =>
    simp only [List.cons_append, readFour]
    split
    · cases rest with
      | nil => cases count <;> rfl
      | cons third rest =>
        rw [List.cons_append]
        dsimp only
        split
        · cases rest with
          | nil => cases count <;> rfl
          | cons fourth rest =>
            rw [List.cons_append]
            dsimp only
            split <;> rfl
        · rfl
    · rfl

/-- **A character is read as if no null bytes came behind it.** -/
theorem readCharacter_append_nulls (first : UInt8) (rest : Bytes) (count : Nat) :
    readCharacter first (rest ++ nullBytes count)
      = ((readCharacter first rest).1, (readCharacter first rest).2 ++ nullBytes count) := by
  unfold readCharacter
  split
  · rfl
  · exact readTwo_append_nulls first rest count
  · exact readThree_append_nulls first rest count
  · exact readFour_append_nulls first rest count
  · rfl

/-! ## The text -/

theorem decodeOnto_nulls (earlier : List Char) (count : Nat) :
    decodeOnto earlier (nullBytes count) = earlier.reverse ++ List.replicate count '\x00' := by
  induction count generalizing earlier with
  | zero =>
    rw [nullBytes, List.replicate_zero, decodeOnto, List.replicate_zero, List.append_nil]
  | succ count ih =>
    have hread : readCharacter 0 (nullBytes count) = ('\x00', nullBytes count) := rfl
    rw [nullBytes_succ, decodeOnto, hread, ih, List.reverse_cons, List.append_assoc]
    rfl

/-- **Null bytes at the end become null characters at the end.** -/
theorem decodeText_append_nulls (bytes : Bytes) (count : Nat) :
    decodeText (bytes ++ nullBytes count) = decodeText bytes ++ List.replicate count '\x00' := by
  suffices h : ∀ earlier, decodeOnto earlier (bytes ++ nullBytes count)
      = decodeOnto earlier bytes ++ List.replicate count '\x00' from h []
  intro earlier
  fun_induction decodeOnto earlier bytes with
  | case1 earlier => exact decodeOnto_nulls earlier count
  | case2 earlier first rest ih =>
    rw [List.cons_append, decodeOnto, readCharacter_append_nulls]
    exact ih

theorem trimNulls_append_nulls (text : List Char) (count : Nat) :
    trimNulls (text ++ List.replicate count '\x00') = trimNulls text := by
  rw [trimNulls, List.reverse_append, List.reverse_replicate,
    List.dropWhile_append_of_pos (fun c hc => ?_), trimNulls]
  rw [List.eq_of_mem_replicate hc]
  rfl

/-- **Null bytes at the end do not change the text without the null characters at its end.** -/
theorem trimNulls_decodeText_append (bytes : Bytes) (count : Nat) :
    trimNulls (decodeText (bytes ++ nullBytes count)) = trimNulls (decodeText bytes) := by
  rw [decodeText_append_nulls, trimNulls_append_nulls]

end FlightRecorder
