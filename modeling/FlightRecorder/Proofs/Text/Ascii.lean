import FlightRecorder.Text.Utf8
import Mathlib.Data.List.TakeWhile

/-!
# ASCII text in front of other bytes

What stands behind an ASCII text in a byte string may be in any encoding, or in none. The text in
front of it is read as it is: an ASCII character is one byte and ends with it. What stands behind is
read to something that is more than null characters, unless there are only null bytes.

* `decodeText_map_asciiByte_append` — ASCII text is read as it is, whatever comes behind
* `fst_readCharacter_eq_null_iff`, `forall_decodeText_eq_null_iff` — null characters come from null
  bytes alone
* `trimNulls_decodeText_map_asciiByte_append` — ASCII text and what is left of the bytes behind it
-/

namespace FlightRecorder

/-- The characters of one byte. -/
def IsAscii (c : Char) : Prop := c.toNat < 0x80

instance (c : Char) : Decidable (IsAscii c) := inferInstanceAs (Decidable (c.toNat < 0x80))

/-- The byte of an ASCII character. -/
def asciiByte (c : Char) : UInt8 := UInt8.ofNat c.toNat

theorem toNat_asciiByte {c : Char} (h : IsAscii c) : (asciiByte c).toNat = c.toNat := by
  exact UInt8.toNat_ofNat_of_lt' (Nat.lt_trans h (by decide))

/-- An ASCII text has as many bytes as characters. -/
theorem utf8Size_of_isAscii {text : List Char} (h : ∀ c ∈ text, IsAscii c) :
    utf8Size text = text.length := by
  induction text with
  | nil => rfl
  | cons c text ih =>
    rw [List.forall_mem_cons] at h
    have hc : c.utf8Size = 1 := by
      have hsmall := h.1
      unfold IsAscii at hsmall
      rw [Char.utf8Size_eq_one_iff, UInt32.le_iff_toNat_le]
      exact Nat.le_of_lt_succ hsmall
    have htext := ih h.2
    rw [utf8Size] at htext ⊢
    rw [List.foldr_cons, htext, hc, List.length_cons, Nat.add_comm]

/-! ## Reading on -/

@[simp]
theorem decodeText_nil : decodeText [] = [] := by
  rw [decodeText, decodeOnto, List.reverse_nil]

/-- What was read before stands in front. -/
theorem decodeOnto_append (earlier more : List Char) (bytes : Bytes) :
    decodeOnto (earlier ++ more) bytes = more.reverse ++ decodeOnto earlier bytes := by
  fun_induction decodeOnto earlier bytes with
  | case1 earlier => rw [decodeOnto, List.reverse_append]
  | case2 earlier first rest ih => rw [decodeOnto, ← List.cons_append, ih]

/-- **A text is its first character and the text of the bytes behind that.** -/
theorem decodeText_cons (first : UInt8) (rest : Bytes) :
    decodeText (first :: rest)
      = (readCharacter first rest).1 :: decodeText (readCharacter first rest).2 := by
  have hfirst := decodeOnto_append [] [(readCharacter first rest).1] (readCharacter first rest).2
  rw [decodeText, decodeOnto]
  exact hfirst

/-! ## ASCII text -/

theorem characterWidth_of_toNat_lt {first : UInt8} (h : first.toNat < 0x80) :
    characterWidth first = 1 := by
  have hle : first ≤ 0x7F := UInt8.le_iff_toNat_le.mpr (Nat.le_of_lt_succ h)
  rw [characterWidth, if_pos hle]

/-- An ASCII character is read without a look at what comes behind it. -/
theorem readCharacter_asciiByte {c : Char} (h : IsAscii c) (rest : Bytes) :
    readCharacter (asciiByte c) rest = (c, rest) := by
  have hsmall : (asciiByte c).toNat < 0x80 := by
    rw [toNat_asciiByte h]
    exact h
  unfold readCharacter
  rw [characterWidth_of_toNat_lt hsmall, toNat_asciiByte h, Char.ofNat_toNat]
  rfl

/-- **ASCII text is read as it is, whatever bytes come behind it.** -/
theorem decodeText_map_asciiByte_append {text : List Char} (h : ∀ c ∈ text, IsAscii c)
    (rest : Bytes) : decodeText (text.map asciiByte ++ rest) = text ++ decodeText rest := by
  induction text with
  | nil => rfl
  | cons c text ih =>
    rw [List.forall_mem_cons] at h
    rw [List.map_cons, List.cons_append, decodeText_cons, readCharacter_asciiByte h.1, ih h.2,
      List.cons_append]

/-! ## Null characters -/

/-- A number that is no character would be read as the null character. -/
theorem ofNat_ne_null {n : Nat} (hvalid : n.isValidChar) (hn : n ≠ 0) : Char.ofNat n ≠ '\x00' := by
  intro hnull
  have hnumber : (Char.ofNat n).toNat = n := by
    rw [Char.ofNat, dif_pos hvalid]
    rfl
  rw [hnull] at hnumber
  exact hn hnumber.symm

theorem replacementChar_ne_null : replacementChar ≠ '\x00' := by decide

/-- What the width of a character says about its first byte. -/
theorem bounds_of_characterWidth (first : UInt8) :
    (characterWidth first = 1 → first.toNat < 0x80) ∧
    (characterWidth first = 2 → 0xC2 ≤ first.toNat ∧ first.toNat < 0xE0) ∧
    (characterWidth first = 3 → 0xE0 ≤ first.toNat ∧ first.toNat < 0xF0) ∧
    (characterWidth first = 4 → 0xF0 ≤ first.toNat ∧ first.toNat < 0xF5) := by
  unfold characterWidth
  simp only [Bool.and_eq_true, decide_eq_true_eq, UInt8.le_iff_toNat_le, UInt8.reduceToNat]
  repeat' split
  all_goals omega

/-- The second byte keeps off the overlong forms, the surrogates and what is no character. -/
theorem bounds_of_mayFollow {first second : UInt8} (h : mayFollow first second) :
    0x80 ≤ second.toNat ∧ second.toNat < 0xC0 ∧
    (first.toNat = 0xE0 → 0xA0 ≤ second.toNat) ∧ (first.toNat = 0xED → second.toNat < 0xA0) ∧
    (first.toNat = 0xF0 → 0x90 ≤ second.toNat) ∧ (first.toNat = 0xF4 → second.toNat < 0x90) := by
  unfold mayFollow isContinuation at h
  simp only [← UInt8.toNat_inj, UInt8.reduceToNat] at h
  repeat' split at h
  all_goals
    simp only [Bool.and_eq_true, decide_eq_true_eq, UInt8.le_iff_toNat_le, UInt8.reduceToNat] at h
    omega

theorem fst_readTwo_ne_null {first : UInt8} (hlow : 0xC2 ≤ first.toNat)
    (hhigh : first.toNat < 0xE0) (rest : Bytes) : (readTwo first rest).1 ≠ '\x00' := by
  unfold readTwo payloadBits
  repeat' split
  · exact ofNat_ne_null (by omega) (by omega)
  all_goals exact replacementChar_ne_null

theorem fst_readThree_ne_null {first : UInt8} (hlow : 0xE0 ≤ first.toNat)
    (hhigh : first.toNat < 0xF0) (rest : Bytes) : (readThree first rest).1 ≠ '\x00' := by
  unfold readThree payloadBits
  split
  · split
    · next hsecond =>
      have hbounds := bounds_of_mayFollow hsecond
      repeat' split
      · exact ofNat_ne_null (by omega) (by omega)
      all_goals exact replacementChar_ne_null
    · exact replacementChar_ne_null
  · exact replacementChar_ne_null

theorem fst_readFour_ne_null {first : UInt8} (hlow : 0xF0 ≤ first.toNat)
    (hhigh : first.toNat < 0xF5) (rest : Bytes) : (readFour first rest).1 ≠ '\x00' := by
  unfold readFour payloadBits
  split
  · split
    · next hsecond =>
      have hbounds := bounds_of_mayFollow hsecond
      repeat' split
      · exact ofNat_ne_null (by omega) (by omega)
      all_goals exact replacementChar_ne_null
    · exact replacementChar_ne_null
  · exact replacementChar_ne_null

/-- **Only a null byte is read as the null character.** -/
theorem fst_readCharacter_eq_null_iff {first : UInt8} {rest : Bytes} :
    (readCharacter first rest).1 = '\x00' ↔ first = 0 := by
  obtain ⟨hone, htwo, hthree, hfour⟩ := bounds_of_characterWidth first
  constructor
  · unfold readCharacter
    split
    · next hwidth =>
      intro hnull
      by_contra hfirst
      have hnumber : first.toNat ≠ 0 := fun h => hfirst (UInt8.toNat_inj.mp h)
      exact ofNat_ne_null (.inl (Nat.lt_trans (hone hwidth) (by decide))) hnumber hnull
    · next hwidth =>
      exact fun h => absurd h (fst_readTwo_ne_null (htwo hwidth).1 (htwo hwidth).2 rest)
    · next hwidth =>
      exact fun h => absurd h (fst_readThree_ne_null (hthree hwidth).1 (hthree hwidth).2 rest)
    · next hwidth =>
      exact fun h => absurd h (fst_readFour_ne_null (hfour hwidth).1 (hfour hwidth).2 rest)
    · exact fun h => absurd h replacementChar_ne_null
  · rintro rfl
    rfl

/-- **A text is made of null characters exactly if its bytes are null bytes.** -/
theorem forall_decodeText_eq_null_iff {bytes : Bytes} :
    (∀ c ∈ decodeText bytes, c = '\x00') ↔ ∀ b ∈ bytes, b = 0 := by
  induction bytes with
  | nil => simp
  | cons first rest ih =>
    rw [decodeText_cons, List.forall_mem_cons, List.forall_mem_cons, fst_readCharacter_eq_null_iff]
    refine and_congr_right fun hfirst => ?_
    rw [hfirst]
    exact ih

/-! ## Trimming -/

theorem trimNulls_eq_nil_iff {text : List Char} : trimNulls text = [] ↔ ∀ c ∈ text, c = '\x00' := by
  simp [trimNulls, List.dropWhile_eq_nil_iff]

/-- Only what comes behind is trimmed, unless there is nothing but null characters. -/
theorem trimNulls_append (text more : List Char) :
    trimNulls (text ++ more)
      = if trimNulls more = [] then trimNulls text else text ++ trimNulls more := by
  unfold trimNulls
  rw [List.reverse_append, List.dropWhile_append]
  by_cases hmore : more.reverse.dropWhile (· = '\x00') = []
  · rw [hmore]
    rfl
  · simp [hmore]

/-- A text without a null character is left as it is. -/
theorem trimNulls_of_notMem {text : List Char} (h : '\x00' ∉ text) : trimNulls text = text := by
  induction text with
  | nil => rfl
  | cons c text ih =>
    rw [List.mem_cons, not_or] at h
    have hc : trimNulls [c] = [c] := by simp [trimNulls, Ne.symm h.1]
    rw [← List.singleton_append, trimNulls_append, ih h.2, hc]
    split
    · next hnil => rw [hnil, List.append_nil]
    · rfl

/-- **ASCII text stays in front of what the bytes behind it leave.** -/
theorem trimNulls_decodeText_map_asciiByte_append {text : List Char} (h : ∀ c ∈ text, IsAscii c)
    (hnull : '\x00' ∉ text) (rest : Bytes) :
    trimNulls (decodeText (text.map asciiByte ++ rest)) = text ++ trimNulls (decodeText rest) := by
  rw [decodeText_map_asciiByte_append h, trimNulls_append]
  split
  · next hrest => rw [hrest, trimNulls_of_notMem hnull, List.append_nil]
  · rfl

/-- Nothing is left of bytes exactly if they are null bytes. -/
theorem trimNulls_decodeText_eq_nil_iff {bytes : Bytes} :
    trimNulls (decodeText bytes) = [] ↔ ∀ b ∈ bytes, b = 0 := by
  rw [trimNulls_eq_nil_iff, forall_decodeText_eq_null_iff]

end FlightRecorder
