import FlightRecorder.Text.Scan

/-!
# Numerals at the front of a text

A numeral is a string of decimal digits, with or without leading zeros. The one at the front of a
text is as long as it can be, so it can be told from what comes behind it; and three numerals with
separators between them can be told from the whole text.

* `IsNumeral`, `EndsNumber` — a numeral, and a text that does not make it longer
* `takeNumber?_eq_some_iff` — one number
* `Triple`, `takeTriple?_eq_some_iff` — three numbers
* `isNumeral_paddedDecimal` — a number that is written with leading zeros is a numeral
-/

namespace FlightRecorder

/-! ## One numeral -/

/-- Decimal digits that stand for a number. -/
structure IsNumeral (digits : List Char) (n : Nat) : Prop where
  ne_nil : digits ≠ []
  isDigit : ∀ c ∈ digits, c.isDigit = true
  value_eq : digitsValue digits = n

/-- The text does not go on with a digit. -/
def EndsNumber (rest : List Char) : Prop := ∀ c ∈ rest.head?, c.isDigit = false

theorem endsNumber_cons {c : Char} (rest : List Char) (h : c.isDigit = false) :
    EndsNumber (c :: rest) := by
  intro d hd
  cases hd
  exact h

theorem endsNumber_dropWhile (text : List Char) : EndsNumber (text.dropWhile Char.isDigit) := by
  intro c hc
  have hstop := List.head?_dropWhile_not Char.isDigit text
  rw [Option.mem_def.mp hc] at hstop
  exact hstop

theorem EndsNumber.takeWhile_eq {rest : List Char} (h : EndsNumber rest) :
    rest.takeWhile Char.isDigit = [] := by
  cases rest with
  | nil => rfl
  | cons c rest => simp [h c rfl]

theorem EndsNumber.dropWhile_eq {rest : List Char} (h : EndsNumber rest) :
    rest.dropWhile Char.isDigit = rest := by
  cases rest with
  | nil => rfl
  | cons c rest => simp [h c rfl]

/-- **The number at the front of a text** is what its digits stand for, all of them. -/
theorem takeNumber?_eq_some_iff {text rest : List Char} {n : UInt32} :
    takeNumber? text = some (n, rest) ↔
      ∃ digits, text = digits ++ rest ∧ IsNumeral digits n.toNat ∧ EndsNumber rest := by
  constructor
  · intro h
    simp only [takeNumber?] at h
    split at h
    · cases h
    · next hne =>
      split at h
      · next hsmall =>
        cases h
        refine ⟨_, List.takeWhile_append_dropWhile.symm, ⟨hne, ?_, ?_⟩, endsNumber_dropWhile text⟩
        · intro c hc
          exact List.all_eq_true.mp List.all_takeWhile c hc
        · exact (UInt32.toNat_ofNat_of_lt' hsmall).symm
      · cases h
  · rintro ⟨digits, rfl, hnumeral, hrest⟩
    have hbound : n.toNat < componentBound := n.toNat_lt_size
    unfold takeNumber?
    simp only [List.takeWhile_append_of_pos hnumeral.isDigit,
      List.dropWhile_append_of_pos hnumeral.isDigit, hrest.takeWhile_eq, hrest.dropWhile_eq,
      List.append_nil, hnumeral.value_eq, if_neg hnumeral.ne_nil, if_pos hbound, UInt32.ofNat_toNat]

/-! ## Three numerals -/

theorem takeSeparator?_eq_some_iff {separator : Char} {text rest : List Char} :
    takeSeparator? separator text = some rest ↔ text = separator :: rest := by
  cases text with
  | nil => simp [takeSeparator?]
  | cons c text =>
    simp only [takeSeparator?, List.cons.injEq]
    split
    · next h => simp [h]
    · next h => simp [h]

/-- Three numerals with a separator between each two, the last of them as long as it can be. -/
def Triple (separator : Char) (text : List Char) (a b c : Nat) : Prop :=
  ∃ A B C rest, text = A ++ [separator] ++ B ++ [separator] ++ C ++ rest ∧
    IsNumeral A a ∧ IsNumeral B b ∧ IsNumeral C c ∧ EndsNumber rest

/-- **Three numbers are read exactly where three numerals stand.** -/
theorem takeTriple?_eq_some_iff {separator : Char} (hseparator : separator.isDigit = false)
    {text : List Char} {a b c : UInt32} :
    takeTriple? separator text = some (a, b, c) ↔
      Triple separator text a.toNat b.toNat c.toNat := by
  unfold takeTriple?
  simp only [Option.bind_eq_bind, Option.bind_eq_some_iff, Prod.exists, takeNumber?_eq_some_iff,
    takeSeparator?_eq_some_iff, Option.pure_def, Option.some.injEq, Prod.mk.injEq]
  constructor
  · rintro ⟨_, _, ⟨A, rfl, hA, -⟩, _, rfl, _, _, ⟨B, rfl, hB, -⟩, _, rfl, _, rest,
      ⟨C, rfl, hC, hrest⟩, rfl, rfl, rfl⟩
    exact ⟨A, B, C, rest, by simp, hA, hB, hC, hrest⟩
  · rintro ⟨A, B, C, rest, rfl, hA, hB, hC, hrest⟩
    -- A separator is no digit, so it ends the numeral in front of it.
    have hends (more : List Char) : EndsNumber (separator :: more) :=
      endsNumber_cons more hseparator
    refine ⟨a, separator :: (B ++ separator :: (C ++ rest)), ⟨A, ?_, hA, hends _⟩, _, rfl,
      b, separator :: (C ++ rest), ⟨B, rfl, hB, hends _⟩, _, rfl,
      c, rest, ⟨C, rfl, hC, hrest⟩, rfl, rfl, rfl⟩
    simp

/-! ## Written numbers -/

/-- Leading zeros do not change what a numeral stands for. -/
theorem digitsValue_replicate_append (count : Nat) (digits : List Char) :
    digitsValue (List.replicate count '0' ++ digits) = digitsValue digits := by
  unfold digitsValue
  rw [Nat.ofDigitChars_append, Nat.ofDigitChars_replicate_zero, Nat.mul_zero]

/-- **A number that is written with leading zeros is a numeral.** -/
theorem isNumeral_paddedDecimal (width n : Nat) : IsNumeral (paddedDecimal width n) n where
  ne_nil := by
    intro hnil
    exact Nat.toDigits_ne_nil (List.append_eq_nil_iff.mp hnil).2
  isDigit := by
    intro c hc
    rcases List.mem_append.mp hc with hzero | hdigit
    · rw [List.eq_of_mem_replicate hzero]
      rfl
    · exact Nat.isDigit_of_mem_toDigits (by decide) (by decide) hdigit
  value_eq := by
    rw [paddedDecimal, padLeft, digitsValue_replicate_append, digitsValue_decimal]

end FlightRecorder
