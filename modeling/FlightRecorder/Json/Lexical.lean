import FlightRecorder.Json.Fault
import FlightRecorder.Text.Numeral
import FlightRecorder.Text.Utf8

/-!
# The lexical level of JSON

Blanks, literal names, quoted strings and numerals. Each reader takes the text from its first
character on and returns what it read with the text behind it; a lemma beside it says that this text
is no longer than before, which is what the loops over members end by.

Strings and numerals that are only skipped are held to weaker rules than those whose value counts:
`Strictness` says which rules apply.
-/

namespace FlightRecorder

/-- How closely a string or a numeral is looked at. -/
inductive Strictness
  /-- Its value counts: surrogates have to come in pairs, numbers have to be finite. -/
  | value
  /-- It is skipped: only its shape counts. -/
  | shape
  deriving DecidableEq, Repr

/-! ## Blanks and literal names -/

/-- The characters that may stand between the parts of a text. -/
def isBlank (c : Char) : Bool := c = ' ' || c = '\n' || c = '\r' || c = '\t'

/-- The text behind its leading blanks. -/
def skipBlanks (text : List Char) : List Char := text.dropWhile isBlank

theorem length_dropWhile_le (p : Char → Bool) (text : List Char) :
    (text.dropWhile p).length ≤ text.length :=
  (List.dropWhile_suffix p).length_le

theorem length_skipBlanks_le (text : List Char) : (skipBlanks text).length ≤ text.length :=
  length_dropWhile_le isBlank text

/-- The text behind a literal name, which has to stand at its front. -/
def readName : List Char → List Char → Except JsonFault (List Char)
  | [], text => .ok text
  | _ :: _, [] => .error .incomplete
  | c :: name, d :: text => if c = d then readName name text else .error .malformed

theorem length_readName_le {name text rest : List Char} (h : readName name text = .ok rest) :
    rest.length ≤ text.length := by
  fun_induction readName name text with
  | case1 text => cases h; exact Nat.le_refl _
  | case2 => cases h
  | case3 c name text ih =>
    have := ih h
    simp only [List.length_cons]
    omega
  | case4 => cases h

/-! ## Strings -/

/-- The value of a hexadecimal digit. -/
def hexDigit? (c : Char) : Option Nat :=
  if '0' ≤ c ∧ c ≤ '9' then some (c.toNat - '0'.toNat)
  else if 'a' ≤ c ∧ c ≤ 'f' then some (c.toNat - 'a'.toNat + 10)
  else if 'A' ≤ c ∧ c ≤ 'F' then some (c.toNat - 'A'.toNat + 10)
  else none

/-- Four hexadecimal digits. They are four bytes of the text, so a text of fewer bytes has ended too
early and a text of fewer characters may still be wrong. -/
def readHexWord : List Char → Except JsonFault (Nat × List Char)
  | a :: b :: c :: d :: rest =>
    match hexDigit? a, hexDigit? b, hexDigit? c, hexDigit? d with
    | some a, some b, some c, some d => .ok (((a * 16 + b) * 16 + c) * 16 + d, rest)
    | _, _, _, _ => .error .malformed
  | text => if utf8Size text < 4 then .error .incomplete else .error .malformed

theorem length_readHexWord_le {text rest : List Char} {value : Nat}
    (h : readHexWord text = .ok (value, rest)) : rest.length ≤ text.length := by
  unfold readHexWord at h
  split at h
  · split at h
    · simp only [Except.ok.injEq, Prod.mk.injEq] at h
      obtain ⟨_, rfl⟩ := h
      simp only [List.length_cons]
      omega
    · cases h
  · split at h <;> cases h

/-- The first half of a character that takes two hexadecimal words. -/
def isLeadingSurrogate (n : Nat) : Bool := 0xD800 ≤ n && n < 0xDC00

/-- The second half of a character that takes two hexadecimal words. -/
def isTrailingSurrogate (n : Nat) : Bool := 0xDC00 ≤ n && n < 0xE000

/-- The second half of a character whose first half was `leading`. -/
def readTrailing (leading : Nat) : List Char → Except JsonFault (Char × List Char)
  | '\\' :: 'u' :: text =>
    match readHexWord text with
    | .error fault => .error fault
    | .ok (trailing, rest) =>
      if isTrailingSurrogate trailing then
        .ok (Char.ofNat ((leading - 0xD800) * 1024 + (trailing - 0xDC00) + 0x10000), rest)
      else .error .malformed
  | ['\\'] => .error .incomplete
  | [] => .error .incomplete
  | _ => .error .malformed

theorem length_readTrailing_le {leading : Nat} {text rest : List Char} {c : Char}
    (h : readTrailing leading text = .ok (c, rest)) : rest.length ≤ text.length := by
  unfold readTrailing at h
  split at h
  · split at h
    · cases h
    · next hw =>
      have := length_readHexWord_le hw
      split at h
      · simp only [Except.ok.injEq, Prod.mk.injEq] at h
        obtain ⟨_, rfl⟩ := h
        simp only [List.length_cons]
        omega
      · cases h
  all_goals cases h

/-- The character written by its hexadecimal number. -/
def readCodePoint (strictness : Strictness) (text : List Char) :
    Except JsonFault (Char × List Char) :=
  match readHexWord text with
  | .error fault => .error fault
  | .ok (value, rest) =>
    if strictness = .shape then .ok (Char.ofNat value, rest)
    else if isTrailingSurrogate value then .error .malformed
    else if isLeadingSurrogate value then readTrailing value rest
    else .ok (Char.ofNat value, rest)

theorem length_readCodePoint_le {strictness : Strictness} {text rest : List Char} {c : Char}
    (h : readCodePoint strictness text = .ok (c, rest)) : rest.length ≤ text.length := by
  unfold readCodePoint at h
  split at h
  · cases h
  · next hw =>
    have hle := length_readHexWord_le hw
    repeat' split at h
    · simp only [Except.ok.injEq, Prod.mk.injEq] at h
      exact h.2 ▸ hle
    · cases h
    · exact Nat.le_trans (length_readTrailing_le h) hle
    · simp only [Except.ok.injEq, Prod.mk.injEq] at h
      exact h.2 ▸ hle

/-- The character that an escape stands for; the text begins behind the backslash. -/
def readEscape (strictness : Strictness) : List Char → Except JsonFault (Char × List Char)
  | [] => .error .incomplete
  | '"' :: rest => .ok ('"', rest)
  | '\\' :: rest => .ok ('\\', rest)
  | '/' :: rest => .ok ('/', rest)
  | 'b' :: rest => .ok ('\x08', rest)
  | 'f' :: rest => .ok ('\x0c', rest)
  | 'n' :: rest => .ok ('\n', rest)
  | 'r' :: rest => .ok ('\r', rest)
  | 't' :: rest => .ok ('\t', rest)
  | 'u' :: rest => readCodePoint strictness rest
  | _ :: _ => .error .malformed

theorem length_readEscape_le {strictness : Strictness} {text rest : List Char} {c : Char}
    (h : readEscape strictness text = .ok (c, rest)) : rest.length ≤ text.length := by
  unfold readEscape at h
  split at h
  case h_10 =>
    have := length_readCodePoint_le h
    simp only [List.length_cons]
    omega
  all_goals cases h
  all_goals simp

/-- The characters up to the closing quote, behind those already read, latest first. -/
def readQuotedOnto (strictness : Strictness) (earlier : List Char) (text : List Char) :
    Except JsonFault (List Char × List Char) :=
  match text with
  | [] => .error .incomplete
  | c :: rest =>
    if c = '"' then .ok (earlier.reverse, rest)
    else if c = '\\' then
      match _h : readEscape strictness rest with
      | .error fault => .error fault
      | .ok (escaped, rest') => readQuotedOnto strictness (escaped :: earlier) rest'
    else if c.toNat < 0x20 then .error .malformed
    else readQuotedOnto strictness (c :: earlier) rest
termination_by text.length
decreasing_by
  · have := length_readEscape_le _h
    simp only [List.length_cons]
    omega
  · simp

/-- A string; the text begins behind the opening quote. -/
def readQuoted (strictness : Strictness) (text : List Char) :
    Except JsonFault (List Char × List Char) :=
  readQuotedOnto strictness [] text

theorem length_readQuoted_le {strictness : Strictness} {text value rest : List Char}
    (h : readQuoted strictness text = .ok (value, rest)) : rest.length ≤ text.length := by
  unfold readQuoted at h
  generalize [] = earlier at h
  fun_induction readQuotedOnto strictness earlier text with
  | case1 => cases h
  | case2 earlier rest' =>
    simp only [Except.ok.injEq, Prod.mk.injEq] at h
    obtain ⟨_, rfl⟩ := h
    simp
  | case3 => cases h
  | case4 earlier rest' escaped rest'' he _ ih =>
    have h1 := ih h
    have h2 := length_readEscape_le he
    simp only [List.length_cons]
    omega
  | case5 => cases h
  | case6 earlier c rest' _ _ _ ih =>
    have := ih h
    simp only [List.length_cons]
    omega

/-! ## Numerals -/

/-- A number as it is written. -/
structure Numeral where
  negative : Bool
  /-- The digits before the point. -/
  whole : List Char
  /-- The digits behind the point, if there is one. -/
  fraction : Option (List Char)
  /-- Sign and digits of the exponent, if there is one. -/
  exponent : Option (Bool × List Char)
  deriving DecidableEq, Repr

namespace Numeral

/-- The natural number that is written, if it is written as one. -/
def natural? (n : Numeral) : Option Nat :=
  match n.negative, n.fraction, n.exponent with
  | false, none, none => some (digitsValue n.whole)
  | _, _, _ => none

/-- The smallest number that no double-precision number comes near: halfway between the largest of
them and the next power of two. -/
def infinityBound : Nat := Nat.pow 2 1024 - Nat.pow 2 970

/-- The number without its sign is `digits * 10 ^ scale`. -/
def digits (n : Numeral) : Nat := digitsValue (n.whole ++ n.fraction.getD [])

/-- The power of ten that the digits are counted in. -/
def scale (n : Numeral) : Int :=
  (match n.exponent with
    | none => 0
    | some (true, e) => -(digitsValue e : Int)
    | some (false, e) => (digitsValue e : Int)) - (n.fraction.getD []).length

/-- Whether the number is too large for a double-precision number. The order of magnitude decides
unless it is that of the bound itself. -/
def isInfinite (n : Numeral) : Bool :=
  let magnitude : Int := (decimal n.digits).length + n.scale
  if n.digits = 0 then false
  else if magnitude < 309 then false
  else if 309 < magnitude then true
  else if n.scale < 0 then infinityBound * Nat.pow 10 n.scale.natAbs ≤ n.digits
  else infinityBound ≤ n.digits * Nat.pow 10 n.scale.natAbs

end Numeral

/-- What is reported when a numeral stops short: the text has ended, or goes on with something else.
A numeral that is skipped is malformed in either case. -/
def shortNumeral (strictness : Strictness) (rest : List Char) : JsonFault :=
  match strictness, rest with
  | .value, [] => .incomplete
  | _, _ => .malformed

/-- At least one digit. -/
def readDigits (strictness : Strictness) (text : List Char) :
    Except JsonFault (List Char × List Char) :=
  let digits := text.takeWhile Char.isDigit
  let rest := text.dropWhile Char.isDigit
  if digits = [] then .error (shortNumeral strictness rest) else .ok (digits, rest)

theorem length_readDigits_lt {strictness : Strictness} {text digits rest : List Char}
    (h : readDigits strictness text = .ok (digits, rest)) : rest.length < text.length := by
  simp only [readDigits] at h
  split at h
  · cases h
  · next hne =>
    simp only [Except.ok.injEq, Prod.mk.injEq] at h
    obtain ⟨_, rfl⟩ := h
    have hsum := congrArg List.length
      (List.takeWhile_append_dropWhile (p := Char.isDigit) (l := text))
    have hpos := List.length_pos_iff.mpr hne
    simp only [List.length_append] at hsum
    omega

/-- The digits before the point: a zero stands alone. -/
def readWhole (strictness : Strictness) (text : List Char) :
    Except JsonFault (List Char × List Char) :=
  match readDigits strictness text with
  | .error fault => .error fault
  | .ok (digits, rest) =>
    if digits.head? = some '0' ∧ 1 < digits.length then .error .malformed else .ok (digits, rest)

theorem length_readWhole_lt {strictness : Strictness} {text digits rest : List Char}
    (h : readWhole strictness text = .ok (digits, rest)) : rest.length < text.length := by
  unfold readWhole at h
  split at h
  · cases h
  · next hd =>
    split at h
    · cases h
    · simp only [Except.ok.injEq, Prod.mk.injEq] at h
      exact h.2 ▸ length_readDigits_lt hd

/-- The point and the digits behind it, if there is a point. -/
def readFraction (strictness : Strictness) (text : List Char) :
    Except JsonFault (Option (List Char) × List Char) :=
  match text with
  | '.' :: rest =>
    match readDigits strictness rest with
    | .error fault => .error fault
    | .ok (digits, rest) => .ok (some digits, rest)
  | _ => .ok (none, text)

theorem length_readFraction_le {strictness : Strictness} {text rest : List Char}
    {fraction : Option (List Char)} (h : readFraction strictness text = .ok (fraction, rest)) :
    rest.length ≤ text.length := by
  unfold readFraction at h
  split at h
  · split at h
    · cases h
    · next hd =>
      have := length_readDigits_lt hd
      simp only [Except.ok.injEq, Prod.mk.injEq] at h
      obtain ⟨_, rfl⟩ := h
      simp only [List.length_cons]
      omega
  · simp only [Except.ok.injEq, Prod.mk.injEq] at h
    exact h.2 ▸ Nat.le_refl _

/-- The sign of an exponent: whether it is negative, and the text behind it. -/
def readExponentSign : List Char → Bool × List Char
  | '-' :: rest => (true, rest)
  | '+' :: rest => (false, rest)
  | text => (false, text)

theorem length_readExponentSign_le (text : List Char) :
    (readExponentSign text).2.length ≤ text.length := by
  unfold readExponentSign
  split <;> simp

/-- The exponent, if there is one. -/
def readExponent (strictness : Strictness) (text : List Char) :
    Except JsonFault (Option (Bool × List Char) × List Char) :=
  match text with
  | c :: rest =>
    if c = 'e' ∨ c = 'E' then
      match readDigits strictness (readExponentSign rest).2 with
      | .error fault => .error fault
      | .ok (digits, behind) => .ok (some ((readExponentSign rest).1, digits), behind)
    else .ok (none, c :: rest)
  | [] => .ok (none, [])

theorem length_readExponent_le {strictness : Strictness} {text rest : List Char}
    {exponent : Option (Bool × List Char)}
    (h : readExponent strictness text = .ok (exponent, rest)) : rest.length ≤ text.length := by
  unfold readExponent at h
  split at h
  · next c behind =>
    split at h
    · split at h
      · cases h
      · next hd =>
        have h1 := length_readDigits_lt hd
        have h2 := length_readExponentSign_le behind
        simp only [Except.ok.injEq, Prod.mk.injEq] at h
        obtain ⟨_, rfl⟩ := h
        simp only [List.length_cons]
        omega
    · simp only [Except.ok.injEq, Prod.mk.injEq] at h
      exact h.2 ▸ Nat.le_refl _
  · simp only [Except.ok.injEq, Prod.mk.injEq] at h
    exact h.2 ▸ Nat.le_refl _

/-- The sign of a numeral: whether it is negative, and the text behind it. -/
def readSign : List Char → Bool × List Char
  | '-' :: rest => (true, rest)
  | text => (false, text)

theorem length_readSign_le (text : List Char) : (readSign text).2.length ≤ text.length := by
  unfold readSign
  split <;> simp

/-- A numeral. -/
def readNumeral (strictness : Strictness) (text : List Char) :
    Except JsonFault (Numeral × List Char) :=
  match readWhole strictness (readSign text).2 with
  | .error fault => .error fault
  | .ok (whole, rest) =>
    match readFraction strictness rest with
    | .error fault => .error fault
    | .ok (fraction, rest) =>
      match readExponent strictness rest with
      | .error fault => .error fault
      | .ok (exponent, rest) =>
        let numeral : Numeral := {
          negative := (readSign text).1
          whole := whole
          fraction := fraction
          exponent := exponent }
        if strictness = .value ∧ numeral.isInfinite then .error .malformed
        else .ok (numeral, rest)

theorem length_readNumeral_lt {strictness : Strictness} {text rest : List Char} {n : Numeral}
    (h : readNumeral strictness text = .ok (n, rest)) : rest.length < text.length := by
  unfold readNumeral at h
  split at h
  · cases h
  · next hw =>
    split at h
    · cases h
    · next hf =>
      split at h
      · cases h
      · next he =>
        have h1 := length_readSign_le text
        have h2 := length_readWhole_lt hw
        have h3 := length_readFraction_le hf
        have h4 := length_readExponent_le he
        simp only at h
        split at h
        · cases h
        · simp only [Except.ok.injEq, Prod.mk.injEq] at h
          obtain ⟨_, rfl⟩ := h
          omega

/-- Whether a numeral begins with this character. -/
def startsNumeral (c : Char) : Bool := c = '-' || c.isDigit

end FlightRecorder
