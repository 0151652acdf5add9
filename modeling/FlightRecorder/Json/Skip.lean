import FlightRecorder.Json.Lexical

/-!
# Values that are passed over

A member that nobody asked for may hold any JSON value. It is passed over without being kept: the
brackets that are still open are all that has to be remembered. Every round of `skipFrom` uses up at
least one character.
-/

namespace FlightRecorder

/-- A bracket that waits for its other half. -/
inductive Bracket
  | array
  | object
  deriving DecidableEq, Repr

/-- The other half. -/
def Bracket.closing : Bracket → Char
  | .array => ']'
  | .object => '\x7d'

/-- What comes next in a text that is passed over. -/
inductive Awaited
  | value
  /-- A value has ended: a comma or the other half of the innermost bracket. -/
  | next
  deriving DecidableEq, Repr

/-! ## Parts -/

/-- The text behind a colon. -/
def readColon (text : List Char) : Except JsonFault (List Char) :=
  match skipBlanks text with
  | [] => .error .incomplete
  | c :: rest => if c = ':' then .ok rest else .error .malformed

theorem length_readColon_lt {text rest : List Char} (h : readColon text = .ok rest) :
    rest.length < text.length := by
  have hb := length_skipBlanks_le text
  unfold readColon at h
  split at h
  · cases h
  · next hs =>
    rw [hs, List.length_cons] at hb
    split at h
    · cases h
      omega
    · cases h

/-- The text behind an opening quote. -/
def readQuote (text : List Char) : Except JsonFault (List Char) :=
  match skipBlanks text with
  | [] => .error .incomplete
  | c :: rest => if c = '"' then .ok rest else .error .malformed

theorem length_readQuote_lt {text rest : List Char} (h : readQuote text = .ok rest) :
    rest.length < text.length := by
  have hb := length_skipBlanks_le text
  unfold readQuote at h
  split at h
  · cases h
  · next hs =>
    rw [hs, List.length_cons] at hb
    split at h
    · cases h
      omega
    · cases h

/-- A key and its colon: the key and the text of the value. -/
def readKey (strictness : Strictness) (text : List Char) :
    Except JsonFault (List Char × List Char) :=
  match readQuote text with
  | .error fault => .error fault
  | .ok rest =>
    match readQuoted strictness rest with
    | .error fault => .error fault
    | .ok (key, rest) =>
      match readColon rest with
      | .error fault => .error fault
      | .ok rest => .ok (key, rest)

theorem length_readKey_lt {strictness : Strictness} {text key rest : List Char}
    (h : readKey strictness text = .ok (key, rest)) : rest.length < text.length := by
  unfold readKey at h
  split at h
  · cases h
  · next hq =>
    split at h
    · cases h
    · next hs =>
      split at h
      · cases h
      · next hc =>
        have h1 := length_readQuote_lt hq
        have h2 := length_readQuoted_le hs
        have h3 := length_readColon_lt hc
        simp only [Except.ok.injEq, Prod.mk.injEq] at h
        obtain ⟨_, rfl⟩ := h
        omega

/-- The text behind a value without brackets. -/
def skipScalar (strictness : Strictness) (text : List Char) : Except JsonFault (List Char) :=
  match text with
  | [] => .error .incomplete
  | c :: rest =>
    if c = 'n' then readName ['u', 'l', 'l'] rest
    else if c = 't' then readName ['r', 'u', 'e'] rest
    else if c = 'f' then readName ['a', 'l', 's', 'e'] rest
    else if c = '"' then
      match readQuoted strictness rest with
      | .error fault => .error fault
      | .ok (_, behind) => .ok behind
    else if startsNumeral c then
      match readNumeral strictness (c :: rest) with
      | .error fault => .error fault
      | .ok (_, behind) => .ok behind
    else .error .malformed

theorem length_skipScalar_lt {strictness : Strictness} {text rest : List Char}
    (h : skipScalar strictness text = .ok rest) : rest.length < text.length := by
  unfold skipScalar at h
  split at h
  · cases h
  · next c behind =>
    have hname {name : List Char} (hn : readName name behind = .ok rest) :
        rest.length < (c :: behind).length :=
      Nat.lt_succ_of_le (length_readName_le hn)
    split at h
    · exact hname h
    · split at h
      · exact hname h
      · split at h
        · exact hname h
        · split at h
          · split at h
            · cases h
            · next hq =>
              cases h
              exact Nat.lt_succ_of_le (length_readQuoted_le hq)
          · split at h
            · split at h
              · cases h
              · next hn =>
                cases h
                exact length_readNumeral_lt hn
            · cases h

/-! ## Whole values -/

/-- Passes over what is left of a value, with the given brackets still open, innermost first. -/
def skipFrom (awaited : Awaited) (brackets : List Bracket) (text : List Char) :
    Except JsonFault (List Char) :=
  match awaited, brackets with
  | .next, [] => .ok text
  | .next, bracket :: outer =>
    match _hb : skipBlanks text with
    | [] => .error .incomplete
    | c :: rest =>
      if c = bracket.closing then skipFrom .next outer rest
      else if c = ',' then
        match bracket with
        | .array => skipFrom .value (.array :: outer) rest
        | .object =>
          match _hk : readKey .shape rest with
          | .error fault => .error fault
          | .ok (_, behind) => skipFrom .value (.object :: outer) behind
      else .error .malformed
  | .value, brackets =>
    match _hb : skipBlanks text with
    | [] => .error .incomplete
    | c :: rest =>
      if c = '[' then
        match _ho : skipBlanks rest with
        | [] => .error .incomplete
        | d :: behind =>
          -- An empty array has no value to wait for; behind a comma the bracket would be wrong.
          if d = ']' then skipFrom .next brackets behind
          else skipFrom .value (.array :: brackets) rest
      else if c = '\x7b' then
        match _ho : skipBlanks rest with
        | [] => .error .incomplete
        | d :: behind =>
          if d = '\x7d' then skipFrom .next brackets behind
          else
            match _hk : readKey .shape rest with
            | .error fault => .error fault
            | .ok (_, behind) => skipFrom .value (.object :: brackets) behind
      else
        match _hs : skipScalar .shape (c :: rest) with
        | .error fault => .error fault
        | .ok behind => skipFrom .next brackets behind
termination_by text.length
decreasing_by
  all_goals
    have hlen := length_skipBlanks_le text
    rw [_hb, List.length_cons] at hlen
  · omega
  · omega
  · have := length_readKey_lt _hk
    omega
  · have hopen := length_skipBlanks_le rest
    rw [_ho, List.length_cons] at hopen
    omega
  · omega
  · have hopen := length_skipBlanks_le rest
    rw [_ho, List.length_cons] at hopen
    omega
  · have := length_readKey_lt _hk
    omega
  · have := length_skipScalar_lt _hs
    rw [List.length_cons] at this
    omega

/-- Passes over one value. -/
def skipValue (text : List Char) : Except JsonFault (List Char) := skipFrom .value [] text

theorem length_skipFrom_le {awaited : Awaited} {brackets : List Bracket} {text rest : List Char}
    (h : skipFrom awaited brackets text = .ok rest) : rest.length ≤ text.length := by
  fun_induction skipFrom awaited brackets text with
  | case1 => cases h; exact Nat.le_refl _
  | case2 => cases h
  | case3 text bracket outer rest' hb ih =>
    have := ih h
    have hlen := length_skipBlanks_le text
    rw [hb, List.length_cons] at hlen
    omega
  | case4 text outer rest' hb hc ih =>
    have := ih h
    have hlen := length_skipBlanks_le text
    rw [hb, List.length_cons] at hlen
    omega
  | case5 => cases h
  | case6 text outer rest' key behind hk hb _ ih =>
    have := ih h
    have hlen := length_skipBlanks_le text
    have hkey := length_readKey_lt hk
    rw [hb, List.length_cons] at hlen
    omega
  | case7 => cases h
  | case8 => cases h
  | case9 => cases h
  | case10 text brackets rest' behind hb ho ih =>
    have := ih h
    have hlen := length_skipBlanks_le text
    have hopen := length_skipBlanks_le rest'
    rw [hb, List.length_cons] at hlen
    rw [ho, List.length_cons] at hopen
    omega
  | case11 text brackets rest' d behind ho _ hb ih =>
    have := ih h
    have hlen := length_skipBlanks_le text
    rw [hb, List.length_cons] at hlen
    omega
  | case12 => cases h
  | case13 text brackets rest' behind hb _ ho ih =>
    have := ih h
    have hlen := length_skipBlanks_le text
    have hopen := length_skipBlanks_le rest'
    rw [hb, List.length_cons] at hlen
    rw [ho, List.length_cons] at hopen
    omega
  | case14 => cases h
  | case15 text brackets rest' d behind ho _ key behind' hk hb _ ih =>
    have := ih h
    have hlen := length_skipBlanks_le text
    have hkey := length_readKey_lt hk
    rw [hb, List.length_cons] at hlen
    omega
  | case16 => cases h
  | case17 text brackets c rest' hb _ _ behind hs ih =>
    have := ih h
    have hlen := length_skipBlanks_le text
    have hscalar := length_skipScalar_lt hs
    rw [hb, List.length_cons] at hlen
    rw [List.length_cons] at hscalar
    omega

theorem length_skipValue_le {text rest : List Char} (h : skipValue text = .ok rest) :
    rest.length ≤ text.length :=
  length_skipFrom_le h

end FlightRecorder
