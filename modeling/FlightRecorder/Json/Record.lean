import FlightRecorder.Json.Skip

/-!
# Records in JSON

A record is a fixed list of named fields. It is written as an object with these names as keys, in
any order and among other keys, or as an array of exactly the field values. A `JsonReader` reads one
kind of value; `numberReader` and `recordReader` are the two that records are made of.
-/

namespace FlightRecorder

/-- Reads one kind of value off the front of a text. -/
structure JsonReader (α : Type) where
  /-- The value and the text behind it. -/
  read : List Char → Except JsonFault (α × List Char)
  /-- Reading only ever uses text up. -/
  shrinks : ∀ {text : List Char} {value : α} {rest : List Char},
    read text = .ok (value, rest) → rest.length ≤ text.length

/-- Reads a text that holds one value and nothing else. -/
def JsonReader.readWhole {α : Type} (reader : JsonReader α) (text : String) :
    Except JsonFault α :=
  match reader.read text.toList with
  | .error fault => .error fault
  | .ok (value, rest) => if skipBlanks rest = [] then .ok value else .error .malformed

/-- What is wrong with a value of another kind than the one that is read: a value that is no JSON
either is reported as that. -/
def faultOfOther (text : List Char) : JsonFault :=
  match text with
  | [] => .incomplete
  | c :: _ =>
    if c = '[' ∨ c = '\x7b' then .unsuitable
    else
      match skipScalar .value text with
      | .error fault => fault
      | .ok _ => .unsuitable

/-! ## Numbers -/

/-- A natural number below a bound. -/
def readNumber (bound : Nat) (text : List Char) : Except JsonFault (Nat × List Char) :=
  match skipBlanks text with
  | [] => .error .incomplete
  | c :: rest =>
    if startsNumeral c then
      match readNumeral .value (c :: rest) with
      | .error fault => .error fault
      | .ok (numeral, behind) =>
        match numeral.natural? with
        | none => .error .unsuitable
        | some value => if value < bound then .ok (value, behind) else .error .unsuitable
    else .error (faultOfOther (c :: rest))

theorem length_readNumber_le {bound value : Nat} {text rest : List Char}
    (h : readNumber bound text = .ok (value, rest)) : rest.length ≤ text.length := by
  have hb := length_skipBlanks_le text
  unfold readNumber at h
  split at h
  · cases h
  · next hs =>
    rw [hs] at hb
    split at h
    · split at h
      · cases h
      · next hn =>
        have := length_readNumeral_lt hn
        split at h
        · cases h
        · split at h
          · simp only [Except.ok.injEq, Prod.mk.injEq] at h
            obtain ⟨_, rfl⟩ := h
            omega
          · cases h
    · cases h

/-- Reads natural numbers below a bound. -/
def numberReader (bound : Nat) : JsonReader Nat where
  read := readNumber bound
  shrinks := length_readNumber_le

/-! ## Records as arrays -/

/-- A named part of a record. -/
structure JsonField (α : Type) where
  name : String
  reader : JsonReader α

/-- The text of the next item of an array that is too short if it ends here. -/
def readItemStart (first : Bool) (text : List Char) : Except JsonFault (List Char) :=
  match skipBlanks text with
  | [] => .error .incomplete
  | c :: rest =>
    if c = ']' then .error .unsuitable
    else if first then .ok (c :: rest)
    else if c = ',' then
      match skipBlanks rest with
      | [] => .error .incomplete
      | d :: behind => if d = ']' then .error .malformed else .ok (d :: behind)
    else .error .malformed

theorem length_readItemStart_le {first : Bool} {text rest : List Char}
    (h : readItemStart first text = .ok rest) : rest.length ≤ text.length := by
  have hb := length_skipBlanks_le text
  unfold readItemStart at h
  split at h
  · cases h
  · next c behind hs =>
    rw [hs, List.length_cons] at hb
    split at h
    · cases h
    · split at h
      · cases h
        simp only [List.length_cons]
        omega
      · split at h
        · have hb' := length_skipBlanks_le behind
          split at h
          · cases h
          · next hs' =>
            rw [hs'] at hb'
            split at h
            · cases h
            · cases h
              omega
        · cases h

/-- The end of an array. -/
def readArrayEnd (text : List Char) : Except JsonFault (List Char) :=
  match skipBlanks text with
  | [] => .error .incomplete
  | c :: rest => if c = ']' then .ok rest else .error .malformed

theorem length_readArrayEnd_le {text rest : List Char} (h : readArrayEnd text = .ok rest) :
    rest.length ≤ text.length := by
  have hb := length_skipBlanks_le text
  unfold readArrayEnd at h
  split at h
  · cases h
  · next hs =>
    rw [hs, List.length_cons] at hb
    split at h
    · cases h
      omega
    · cases h

/-- The items of an array, one for each field; the text begins behind the opening bracket or behind
an item. -/
def readItems {α : Type} (first : Bool) :
    List (JsonField α) → List Char → Except JsonFault (List α × List Char)
  | [], text => (readArrayEnd text).map (fun rest => ([], rest))
  | field :: fields, text =>
    match readItemStart first text with
    | .error fault => .error fault
    | .ok item =>
      match field.reader.read item with
      | .error fault => .error fault
      | .ok (value, rest) =>
        match readItems false fields rest with
        | .error fault => .error fault
        | .ok (values, rest) => .ok (value :: values, rest)

theorem length_readItems_le {α : Type} {first : Bool} {fields : List (JsonField α)}
    {text rest : List Char} {values : List α}
    (h : readItems first fields text = .ok (values, rest)) : rest.length ≤ text.length := by
  induction fields generalizing first text rest values with
  | nil =>
    unfold readItems at h
    cases he : readArrayEnd text with
    | error fault => simp [he, Except.map] at h
    | ok behind =>
      simp only [he, Except.map, Except.ok.injEq, Prod.mk.injEq] at h
      exact h.2 ▸ length_readArrayEnd_le he
  | cons field fields ih =>
    unfold readItems at h
    split at h
    · cases h
    · next hs =>
      split at h
      · cases h
      · next hr =>
        split at h
        · cases h
        · next hi =>
          have h1 := length_readItemStart_le hs
          have h2 := field.reader.shrinks hr
          have h3 := ih hi
          simp only [Except.ok.injEq, Prod.mk.injEq] at h
          obtain ⟨_, rfl⟩ := h
          omega

/-! ## Records as objects -/

/-- A field and its value, once that has been read. -/
structure JsonSlot (α : Type) where
  field : JsonField α
  value : Option α

/-- Puts a value into the slot of a name. -/
def fillSlot {α : Type} (name : String) (value : α) (slots : List (JsonSlot α)) :
    List (JsonSlot α) :=
  slots.map fun slot => if slot.field.name = name then { slot with value := some value } else slot

/-- The values of all slots, if every one is filled. -/
def slotValues {α : Type} (slots : List (JsonSlot α)) : Except JsonFault (List α) :=
  match slots.mapM (·.value) with
  | some values => .ok values
  | none => .error .unsuitable

/-- The value of a member whose key has been read. -/
def readMemberValue {α : Type} (name : String) (slots : List (JsonSlot α)) (text : List Char) :
    Except JsonFault (List (JsonSlot α) × List Char) :=
  match slots.find? (·.field.name = name) with
  | none =>
    match readColon text with
    | .error fault => .error fault
    | .ok rest => (skipValue rest).map (fun rest => (slots, rest))
  | some slot =>
    if slot.value.isSome then .error .unsuitable
    else
      match readColon text with
      | .error fault => .error fault
      | .ok rest =>
        match slot.field.reader.read rest with
        | .error fault => .error fault
        | .ok (value, rest) => .ok (fillSlot name value slots, rest)

theorem length_readMemberValue_le {α : Type} {name : String} {slots slots' : List (JsonSlot α)}
    {text rest : List Char} (h : readMemberValue name slots text = .ok (slots', rest)) :
    rest.length ≤ text.length := by
  unfold readMemberValue at h
  split at h
  · split at h
    · cases h
    · next behind hc =>
      have h1 := length_readColon_lt hc
      cases hv : skipValue behind with
      | error fault => simp [hv, Except.map] at h
      | ok last =>
        have h2 := length_skipValue_le hv
        simp only [hv, Except.map, Except.ok.injEq, Prod.mk.injEq] at h
        obtain ⟨_, rfl⟩ := h
        omega
  · next slot _ =>
    split at h
    · cases h
    · split at h
      · cases h
      · next hc =>
        split at h
        · cases h
        · next hr =>
          have h1 := length_readColon_lt hc
          have h2 := slot.field.reader.shrinks hr
          simp only [Except.ok.injEq, Prod.mk.injEq] at h
          obtain ⟨_, rfl⟩ := h
          omega

/-- One member of an object. -/
def readMember {α : Type} (slots : List (JsonSlot α)) (text : List Char) :
    Except JsonFault (List (JsonSlot α) × List Char) :=
  match readQuote text with
  | .error fault => .error fault
  | .ok rest =>
    match readQuoted .value rest with
    | .error fault => .error fault
    | .ok (key, rest) => readMemberValue (String.ofList key) slots rest

theorem length_readMember_lt {α : Type} {slots slots' : List (JsonSlot α)}
    {text rest : List Char} (h : readMember slots text = .ok (slots', rest)) :
    rest.length < text.length := by
  unfold readMember at h
  split at h
  · cases h
  · next hq =>
    split at h
    · cases h
    · next hs =>
      have h1 := length_readQuote_lt hq
      have h2 := length_readQuoted_le hs
      have h3 := length_readMemberValue_le h
      omega

/-- The members of an object; the text begins behind the opening bracket or behind a member. -/
def readMembers {α : Type} (first : Bool) (slots : List (JsonSlot α)) (text : List Char) :
    Except JsonFault (List α × List Char) :=
  match _hb : skipBlanks text with
  | [] => .error .incomplete
  | c :: rest =>
    if c = '\x7d' then (slotValues slots).map (fun values => (values, rest))
    else if first then
      match _hm : readMember slots (c :: rest) with
      | .error fault => .error fault
      | .ok (slots, behind) => readMembers false slots behind
    else if c = ',' then
      match _hm : readMember slots rest with
      | .error fault => .error fault
      | .ok (slots, behind) => readMembers false slots behind
    else .error .malformed
termination_by text.length
decreasing_by
  all_goals
    have hlen := length_skipBlanks_le text
    rw [_hb, List.length_cons] at hlen
    have hmember := length_readMember_lt _hm
  · rw [List.length_cons] at hmember
    omega
  · omega

theorem length_readMembers_le {α : Type} {first : Bool} {slots : List (JsonSlot α)}
    {text rest : List Char} {values : List α}
    (h : readMembers first slots text = .ok (values, rest)) : rest.length ≤ text.length := by
  fun_induction readMembers first slots text with
  | case1 => cases h
  | case2 first slots text behind hb =>
    have hlen := length_skipBlanks_le text
    rw [hb, List.length_cons] at hlen
    cases hv : slotValues slots with
    | error fault => simp [hv, Except.map] at h
    | ok all =>
      simp only [hv, Except.map, Except.ok.injEq, Prod.mk.injEq] at h
      obtain ⟨_, rfl⟩ := h
      omega
  | case3 => cases h
  | case4 slots text c behind hb _ slots' last hm ih =>
    have := ih h
    have hlen := length_skipBlanks_le text
    have hmember := length_readMember_lt hm
    rw [hb, List.length_cons] at hlen
    rw [List.length_cons] at hmember
    omega
  | case5 => cases h
  | case6 first slots text behind _ slots' last hm hb _ ih =>
    have := ih h
    have hlen := length_skipBlanks_le text
    have hmember := length_readMember_lt hm
    rw [hb, List.length_cons] at hlen
    omega
  | case7 => cases h

/-- Empty slots for a list of fields. -/
def emptySlots {α : Type} (fields : List (JsonField α)) : List (JsonSlot α) :=
  fields.map fun field => { field := field, value := none }

/-- A record: its values in the order of the fields. -/
def readRecord {α : Type} (fields : List (JsonField α)) (text : List Char) :
    Except JsonFault (List α × List Char) :=
  match skipBlanks text with
  | [] => .error .incomplete
  | c :: rest =>
    if c = '[' then readItems true fields rest
    else if c = '\x7b' then readMembers true (emptySlots fields) rest
    else .error (faultOfOther (c :: rest))

theorem length_readRecord_le {α : Type} {fields : List (JsonField α)} {values : List α}
    {text rest : List Char} (h : readRecord fields text = .ok (values, rest)) :
    rest.length ≤ text.length := by
  have hb := length_skipBlanks_le text
  unfold readRecord at h
  split at h
  · cases h
  · next hs =>
    rw [hs, List.length_cons] at hb
    split at h
    · have := length_readItems_le h
      omega
    · split at h
      · have := length_readMembers_le h
        omega
      · cases h

/-- Reads records of the given fields. -/
def recordReader {α : Type} (fields : List (JsonField α)) : JsonReader (List α) where
  read := readRecord fields
  shrinks := length_readRecord_le

end FlightRecorder
