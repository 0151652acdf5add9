import FlightRecorder.Json.Layout
import FlightRecorder.Flight.Json
import FlightRecorder.Proofs.Text.Numerals
import Mathlib.Data.List.Nodup
import Mathlib.Data.List.Perm.Basic

/-!
# Objects are read back

A reader accepts a text for a value if it takes just this text, however many blanks stand in front
of it and whatever ends it. A number is accepted where its digits stand; a record is accepted where
an object of its fields stands, in any layout and with its members in any order.

* `JsonReader.Accepts` — the text is read as the value
* `numberReader_accepts_decimal` — numbers
* `WrittenField`, `slotsOnce` — a member with its value, and the slots once some have been read
* `readMember_written`, `readMembers_behind` — one member, and all that are left
* `recordReader_accepts_object` — records
-/

namespace FlightRecorder

/-! ## Blanks and ends -/

theorem skipBlanks_append {blanks : List Char} (h : ∀ c ∈ blanks, isBlank c = true)
    (text : List Char) : skipBlanks (blanks ++ text) = skipBlanks text :=
  List.dropWhile_append_of_pos h

theorem skipBlanks_cons {c : Char} (h : isBlank c = false) (text : List Char) :
    skipBlanks (c :: text) = c :: text :=
  List.dropWhile_cons_of_neg (by simp [h])

theorem JsonLayout.isBlank_of_mem_lead {layout : JsonLayout} {c : Char} (h : c ∈ layout.lead) :
    isBlank c = true := by
  cases layout with
  | compact => cases h
  | indented depth =>
    rcases List.mem_cons.mp h with rfl | h
    · rfl
    · rw [List.eq_of_mem_replicate h]
      rfl

/-- What may stand behind a value: nothing, or a character that no value goes on with. -/
def EndsValue (rest : List Char) : Prop :=
  ∀ c ∈ rest.head?, isBlank c = true ∨ c = ',' ∨ c = '\x7d' ∨ c = ']'

theorem endsValue_nil : EndsValue [] := by
  intro c hc
  cases hc

theorem endsValue_cons {c : Char} (rest : List Char)
    (h : isBlank c = true ∨ c = ',' ∨ c = '\x7d' ∨ c = ']') : EndsValue (c :: rest) := by
  intro d hd
  cases hd
  exact h

/-- A character that ends a value belongs to no numeral. -/
theorem EndsValue.not_numeral {rest : List Char} (h : EndsValue rest) {c : Char}
    (hc : c ∈ rest.head?) : c.isDigit = false ∧ c ≠ '.' ∧ ¬(c = 'e' ∨ c = 'E') := by
  have hone := h c hc
  simp only [isBlank, Bool.or_eq_true, decide_eq_true_eq] at hone
  rcases hone with (((rfl | rfl) | rfl) | rfl) | rfl | rfl | rfl <;> decide

theorem EndsValue.endsNumber {rest : List Char} (h : EndsValue rest) : EndsNumber rest :=
  fun _ hc => (h.not_numeral hc).1

/-- The reader takes this text for this value, whatever blanks stand in front of it and whatever
ends it. -/
def JsonReader.Accepts {α : Type} (reader : JsonReader α) (text : List Char) (value : α) :
    Prop :=
  ∀ blanks rest, (∀ c ∈ blanks, isBlank c = true) → EndsValue rest →
    reader.read (blanks ++ (text ++ rest)) = .ok (value, rest)

namespace JsonReader.Accepts

variable {α β : Type} {reader : JsonReader α} {text : List Char} {value : α}

/-- A text that is accepted is a whole text too. -/
theorem readWhole_eq (h : reader.Accepts text value) :
    reader.readWhole (String.ofList text) = .ok value := by
  have hread := h [] [] (fun _ hc => by cases hc) endsValue_nil
  rw [List.nil_append, List.append_nil] at hread
  simp only [JsonReader.readWhole, String.toList_ofList, hread]
  rfl

theorem filterMap (h : reader.Accepts text value) {f : α → Option β} {result : β}
    (hf : f value = some result) : (reader.filterMap f).Accepts text result := by
  intro blanks rest hblanks hrest
  simp only [JsonReader.filterMap, h blanks rest hblanks hrest, hf]

end JsonReader.Accepts

/-! ## Numbers -/

/-- Only zero is written with a zero in front. -/
theorem eq_zero_of_head?_decimal {n : Nat} (h : (decimal n).head? = some '0') : n = 0 := by
  induction n using Nat.strongRecOn with
  | ind n ih =>
    by_cases hsmall : n < 10
    · have hdigit : ∀ m < 10, Nat.digitChar m = '0' → m = 0 := by decide
      rw [decimal, Nat.toDigits_of_lt_base hsmall] at h
      exact hdigit n hsmall (Option.some.inj h)
    · have hlarge : 10 ≤ n := Nat.le_of_not_lt hsmall
      have hne : Nat.toDigits 10 (n / 10) ≠ [] := Nat.toDigits_ne_nil
      rw [decimal, Nat.toDigits_of_base_le (by decide) hlarge, List.head?_append_of_ne_nil _ hne]
        at h
      have hzero := ih (n / 10) (Nat.div_lt_self (by omega) (by decide)) h
      omega

theorem readDigits_append {digits rest : List Char} (strictness : Strictness)
    (hne : digits ≠ []) (hdigits : ∀ c ∈ digits, c.isDigit = true) (hrest : EndsNumber rest) :
    readDigits strictness (digits ++ rest) = .ok (digits, rest) := by
  simp only [readDigits, List.takeWhile_append_of_pos hdigits, List.dropWhile_append_of_pos hdigits,
    hrest.takeWhile_eq, hrest.dropWhile_eq, List.append_nil, if_neg hne]

theorem isNumeral_decimal (n : Nat) : IsNumeral (decimal n) n := by
  simpa [paddedDecimal, padLeft] using isNumeral_paddedDecimal 0 n

theorem readWhole_decimal (strictness : Strictness) (n : Nat) {rest : List Char}
    (hrest : EndsNumber rest) :
    readWhole strictness (decimal n ++ rest) = .ok (decimal n, rest) := by
  have hnumeral := isNumeral_decimal n
  have hzero : ¬((decimal n).head? = some '0' ∧ 1 < (decimal n).length) := by
    rintro ⟨hhead, hlength⟩
    rw [eq_zero_of_head?_decimal hhead] at hlength
    exact absurd hlength (by decide)
  simp only [readWhole, readDigits_append strictness hnumeral.ne_nil hnumeral.isDigit hrest,
    if_neg hzero]

theorem readFraction_eq_none {strictness : Strictness} {rest : List Char} (h : EndsValue rest) :
    readFraction strictness rest = .ok (none, rest) := by
  cases rest with
  | nil => rfl
  | cons c rest =>
    have hpoint := (h.not_numeral rfl).2.1
    simp [readFraction, hpoint]

theorem readExponent_eq_none {strictness : Strictness} {rest : List Char} (h : EndsValue rest) :
    readExponent strictness rest = .ok (none, rest) := by
  cases rest with
  | nil => rfl
  | cons c rest =>
    have hmark := (h.not_numeral rfl).2.2
    simp only [readExponent, if_neg hmark]

/-- The numeral that a natural number is written as. -/
def naturalNumeral (n : Nat) : Numeral where
  negative := false
  whole := decimal n
  fraction := none
  exponent := none

@[simp]
theorem natural?_naturalNumeral (n : Nat) : (naturalNumeral n).natural? = some n := by
  simp [naturalNumeral, Numeral.natural?]

/-- A number of so few digits is a double-precision number. -/
theorem isInfinite_naturalNumeral {n : Nat} (h : (decimal n).length < 309) :
    (naturalNumeral n).isInfinite = false := by
  have hdigits : (naturalNumeral n).digits = n := by
    simp [naturalNumeral, Numeral.digits]
  have hscale : (naturalNumeral n).scale = 0 := rfl
  have hmagnitude : ((decimal n).length : Int) + 0 < 309 := by omega
  simp only [Numeral.isInfinite, hdigits, hscale, if_pos hmagnitude, ite_self]

theorem readNumeral_decimal {n : Nat} (h : (decimal n).length < 309) {rest : List Char}
    (hrest : EndsValue rest) :
    readNumeral .value (decimal n ++ rest) = .ok (naturalNumeral n, rest) := by
  have hsign : readSign (decimal n ++ rest) = (false, decimal n ++ rest) := by
    obtain ⟨c, digits, hcons⟩ := List.exists_cons_of_ne_nil (isNumeral_decimal n).ne_nil
    have hdigit := (isNumeral_decimal n).isDigit c (hcons ▸ List.mem_cons_self)
    have hminus : c ≠ '-' := by
      rintro rfl
      exact absurd hdigit (by decide)
    simp [hcons, readSign, hminus]
  have hfinite : ¬(True ∧ (naturalNumeral n).isInfinite = true) := by
    simp [isInfinite_naturalNumeral h]
  simp only [readNumeral, hsign, readWhole_decimal .value n hrest.endsNumber,
    readFraction_eq_none hrest, readExponent_eq_none hrest]
  exact if_neg hfinite

/-- **A number is accepted where its digits stand.** -/
theorem numberReader_accepts_decimal {bound n : Nat} (hbound : n < bound)
    (h : (decimal n).length < 309) : (numberReader bound).Accepts (decimal n) n := by
  intro blanks rest hblanks hrest
  have hread := readNumeral_decimal h hrest
  obtain ⟨c, digits, hcons⟩ := List.exists_cons_of_ne_nil (isNumeral_decimal n).ne_nil
  have hdigit := (isNumeral_decimal n).isDigit c (hcons ▸ List.mem_cons_self)
  have hblank : isBlank c = false := by
    rw [Bool.eq_false_iff]
    intro hc
    simp only [isBlank, Bool.or_eq_true, decide_eq_true_eq] at hc
    rcases hc with ((rfl | rfl) | rfl) | rfl <;> exact absurd hdigit (by decide)
  rw [hcons, List.cons_append] at hread ⊢
  simp only [numberReader, readNumber, skipBlanks_append hblanks, skipBlanks_cons hblank,
    startsNumeral, hdigit, Bool.or_true, if_true, hread, natural?_naturalNumeral, hbound]

theorem length_decimal_le {n : Nat} (h : n < componentBound) : (decimal n).length ≤ 10 := by
  rw [decimal, Nat.length_toDigits_le_iff (by decide) (by decide)]
  exact Nat.lt_trans h (by decide)

/-! ## Members -/

/-- A character that stands for itself in quotes. -/
def isPlain (c : Char) : Bool := c != '"' && c != '\\' && !(c.toNat < 0x20)

theorem readQuotedOnto_plain {key : List Char} (hkey : key.all isPlain = true)
    (strictness : Strictness) (earlier rest : List Char) :
    readQuotedOnto strictness earlier (key ++ '"' :: rest) =
      .ok (earlier.reverse ++ key, rest) := by
  induction key generalizing earlier with
  | nil => simp [readQuotedOnto]
  | cons c key ih =>
    rw [List.all_cons, Bool.and_eq_true] at hkey
    obtain ⟨hplain, hkey⟩ := hkey
    simp only [isPlain, Bool.and_eq_true, bne_iff_ne, ne_eq, Bool.not_eq_true',
      decide_eq_false_iff_not] at hplain
    rw [List.cons_append, readQuotedOnto, if_neg hplain.1.1, if_neg hplain.1.2, if_neg hplain.2,
      ih hkey, List.reverse_cons, List.append_assoc, List.singleton_append]

/-- A member of an object as it is written: its field, the value of it, and the text that the value
is written as. -/
structure WrittenField (α : Type) where
  field : JsonField α
  value : α
  text : List Char
  /-- The name stands for itself. -/
  plain : field.name.toList.all isPlain = true
  /-- The text is read as the value. -/
  accepted : field.reader.Accepts text value

namespace WrittenField

variable {α : Type}

/-- The member in a layout. -/
def written (layout : JsonLayout) (member : WrittenField α) : List Char :=
  layout.member member.field.name member.text

end WrittenField

section Slots

variable {α : Type} {members : List (WrittenField α)}

/-- The slots of a record, once the fields of these names have been read. -/
def slotsOnce (members : List (WrittenField α)) (names : List String) : List (JsonSlot α) :=
  members.map fun member => {
    field := member.field
    value := if member.field.name ∈ names then some member.value else none }

theorem emptySlots_eq_slotsOnce (members : List (WrittenField α)) :
    emptySlots (members.map (·.field)) = slotsOnce members [] := by
  simp [emptySlots, slotsOnce]

theorem find?_slotsOnce (hnodup : (members.map (·.field.name)).Nodup) {member : WrittenField α}
    (hmem : member ∈ members) (names : List String) :
    (slotsOnce members names).find? (·.field.name = member.field.name) = some {
      field := member.field
      value := if member.field.name ∈ names then some member.value else none } := by
  have hfind : members.find? (·.field.name = member.field.name) = some member := by
    induction members with
    | nil => cases hmem
    | cons other members ih =>
      rw [List.map_cons, List.nodup_cons] at hnodup
      rcases List.mem_cons.mp hmem with rfl | hmem
      · simp
      · have hother : other.field.name ≠ member.field.name := by
          intro heq
          exact hnodup.1 (heq ▸ List.mem_map_of_mem hmem)
        simp [hother, ih hnodup.2 hmem]
  rw [slotsOnce, List.find?_map]
  exact congrArg (Option.map _) hfind

theorem fillSlot_slotsOnce (hnodup : (members.map (·.field.name)).Nodup) {member : WrittenField α}
    (hmem : member ∈ members) (names : List String) :
    fillSlot member.field.name member.value (slotsOnce members names) =
      slotsOnce members (member.field.name :: names) := by
  rw [fillSlot, slotsOnce, slotsOnce, List.map_map]
  apply List.map_congr_left
  intro other hother
  by_cases hname : other.field.name = member.field.name
  · -- No two fields share a name.
    have hsame : other = member := List.inj_on_of_nodup_map hnodup hother hmem hname
    simp [hsame]
  · simp [hname]

theorem slotValues_slotsOnce {names : List String}
    (h : ∀ member ∈ members, member.field.name ∈ names) :
    slotValues (slotsOnce members names) = .ok (members.map (·.value)) := by
  have hvalues : (slotsOnce members names).mapM (·.value) = some (members.map (·.value)) := by
    induction members with
    | nil => rfl
    | cons member members ih =>
      rw [List.forall_mem_cons] at h
      rw [slotsOnce] at ih ⊢
      simp [h.1, ih h.2]
  rw [slotValues, hvalues]

/-- **One member is read**: its value is put into its slot. -/
theorem readMember_written (hnodup : (members.map (·.field.name)).Nodup) {member : WrittenField α}
    (hmem : member ∈ members) {names : List String} (hnew : member.field.name ∉ names)
    (layout : JsonLayout) (blanks : List Char) (hblanks : ∀ c ∈ blanks, isBlank c = true)
    {rest : List Char} (hrest : EndsValue rest) :
    readMember (slotsOnce members names) (blanks ++ (member.written layout ++ rest)) =
      .ok (slotsOnce members (member.field.name :: names), rest) := by
  obtain ⟨gap, hgap, hwritten⟩ : ∃ gap, (∀ c ∈ gap, isBlank c = true) ∧
      member.written layout ++ rest =
        '"' :: (member.field.name.toList ++ '"' :: ':' :: (gap ++ (member.text ++ rest))) := by
    refine ⟨if layout = .compact then [] else [' '], ?_, ?_⟩
    · intro c hc
      split at hc
      · cases hc
      · rw [List.mem_singleton.mp hc]
        rfl
    · simp [WrittenField.written, JsonLayout.member]
  have hquote : readQuote (blanks ++ (member.written layout ++ rest)) =
      .ok (member.field.name.toList ++ '"' :: ':' :: (gap ++ (member.text ++ rest))) := by
    rw [hwritten]
    simp only [readQuote, skipBlanks_append hblanks, skipBlanks_cons (c := '"') rfl, if_true]
  have hkey := readQuotedOnto_plain member.plain .value [] (':' :: (gap ++ (member.text ++ rest)))
  have hcolon (text : List Char) : readColon (':' :: text) = .ok text := by
    simp only [readColon, skipBlanks_cons (c := ':') rfl, if_true]
  simp only [readMember, hquote, readQuoted, hkey, List.reverse_nil, List.nil_append,
    String.ofList_toList, readMemberValue, find?_slotsOnce hnodup hmem names, if_neg hnew,
    Option.isSome_none, Bool.false_eq_true, if_false, hcolon,
    member.accepted gap rest hgap hrest, fillSlot_slotsOnce hnodup hmem names]

end Slots

/-! ## Objects -/

/-- What stands behind the opening bracket or a member: the members still to come, each behind a
comma, and the closing bracket. -/
def JsonLayout.behind (layout : JsonLayout) : List (List Char) → List Char
  | [] => layout.lead ++ ['\x7d']
  | part :: parts => ',' :: (layout.inner.lead ++ (part ++ layout.behind parts))

theorem JsonLayout.object_cons (layout : JsonLayout) (part : List Char) (parts : List (List Char)) :
    layout.object (part :: parts) =
      '\x7b' :: (layout.inner.lead ++ (part ++ layout.behind parts)) := by
  have htail (part : List Char) (parts : List (List Char)) :
      [','].intercalate ((part :: parts).map (layout.inner.lead ++ ·)) ++ layout.lead ++ ['\x7d'] =
        layout.inner.lead ++ (part ++ layout.behind parts) := by
    induction parts generalizing part with
    | nil => simp [behind]
    | cons next parts ih =>
      have hnext := ih next
      simp only [List.map_cons, List.intercalate_cons_cons, List.append_assoc] at hnext ⊢
      rw [hnext, behind, List.singleton_append]
  rw [object, enclose, List.append_assoc, List.append_assoc, ← List.append_assoc _ layout.lead,
    htail, List.singleton_append]
  exact fun h => by cases h

theorem JsonLayout.endsValue_behind (layout : JsonLayout) (parts : List (List Char))
    (rest : List Char) : EndsValue (layout.behind parts ++ rest) := by
  cases parts with
  | nil =>
    cases hlead : layout.lead with
    | nil =>
      rw [behind, hlead]
      exact endsValue_cons _ (.inr (.inr (.inl rfl)))
    | cons c lead =>
      rw [behind, hlead]
      exact endsValue_cons _ (.inl (isBlank_of_mem_lead (hlead ▸ List.mem_cons_self)))
  | cons part parts => exact endsValue_cons _ (.inr (.inl rfl))

section Objects

variable {α : Type} {members : List (WrittenField α)}

/-! One round of the loop over members, by what it meets. -/

theorem readMembers_end {first : Bool} {slots : List (JsonSlot α)} {text rest : List Char}
    (h : skipBlanks text = '\x7d' :: rest) :
    readMembers first slots text = (slotValues slots).map (fun values => (values, rest)) := by
  rw [readMembers]
  split
  · next hnil => rw [hnil] at h; cases h
  · next hcons =>
    rw [hcons] at h
    cases h
    exact if_pos rfl

theorem readMembers_first {slots slots' : List (JsonSlot α)} {text rest behind : List Char}
    {c : Char} (h : skipBlanks text = c :: rest) (hc : c ≠ '\x7d')
    (hmember : readMember slots (c :: rest) = .ok (slots', behind)) :
    readMembers true slots text = readMembers false slots' behind := by
  rw [readMembers]
  split
  · next hnil => rw [hnil] at h; cases h
  · next hcons =>
    rw [hcons] at h
    cases h
    rw [if_neg hc, if_pos rfl]
    split
    · next hfault => rw [hmember] at hfault; cases hfault
    · next hok => rw [hmember] at hok; cases hok; rfl

theorem readMembers_comma {slots slots' : List (JsonSlot α)} {text rest behind : List Char}
    (h : skipBlanks text = ',' :: rest) (hmember : readMember slots rest = .ok (slots', behind)) :
    readMembers false slots text = readMembers false slots' behind := by
  rw [readMembers]
  split
  · next hnil => rw [hnil] at h; cases h
  · next hcons =>
    rw [hcons] at h
    cases h
    rw [if_neg (by decide), if_neg (by decide), if_pos rfl]
    split
    · next hfault => rw [hmember] at hfault; cases hfault
    · next hok => rw [hmember] at hok; cases hok; rfl

/-- **The members that are left are read**, and the record is complete. The induction is on these
members; `earlier` are those whose slots are filled. -/
theorem readMembers_behind (hnodup : (members.map (·.field.name)).Nodup) (layout : JsonLayout)
    (earlier : List (WrittenField α)) {later : List (WrittenField α)}
    (hperm : (earlier ++ later).Perm members)
    (rest : List Char) :
    readMembers false (slotsOnce members (earlier.map (·.field.name)))
        (layout.behind (later.map (·.written layout)) ++ rest) =
      .ok (members.map (·.value), rest) := by
  induction later generalizing earlier with
  | nil =>
    have hall : ∀ member ∈ members, member.field.name ∈ earlier.map (·.field.name) := by
      intro member hmem
      rw [List.append_nil] at hperm
      exact List.mem_map_of_mem (hperm.mem_iff.mpr hmem)
    have hskip : skipBlanks (layout.lead ++ ['\x7d'] ++ rest) = '\x7d' :: rest := by
      rw [List.append_assoc, skipBlanks_append fun _ => JsonLayout.isBlank_of_mem_lead]
      exact skipBlanks_cons rfl rest
    rw [List.map_nil, JsonLayout.behind, readMembers_end hskip, slotValues_slotsOnce hall]
    rfl
  | cons member later ih =>
    have hmem : member ∈ members := hperm.mem_iff.mp (by simp)
    have hnew : member.field.name ∉ earlier.map (·.field.name) := by
      have hall := (hperm.map (·.field.name)).nodup_iff.mpr hnodup
      rw [List.map_append, List.map_cons] at hall
      exact fun hin => (List.nodup_append.mp hall).2.2 _ hin _ List.mem_cons_self rfl
    have hcomma : skipBlanks (layout.behind ((member :: later).map (·.written layout)) ++ rest) =
        ',' :: (layout.inner.lead ++ (member.written layout ++
          (layout.behind (later.map (·.written layout)) ++ rest))) := by
      rw [List.map_cons, JsonLayout.behind, List.cons_append, skipBlanks_cons rfl]
      simp only [List.append_assoc]
    have hread := readMember_written hnodup hmem hnew layout layout.inner.lead
      (fun _ => JsonLayout.isBlank_of_mem_lead)
      (layout.endsValue_behind (later.map (·.written layout)) rest)
    rw [readMembers_comma hcomma hread]
    exact ih (member :: earlier) (List.perm_middle.symm.trans hperm)

/-- **A record is accepted as an object of its fields**, with its members in any order. -/
theorem recordReader_accepts_object (members : List (WrittenField α))
    (hnodup : (members.map (·.field.name)).Nodup)
    {layout : JsonLayout} {parts : List (List Char)}
    (hperm : parts.Perm (members.map (·.written layout))) :
    (recordReader (members.map (·.field))).Accepts (layout.object parts)
      (members.map (·.value)) := by
  obtain ⟨order, rfl, horder⟩ : ∃ order : List (WrittenField α),
      parts = order.map (·.written layout) ∧ order.Perm members := by
    have hcomp := congrFun (congrFun (List.eq_map_comp_perm
      fun member : WrittenField α => member.written layout) parts) members
    exact hcomp.symm.mp hperm
  intro blanks rest hblanks hrest
  have hopen (text : List Char) :
      (recordReader (members.map (·.field))).read (blanks ++ '\x7b' :: text) =
        readMembers true (slotsOnce members []) text := by
    simp [recordReader, readRecord, skipBlanks_append hblanks, skipBlanks_cons (c := '\x7b') rfl,
      emptySlots_eq_slotsOnce]
  cases order with
  | nil =>
    rw [horder.nil_eq.symm] at hopen ⊢
    exact (hopen _).trans (readMembers_end (skipBlanks_cons rfl rest))
  | cons member later =>
    have hmem : member ∈ members := horder.mem_iff.mp List.mem_cons_self
    have hfirst : skipBlanks (layout.inner.lead ++ (member.written layout ++
        (layout.behind (later.map (·.written layout)) ++ rest))) =
        member.written layout ++ (layout.behind (later.map (·.written layout)) ++ rest) := by
      rw [skipBlanks_append fun _ => JsonLayout.isBlank_of_mem_lead]
      exact skipBlanks_cons rfl _
    have hread := readMember_written hnodup hmem List.not_mem_nil layout
      [] (fun _ hc => by cases hc)
      (layout.endsValue_behind (later.map (·.written layout)) rest)
    rw [List.map_cons, JsonLayout.object_cons]
    simp only [List.cons_append, List.append_assoc]
    rw [hopen, readMembers_first hfirst (by decide) hread]
    exact readMembers_behind hnodup layout [member] horder rest

end Objects

end FlightRecorder
