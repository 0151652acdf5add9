import FlightRecorder.Flight.InfoLine
import FlightRecorder.Text.Pieces

/-!
# The fields of an info line

An info line is read from field to field, and a field counts only if it is closed and something
follows. Which fields are read, and whether they count, can be seen from the line cut at all its
separators.

* `fields`, `behindFields` — the line cut at its separators, and the text behind the first fields
* `FieldAt` — a field with a number is closed, and something follows
* `fieldAt_zero_iff`, `fieldAt_succ_iff` — reading on from field to field
* `dateField?_eq_some_iff` — the date is in the first field or in the one behind the name
* `Flight.ToldBy`, `Flight.parseInfo?_of_fields` — what an info line tells
-/

namespace FlightRecorder

/-! ## Pieces -/

/-- The piece in front of the first separator. -/
theorem pieces_append_cons {separator : Char} {piece : List Char} (rest : List Char)
    (h : separator ∉ piece) :
    pieces separator (piece ++ separator :: rest) = piece :: pieces separator rest := by
  induction piece with
  | nil => exact pieces_cons_self separator rest
  | cons c piece ih =>
    rw [List.mem_cons, not_or] at h
    have hrest := ih h.2
    rw [pieces, List.cons.injEq] at hrest
    rw [List.cons_append, pieces_cons_ne (Ne.symm h.1), hrest.1, hrest.2]

/-! ## Fields -/

/-- What stands between the separators of a line. -/
def fields (text : List Char) : List (List Char) := pieces fieldSeparator text

/-- The text behind the first fields and their separators. -/
def behindFields (count : Nat) (text : List Char) : List Char :=
  [fieldSeparator].intercalate ((fields text).drop count)

/-- The field with this number, counted from 0, is closed by a separator, and something follows. -/
structure FieldAt (number : Nat) (text field rest : List Char) : Prop where
  closed : number < text.count fieldSeparator
  field_eq : (fields text)[number]? = some field
  rest_eq : behindFields (number + 1) text = rest
  rest_ne_nil : rest ≠ []

theorem fields_append_cons {first : List Char} (text : List Char) (h : fieldSeparator ∉ first) :
    fields (first ++ fieldSeparator :: text) = first :: fields text :=
  pieces_append_cons text h

theorem count_append_cons {first : List Char} (text : List Char) (h : fieldSeparator ∉ first) :
    (first ++ fieldSeparator :: text).count fieldSeparator = text.count fieldSeparator + 1 := by
  simp [List.count_eq_zero_of_not_mem h]

@[simp]
theorem behindFields_zero (text : List Char) : behindFields 0 text = text :=
  intercalate_pieces fieldSeparator text

theorem behindFields_append_cons {first : List Char} (number : Nat) (text : List Char)
    (h : fieldSeparator ∉ first) :
    behindFields (number + 1) (first ++ fieldSeparator :: text) = behindFields number text := by
  unfold behindFields
  rw [fields_append_cons text h, List.drop_succ_cons]

/-- In front of a closed field stands the first one. -/
theorem FieldAt.exists_append_cons {number : Nat} {text field rest : List Char}
    (h : FieldAt number text field rest) :
    ∃ first more, text = first ++ fieldSeparator :: more ∧ fieldSeparator ∉ first :=
  List.eq_append_cons_of_mem (List.count_pos_iff.mp (Nat.zero_lt_of_lt h.closed))

/-- The fields behind the first one have one number less in the text behind it. -/
theorem fieldAt_append_cons_iff {first : List Char} (h : fieldSeparator ∉ first) {number : Nat}
    {text field rest : List Char} :
    FieldAt (number + 1) (first ++ fieldSeparator :: text) field rest ↔
      FieldAt number text field rest := by
  constructor
  · intro ⟨hclosed, hfield, hrest, hne⟩
    rw [count_append_cons text h] at hclosed
    rw [fields_append_cons text h, List.getElem?_cons_succ] at hfield
    rw [behindFields_append_cons _ text h] at hrest
    exact ⟨by omega, hfield, hrest, hne⟩
  · intro ⟨hclosed, hfield, hrest, hne⟩
    refine ⟨?_, ?_, ?_, hne⟩
    · rw [count_append_cons text h]
      omega
    · rw [fields_append_cons text h, List.getElem?_cons_succ, hfield]
    · rw [behindFields_append_cons _ text h, hrest]

/-! ## From field to field -/

/-- **The next field** is the text up to a separator with something behind it. -/
theorem nextField?_eq_some_iff {text field rest : List Char} :
    nextField? text = some (field, rest) ↔
      text = field ++ fieldSeparator :: rest ∧ fieldSeparator ∉ field ∧ rest ≠ [] := by
  constructor
  · intro h
    have hcut := @List.takeWhile_append_dropWhile _ (· ≠ fieldSeparator) text
    have hstop := List.head?_dropWhile_not (· ≠ fieldSeparator) text
    unfold nextField? at h
    split at h
    · next separator next rest' hbehind =>
      rw [hbehind] at hcut hstop
      have hseparator : separator = fieldSeparator := by simpa using hstop
      cases h
      refine ⟨?_, ?_, List.cons_ne_nil _ _⟩
      · rw [hseparator] at hcut
        exact hcut.symm
      · intro hmem
        have hin := List.all_eq_true.mp List.all_takeWhile _ hmem
        simp at hin
    · cases h
  · rintro ⟨rfl, hfield, hrest⟩
    have hin : ∀ c ∈ field, decide (c ≠ fieldSeparator) = true := by
      intro c hc
      rw [decide_eq_true_eq]
      rintro rfl
      exact hfield hc
    obtain ⟨next, rest', rfl⟩ := List.exists_cons_of_ne_nil hrest
    unfold nextField?
    rw [List.dropWhile_append_of_pos hin, List.takeWhile_append_of_pos hin]
    simp

theorem fieldAt_zero_iff {text field rest : List Char} :
    FieldAt 0 text field rest ↔ nextField? text = some (field, rest) := by
  rw [nextField?_eq_some_iff]
  constructor
  · intro h
    obtain ⟨first, more, rfl, hfirst⟩ := h.exists_append_cons
    obtain ⟨-, hfield, hrest, hne⟩ := h
    rw [fields_append_cons more hfirst, List.getElem?_cons_zero] at hfield
    rw [behindFields_append_cons 0 more hfirst, behindFields_zero] at hrest
    cases hfield
    subst hrest
    exact ⟨rfl, hfirst, hne⟩
  · rintro ⟨rfl, hfield, hne⟩
    refine ⟨?_, ?_, ?_, hne⟩
    · rw [count_append_cons rest hfield]
      omega
    · rw [fields_append_cons rest hfield, List.getElem?_cons_zero]
    · rw [behindFields_append_cons 0 rest hfield, behindFields_zero]

/-- **Behind a field the next one is read.** -/
theorem fieldAt_succ_iff {number : Nat} {text field rest : List Char} :
    FieldAt (number + 1) text field rest ↔
      ∃ before behind, FieldAt number text before behind ∧
        nextField? behind = some (field, rest) := by
  induction number generalizing text with
  | zero =>
    constructor
    · intro h
      obtain ⟨first, more, rfl, hfirst⟩ := h.exists_append_cons
      have hnext := fieldAt_zero_iff.mp ((fieldAt_append_cons_iff hfirst).mp h)
      -- The next field is closed, so there is something behind this one.
      have hmore : more ≠ [] := by
        rw [(nextField?_eq_some_iff.mp hnext).1]
        simp
      have hat := fieldAt_zero_iff.mpr (nextField?_eq_some_iff.mpr ⟨rfl, hfirst, hmore⟩)
      exact ⟨first, more, hat, hnext⟩
    · rintro ⟨first, more, hat, hnext⟩
      obtain ⟨rfl, hfirst, -⟩ := nextField?_eq_some_iff.mp (fieldAt_zero_iff.mp hat)
      exact (fieldAt_append_cons_iff hfirst).mpr (fieldAt_zero_iff.mpr hnext)
  | succ number ih =>
    constructor
    · intro h
      obtain ⟨first, more, rfl, hfirst⟩ := h.exists_append_cons
      obtain ⟨before, behind, hat, hnext⟩ := ih.mp ((fieldAt_append_cons_iff hfirst).mp h)
      exact ⟨before, behind, (fieldAt_append_cons_iff hfirst).mpr hat, hnext⟩
    · rintro ⟨before, behind, hat, hnext⟩
      obtain ⟨first, more, rfl, hfirst⟩ := hat.exists_append_cons
      refine (fieldAt_append_cons_iff hfirst).mpr (ih.mpr ⟨before, behind, ?_, hnext⟩)
      exact (fieldAt_append_cons_iff hfirst).mp hat

/-! ## The date field -/

/-- The field that holds the date: the first one, or the second one behind a name. -/
def dateFieldNumber (text : List Char) : Nat :=
  if utf8Size ((fields text).headD []) ≤ maxDateFieldSize then 0 else 1

theorem FieldAt.headD_eq {text field rest : List Char} (h : FieldAt 0 text field rest) :
    (fields text).headD [] = field := by
  have hfield := h.field_eq
  rw [← List.head?_eq_getElem?] at hfield
  rw [List.headD_eq_head?_getD, hfield]
  rfl

/-- **The date is in the first field, or in the one behind the name.** -/
theorem dateField?_eq_some_iff {text field rest : List Char} :
    dateField? text = some (field, rest) ↔ FieldAt (dateFieldNumber text) text field rest := by
  unfold dateField?
  simp only [Option.bind_eq_bind, Option.bind_eq_some_iff, Prod.exists, ← fieldAt_zero_iff]
  constructor
  · rintro ⟨first, behind, hat, h⟩
    unfold dateFieldNumber
    rw [hat.headD_eq]
    split at h
    · next hlong =>
      rw [if_neg (by omega)]
      exact fieldAt_succ_iff.mpr ⟨first, behind, hat, h⟩
    · next hshort =>
      cases h
      rw [if_pos (by omega)]
      exact hat
  · intro h
    unfold dateFieldNumber at h
    split at h
    · next hshort =>
      rw [h.headD_eq] at hshort
      refine ⟨field, rest, h, ?_⟩
      rw [if_neg (by omega)]
      rfl
    · next hlong =>
      obtain ⟨first, behind, hat, hnext⟩ := fieldAt_succ_iff.mp h
      rw [hat.headD_eq] at hlong
      refine ⟨first, behind, hat, ?_⟩
      rw [if_pos (by omega)]
      exact hnext

/-! ## What a line tells -/

namespace Flight

/-- A flight is made of the date and of the two fields behind it. -/
theorem parseInfo?_eq_some_iff {text : List Char} {index : UInt8} {flight : Flight} :
    parseInfo? text index = some flight ↔
      ∃ dateField behindDate startField behindStart durationField behindDuration,
        dateField? text = some (dateField, behindDate) ∧
        nextField? behindDate = some (startField, behindStart) ∧
        nextField? behindStart = some (durationField, behindDuration) ∧
        ∃ date startTime duration, Date.parse? dateField = some date ∧
          Time.parse? startField = some startTime ∧ Time.parse? durationField = some duration ∧
          flight = { date := date, startTime := startTime, endTime := startTime + duration,
                     index := index } := by
  unfold parseInfo?
  simp only [Option.bind_eq_bind, Option.bind_eq_some_iff, Prod.exists, Option.pure_def,
    Option.some.injEq]
  constructor
  · rintro ⟨_, _, hdate, date, hdate', _, _, hstart, startTime, hstart', _, _, hduration, duration,
      hduration', rfl⟩
    exact ⟨_, _, _, _, _, _, hdate, hstart, hduration, date, startTime, duration, hdate', hstart',
      hduration', rfl⟩
  · rintro ⟨_, _, _, _, _, _, hdate, hstart, hduration, date, startTime, duration, hdate', hstart',
      hduration', rfl⟩
    exact ⟨_, _, hdate, date, hdate', _, _, hstart, startTime, hstart', _, _, hduration, duration,
      hduration', rfl⟩

/-- **The flight that the fields of a line tell.** The three fields from the date on are closed, and
something follows; they hold the date, the start and the duration. -/
def ToldBy (text : List Char) (index : UInt8) (flight : Flight) : Prop :=
  dateFieldNumber text + 3 ≤ text.count fieldSeparator ∧
  behindFields (dateFieldNumber text + 3) text ≠ [] ∧
  ∃ date startTime duration,
    (fields text)[dateFieldNumber text]?.bind Date.parse? = some date ∧
    (fields text)[dateFieldNumber text + 1]?.bind Time.parse? = some startTime ∧
    (fields text)[dateFieldNumber text + 2]?.bind Time.parse? = some duration ∧
    flight = { date := date, startTime := startTime, endTime := startTime + duration,
               index := index }

theorem parseInfo?_eq_some_iff_toldBy (text : List Char) (index : UInt8) (flight : Flight) :
    parseInfo? text index = some flight ↔ ToldBy text index flight := by
  unfold ToldBy
  rw [parseInfo?_eq_some_iff]
  simp only [dateField?_eq_some_iff, Option.bind_eq_some_iff]
  constructor
  · rintro ⟨dateField, behindDate, startField, behindStart, durationField, behindDuration, hdate,
      hnext, hnext', date, startTime, duration, hdate', hstart', hduration', rfl⟩
    have hstart := fieldAt_succ_iff.mpr ⟨_, _, hdate, hnext⟩
    have hduration := fieldAt_succ_iff.mpr ⟨_, _, hstart, hnext'⟩
    refine ⟨hduration.closed, ?_, date, startTime, duration, ⟨_, hdate.field_eq, hdate'⟩,
      ⟨_, hstart.field_eq, hstart'⟩, ⟨_, hduration.field_eq, hduration'⟩, rfl⟩
    rw [hduration.rest_eq]
    exact hduration.rest_ne_nil
  · rintro ⟨hclosed, hbehind, date, startTime, duration, ⟨dateField, hdate, hdate'⟩,
      ⟨startField, hstart, hstart'⟩, ⟨durationField, hduration, hduration'⟩, rfl⟩
    -- The last of the three fields is closed with something behind it, so those before it are.
    have hlast : FieldAt (dateFieldNumber text + 2) text durationField _ :=
      ⟨hclosed, hduration, rfl, hbehind⟩
    obtain ⟨field, behindStart, hmiddle, hnext'⟩ := fieldAt_succ_iff.mp hlast
    obtain rfl := Option.some.inj (hstart.symm.trans hmiddle.field_eq)
    obtain ⟨field, behindDate, hfirst, hnext⟩ := fieldAt_succ_iff.mp hmiddle
    obtain rfl := Option.some.inj (hdate.symm.trans hfirst.field_eq)
    exact ⟨_, _, _, _, _, _, hfirst, hnext, hnext', date, startTime, duration, hdate', hstart',
      hduration', rfl⟩

end Flight

/-! ## Longer lines -/

/-- What comes behind the rest of a line belongs to that rest. -/
theorem nextField?_append {text field rest : List Char} (more : List Char)
    (h : nextField? text = some (field, rest)) :
    nextField? (text ++ more) = some (field, rest ++ more) := by
  obtain ⟨rfl, hfield, hrest⟩ := nextField?_eq_some_iff.mp h
  rw [nextField?_eq_some_iff]
  exact ⟨by simp, hfield, by simp [hrest]⟩

theorem dateField?_append {text field rest : List Char} (more : List Char)
    (h : dateField? text = some (field, rest)) :
    dateField? (text ++ more) = some (field, rest ++ more) := by
  unfold dateField? at h ⊢
  simp only [Option.bind_eq_bind, Option.bind_eq_some_iff, Prod.exists] at h ⊢
  obtain ⟨first, behind, hfirst, h⟩ := h
  refine ⟨first, behind ++ more, nextField?_append more hfirst, ?_⟩
  split at h
  · next hlong =>
    rw [if_pos hlong]
    exact nextField?_append more h
  · next hshort =>
    cases h
    rw [if_neg hshort]
    rfl

/-- **A name in front of a line is passed over.** -/
theorem dateField?_append_cons {name line : List Char} (hname : fieldSeparator ∉ name)
    (hlong : maxDateFieldSize < utf8Size name)
    (hshort : utf8Size ((fields line).headD []) ≤ maxDateFieldSize) :
    dateField? (name ++ fieldSeparator :: line) = dateField? line := by
  have hnumber : dateFieldNumber (name ++ fieldSeparator :: line) = 1 := by
    unfold dateFieldNumber
    rw [fields_append_cons line hname, List.headD_cons, if_neg (by omega)]
  have hnumber' : dateFieldNumber line = 0 := by
    unfold dateFieldNumber
    rw [if_pos hshort]
  refine Option.ext fun ⟨field, rest⟩ => ?_
  rw [dateField?_eq_some_iff, dateField?_eq_some_iff, hnumber, hnumber']
  exact fieldAt_append_cons_iff hname

namespace Flight

theorem parseInfo?_append {text : List Char} {index : UInt8} {flight : Flight} (more : List Char)
    (h : parseInfo? text index = some flight) : parseInfo? (text ++ more) index = some flight := by
  rw [parseInfo?_eq_some_iff] at h ⊢
  obtain ⟨_, _, _, _, _, _, hdate, hstart, hduration, h⟩ := h
  exact ⟨_, _, _, _, _, _, dateField?_append more hdate, nextField?_append more hstart,
    nextField?_append more hduration, h⟩

/--
**An info line is read by its fields.**

The date is in field 0 of a line whose first field is no longer than a date, and in field 1 of any
other. The line tells a flight if it closes the date field and the two behind it, something follows,
and the three are a date and two times: the start and the duration. So nothing changes for a line
that tells a flight when it goes on, nor when a name is put in front of a line without one.
-/
theorem parseInfo?_of_fields (text : List Char) (index : UInt8) :
    (∀ flight, parseInfo? text index = some flight ↔ ToldBy text index flight) ∧
    (∀ more flight, parseInfo? text index = some flight →
      parseInfo? (text ++ more) index = some flight) ∧
    (∀ name, fieldSeparator ∉ name → maxDateFieldSize < utf8Size name →
      utf8Size ((fields text).headD []) ≤ maxDateFieldSize →
      parseInfo? (name ++ [fieldSeparator] ++ text) index = parseInfo? text index) := by
  refine ⟨parseInfo?_eq_some_iff_toldBy text index, fun more flight => parseInfo?_append more,
    fun name hname hlong hshort => ?_⟩
  rw [List.append_assoc, List.singleton_append]
  unfold parseInfo?
  rw [dateField?_append_cons hname hlong hshort]

/-- A line of the short form, the same line with names behind it, and with a file name in front. -/
theorem parseInfo?_of_named_line :
    let line := "2011-08-12|12:23:48|02:03:25|T".toList
    let name := "18CG6NG1.IGC".toList
    let flight : Flight :=
      { date := { year := 2011, month := 8, day := 12 }
        startTime := { hour := 12, minute := 23, second := 48 }
        endTime := { hour := 14, minute := 27, second := 13 }
        index := 7 }
    parseInfo? line 7 = some flight ∧
      parseInfo? (line ++ "OBIAS|TH|Club".toList) 7 = some flight ∧
      (fieldSeparator ∉ name ∧ maxDateFieldSize < utf8Size name ∧
        utf8Size ((fields line).headD []) ≤ maxDateFieldSize) ∧
      parseInfo? (name ++ [fieldSeparator] ++ line) 7 = some flight := by
  intro line name flight
  have hline : parseInfo? line 7 = some flight := by decide +kernel
  have hname : fieldSeparator ∉ name ∧ maxDateFieldSize < utf8Size name ∧
      utf8Size ((fields line).headD []) ≤ maxDateFieldSize := by decide +kernel
  obtain ⟨-, hlonger, hnamed⟩ := parseInfo?_of_fields line 7
  exact ⟨hline, hlonger _ _ hline, hname,
    (hnamed name hname.1 hname.2.1 hname.2.2).trans hline⟩

/-- An empty field in front of the date is no name, and a line that ends with the duration may have
been cut off. -/
example :
    parseInfo? "|2011-08-12|12:23:48|02:03:25|T".toList 7 = none ∧
      parseInfo? "2011-08-12|12:23:48|02:03:25|".toList 7 = none := by decide +kernel

end Flight

end FlightRecorder
