import FlightRecorder.Proofs.Text.Ascii
import FlightRecorder.Proofs.Flight.InfoLine
import FlightRecorder.Proofs.CommandLine.Describing

/-!
# Descriptions in foreign encodings

Behind the fields that are read, an info line carries names in whatever encoding they were typed.
They decide nothing about the flight: only that something stands there matters, and a null byte is
nothing. The fields in front are ASCII, and what follows cannot reach into them.

* `LineHead` — the front of an info line, up to the last field that is read
* `LineHead.toldBy_append_iff`, `LineHead.parseInfo?_append` — a line is read by its head
* `Session.ToldInfo`, `toldInfo_of_served` — a session is told what its device sends
* `readInfo_of_foreign_bytes` — how a description with foreign bytes is read
-/

namespace FlightRecorder

/-! ## Closed fields -/

/-- Fields, each with its separator. -/
def closeFields (columns : List (List Char)) : List Char := columns.flatMap (· ++ [fieldSeparator])

theorem closeFields_cons_append (column : List Char) (columns : List (List Char))
    (rest : List Char) :
    closeFields (column :: columns) ++ rest
      = column ++ fieldSeparator :: (closeFields columns ++ rest) := by
  simp [closeFields]

theorem fields_closeFields_append {columns : List (List Char)}
    (h : ∀ column ∈ columns, fieldSeparator ∉ column) (rest : List Char) :
    fields (closeFields columns ++ rest) = columns ++ fields rest := by
  induction columns with
  | nil => rfl
  | cons column columns ih =>
    rw [List.forall_mem_cons] at h
    rw [closeFields_cons_append, fields_append_cons _ h.1, ih h.2, List.cons_append]

theorem count_closeFields_append {columns : List (List Char)}
    (h : ∀ column ∈ columns, fieldSeparator ∉ column) (rest : List Char) :
    (closeFields columns ++ rest).count fieldSeparator
      = columns.length + rest.count fieldSeparator := by
  induction columns with
  | nil => exact (Nat.zero_add _).symm
  | cons column columns ih =>
    rw [List.forall_mem_cons] at h
    rw [closeFields_cons_append, count_append_cons _ h.1, ih h.2, List.length_cons]
    omega

theorem behindFields_closeFields_append {columns : List (List Char)}
    (h : ∀ column ∈ columns, fieldSeparator ∉ column) (rest : List Char) :
    behindFields columns.length (closeFields columns ++ rest) = rest := by
  unfold behindFields
  rw [fields_closeFields_append h, List.drop_left]
  exact behindFields_zero rest

/-! ## Heads of lines -/

/-- The fields of an info line that are read: three, or four if the first one is too long for a
date. They hold ASCII characters, whichever, but neither separators nor null characters. -/
structure LineHead where
  columns : List (List Char)
  isAscii : ∀ column ∈ columns, ∀ c ∈ column, IsAscii c
  notNull : ∀ column ∈ columns, '\x00' ∉ column
  closed : ∀ column ∈ columns, fieldSeparator ∉ column
  length_columns :
    columns.length = if (columns.headD []).length ≤ maxDateFieldSize then 3 else 4

namespace LineHead

/-- The head as it stands in a line, each field with its separator. -/
def text (head : LineHead) : List Char := closeFields head.columns

/-- The bytes of the head. -/
def bytes (head : LineHead) : Bytes := head.text.map asciiByte

/-- The fields of the head are a date and two times, and the flight is made of these. -/
def Tells (head : LineHead) (index : UInt8) (flight : Flight) : Prop :=
  ∃ date startTime duration,
    head.columns[head.columns.length - 3]?.bind Date.parse? = some date ∧
    head.columns[head.columns.length - 2]?.bind Time.parse? = some startTime ∧
    head.columns[head.columns.length - 1]?.bind Time.parse? = some duration ∧
    flight = { date := date, startTime := startTime, endTime := startTime + duration,
               index := index }

variable (head : LineHead)

theorem mem_text {c : Char} (h : c ∈ head.text) :
    c = fieldSeparator ∨ ∃ column ∈ head.columns, c ∈ column := by
  rw [text, closeFields, List.mem_flatMap] at h
  obtain ⟨column, hcolumn, hc⟩ := h
  rcases List.mem_append.mp hc with hc | hc
  · exact .inr ⟨column, hcolumn, hc⟩
  · exact .inl (List.mem_singleton.mp hc)

theorem isAscii_of_mem_text {c : Char} (h : c ∈ head.text) : IsAscii c := by
  rcases head.mem_text h with rfl | ⟨column, hcolumn, hc⟩
  · decide
  · exact head.isAscii column hcolumn c hc

theorem null_notMem_text : '\x00' ∉ head.text := by
  intro h
  rcases head.mem_text h with hseparator | ⟨column, hcolumn, hnull⟩
  · exact absurd hseparator (by decide)
  · exact head.notNull column hcolumn hnull

theorem columns_ne_nil : head.columns ≠ [] := by
  intro hnil
  have hlength := head.length_columns
  rw [hnil] at hlength
  cases hlength

theorem text_ne_nil : head.text ≠ [] := by
  obtain ⟨column, columns, hcolumns⟩ := List.exists_cons_of_ne_nil head.columns_ne_nil
  rw [text, hcolumns, closeFields, List.flatMap_cons]
  simp

/-- The date is three fields before the end of the head. -/
theorem dateFieldNumber_text_append (rest : List Char) :
    dateFieldNumber (head.text ++ rest) + 3 = head.columns.length := by
  have hfields : fields (head.text ++ rest) = head.columns ++ fields rest :=
    fields_closeFields_append head.closed rest
  obtain ⟨column, columns, hcolumns⟩ := List.exists_cons_of_ne_nil head.columns_ne_nil
  have hlength := head.length_columns
  have hcolumn : ∀ c ∈ column, IsAscii c :=
    head.isAscii column (by rw [hcolumns]; exact List.mem_cons_self)
  unfold dateFieldNumber
  rw [hfields, hlength, hcolumns, List.cons_append, List.headD_cons, List.headD_cons,
    utf8Size_of_isAscii hcolumn]
  split <;> rfl

/-- **What a line tells stands in its head, and something has to follow.** -/
theorem toldBy_append_iff (rest : List Char) (index : UInt8) (flight : Flight) :
    Flight.ToldBy (head.text ++ rest) index flight ↔ rest ≠ [] ∧ head.Tells index flight := by
  have hnumber := head.dateFieldNumber_text_append rest
  have hcount := count_closeFields_append head.closed rest
  have hbehind : behindFields head.columns.length (head.text ++ rest) = rest :=
    behindFields_closeFields_append head.closed rest
  have hfield : ∀ number, number < head.columns.length →
      (fields (head.text ++ rest))[number]? = head.columns[number]? := by
    intro number hlt
    rw [text, fields_closeFields_append head.closed, List.getElem?_append_left hlt]
  have hplace : dateFieldNumber (head.text ++ rest) = head.columns.length - 3 := by omega
  unfold Flight.ToldBy Tells
  rw [hnumber, hbehind, hfield _ (by omega), hfield _ (by omega), hfield _ (by omega), hplace]
  have hsecond : head.columns.length - 3 + 1 = head.columns.length - 2 := by omega
  have hthird : head.columns.length - 3 + 2 = head.columns.length - 1 := by omega
  rw [hsecond, hthird]
  exact and_iff_right (Nat.le.intro hcount.symm)

/-- A head alone may have been cut off. -/
theorem parseInfo?_text (index : UInt8) : Flight.parseInfo? head.text index = none := by
  rw [Option.eq_none_iff_forall_ne_some]
  intro flight hflight
  rw [← List.append_nil head.text, Flight.parseInfo?_eq_some_iff_toldBy,
    toldBy_append_iff] at hflight
  exact hflight.1 rfl

/-- **It does not matter what follows the head of a line.** -/
theorem parseInfo?_append {rest other : List Char} (hrest : rest ≠ []) (hother : other ≠ [])
    (index : UInt8) :
    Flight.parseInfo? (head.text ++ rest) index = Flight.parseInfo? (head.text ++ other) index := by
  refine Option.ext fun flight => ?_
  rw [Flight.parseInfo?_eq_some_iff_toldBy, Flight.parseInfo?_eq_some_iff_toldBy,
    toldBy_append_iff, toldBy_append_iff, and_iff_right hrest, and_iff_right hother]

end LineHead

/-! ## Replies -/

/-- The request for a description is answered by an acknowledgement with these bytes. -/
def Session.ToldInfo (s : Session) (data : Bytes) : Prop :=
  ∃ reply s', (exchange .getRecordInfo [] (·.controlTimeout)).perform s = (.ok reply, s') ∧
    reply.type = .ack ∧ reply.data = data

/-- **A session is told the description that its device sends.** -/
theorem toldInfo_of_served {s : Session} {r : StoredRecord} (hfits : r.description.Fits)
    (h : s.Served [r.description]) : s.ToldInfo r.info := by
  have hexpects : s.Expects [r.description] :=
    h.expects fun t ht => (List.mem_singleton.mp ht) ▸ hfits
  obtain ⟨s', hperform, -⟩ := perform_exchange_of_expects hexpects
  exact ⟨r.description.reply s.nextSequence, s', hperform, rfl, rfl⟩

/-- What a session makes of a description. -/
theorem perform_readInfo_of_toldInfo {s : Session} {data : Bytes} (h : s.ToldInfo data)
    (hdata : data ≠ []) (index : UInt8) :
    ((readInfo index).perform s).1 =
      match Flight.parseInfo? (trimNulls (decodeText data)) index with
      | some flight => .ok flight
      | none => .error (.invalidInfo (String.ofList (trimNulls (decodeText data)))) := by
  obtain ⟨reply, s', hperform, htype, rfl⟩ := h
  rw [readInfo, Action.perform_bind, hperform]
  show reply.flight index = _
  have hack : ¬ reply.type ≠ .ack := fun hne => hne htype
  exact (if_neg hack).trans (if_neg hdata)

/--
**Foreign bytes behind the head of a description do not matter, except that there are some.**

A device that sends a description in time tells it to the session. A session that is told a head and
bytes behind it, in whatever encoding, reads the flight that the head tells, as it would with a
single letter behind the head; a head that tells no flight is refused with the text of the line.
Null bytes do not count: a head with nothing else behind it is refused.
-/
theorem readInfo_of_foreign_bytes (head : LineHead) (tail : Bytes) (index : UInt8) :
    (∀ (s : Session) (r : StoredRecord), r.info = head.bytes ++ tail → r.description.Fits →
      s.Served [r.description] → s.ToldInfo (head.bytes ++ tail)) ∧
    (∀ s : Session, s.ToldInfo (head.bytes ++ tail) →
      ((∃ byte ∈ tail, byte ≠ 0) →
        ((readInfo index).perform s).1 =
          match Flight.parseInfo? (head.text ++ ['x']) index with
          | some flight => .ok flight
          | none =>
            .error (.invalidInfo (String.ofList (head.text ++ trimNulls (decodeText tail))))) ∧
      ((∀ byte ∈ tail, byte = 0) →
        ((readInfo index).perform s).1 = .error (.invalidInfo (String.ofList head.text)))) := by
  have htext : trimNulls (decodeText (head.bytes ++ tail))
      = head.text ++ trimNulls (decodeText tail) :=
    trimNulls_decodeText_map_asciiByte_append (fun _ => head.isAscii_of_mem_text)
      head.null_notMem_text tail
  have hsome : head.bytes ++ tail ≠ [] := by
    intro hnil
    exact head.text_ne_nil (List.map_eq_nil_iff.mp (List.append_eq_nil_iff.mp hnil).1)
  refine ⟨fun s r hinfo hfits hserved => ?_, fun s htold => ?_⟩
  · rw [← hinfo]
    exact toldInfo_of_served hfits hserved
  have hread := perform_readInfo_of_toldInfo htold hsome index
  rw [htext] at hread
  constructor
  · rintro ⟨byte, hbyte, hne⟩
    have hrest : trimNulls (decodeText tail) ≠ [] := by
      intro hnil
      exact hne (trimNulls_decodeText_eq_nil_iff.mp hnil byte hbyte)
    rw [hread, head.parseInfo?_append hrest (List.cons_ne_nil 'x' []) index]
  · intro hnull
    rw [hread, trimNulls_decodeText_eq_nil_iff.mpr hnull, List.append_nil, head.parseInfo?_text]

/-- The head of a description that begins with a file name. -/
def headWithFileName : LineHead where
  columns := ["18CG6NG1.IGC", "2011-08-12", "12:23:48", "02:03:25"].map String.toList
  isAscii := by simp [IsAscii]
  notNull := by decide
  closed := by decide
  length_columns := by decide

/-- The name Jürgen in Latin-1 and a separator, a null byte and the first byte of a character. -/
def latinName : Bytes := [0x4A, 0xFC, 0x72, 0x67, 0x65, 0x6E, 0x7C, 0, 0xC3]

/-- A record that is described by a head and other bytes. -/
def recordBehind (head : LineHead) (tail : Bytes) : StoredRecord where
  ownSelection := 1
  ownDescription := 2
  greeting := []
  text := head.bytes ++ tail
  nulls := 0

/-- The name is passed over, although it is no text, and null bytes are no name. -/
theorem readInfo_of_latinName :
    let record := recordBehind headWithFileName
    let told := fun tail => ((readInfo 7).perform (sessionAwaiting 9 [(record tail).description])).1
    let flight : Flight :=
      { date := { year := 2011, month := 8, day := 12 }
        startTime := { hour := 12, minute := 23, second := 48 }
        endTime := { hour := 14, minute := 27, second := 13 }
        index := 7 }
    told latinName = .ok flight ∧
      told [0, 0] = .error (.invalidInfo "18CG6NG1.IGC|2011-08-12|12:23:48|02:03:25|") := by
  intro record told flight
  have hflight : Flight.parseInfo? (headWithFileName.text ++ ['x']) 7 = some flight := by
    decide +kernel
  have hinfo : ∀ tail, (record tail).info = headWithFileName.bytes ++ tail :=
    fun tail => List.append_nil _
  obtain ⟨htold, hread⟩ := readInfo_of_foreign_bytes headWithFileName latinName 7
  obtain ⟨htold', hread'⟩ := readInfo_of_foreign_bytes headWithFileName [0, 0] 7
  constructor
  · obtain ⟨hsome, -⟩ :=
      hread _ (htold _ _ (hinfo latinName) (by decide) (served_sessionAwaiting 9 _))
    have hresult := hsome ⟨0x4A, by decide, by decide⟩
    rw [hflight] at hresult
    exact hresult
  · obtain ⟨-, hnone⟩ :=
      hread' _ (htold' _ _ (hinfo [0, 0]) (by decide) (served_sessionAwaiting 9 _))
    exact hnone (by simp)

end FlightRecorder
