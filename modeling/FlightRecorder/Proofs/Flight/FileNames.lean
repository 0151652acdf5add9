import FlightRecorder.Flight.Record
import FlightRecorder.Proofs.Flight.Notation
import FlightRecorder.Proofs.Storage.Content

/-!
# Names of files

The name of a file begins with the date of its flight, behind a plus sign in later years and behind
a mark if the date is no day of the calendar. Neither has a digit in it, so the date can be read
back from where the digits begin, and the number of the record from what is left. Nothing in a name
leads out of the directory that it is used in.

* `Date.mark`, `Flight.toList_defaultFileName` — the parts of a name
* `Flight.parse?_defaultFileName` — the date is read back from a name
* `Flight.defaultFileName_inj` — what flights of the same name have in common
* `Storage.locate_of_name` — a single name leads to a place in the working directory
* `Flight.defaultFileName_distinct_and_local` — names do not collide and stay in the directory
-/

namespace FlightRecorder

/-! ## Parts of a name -/

namespace Date

/-- What stands in a name in front of the numbers of the date. -/
def mark (d : Date) : List Char :=
  if d.IsCalendarDay then (if d.year.toNat < 10000 then [] else "+".toList) else "record-".toList

theorem mark_subset (d : Date) : d.mark ⊆ "+record-".toList := by
  unfold mark
  split
  · split
    · exact List.nil_subset _
    · decide
  · decide

theorem isDigit_of_mem_mark {d : Date} {c : Char} (h : c ∈ d.mark) : c.isDigit = false := by
  have hnone : ∀ c ∈ "+record-".toList, c.isDigit = false := by simp
  exact hnone c (d.mark_subset h)

theorem toList_calendarText?_getD (d : Date) :
    (d.calendarText?.getD ("record-" ++ d.display)).toList = d.mark ++ d.display.toList := by
  rw [calendarText?, mark]
  by_cases hday : d.IsCalendarDay
  · rw [if_pos hday, if_pos hday, Option.getD_some]
    by_cases hyear : d.year.toNat < 10000
    · rw [if_pos hyear, if_pos hyear, List.nil_append]
    · rw [if_neg hyear, if_neg hyear, String.toList_append]
  · rw [if_neg hday, if_neg hday, Option.getD_none, String.toList_append]

/-- A date begins with a digit. -/
theorem exists_toList_display_eq_cons (d : Date) :
    ∃ c rest, d.display.toList = c :: rest ∧ c.isDigit = true := by
  have hyear := isNumeral_paddedDecimal 4 d.year.toNat
  obtain ⟨c, rest, hcons⟩ := List.exists_cons_of_ne_nil hyear.ne_nil
  refine ⟨c, rest ++ ['-'] ++ paddedDecimal 2 d.month.toNat ++ ['-']
    ++ paddedDecimal 2 d.day.toNat, ?_, hyear.isDigit c (hcons ▸ List.mem_cons_self)⟩
  rw [display, String.toList_ofList, hcons]
  simp only [List.cons_append]

/-- A date has digits and hyphens. -/
theorem isDigit_or_eq_of_mem_display {d : Date} {c : Char} (h : c ∈ d.display.toList) :
    c.isDigit = true ∨ c = '-' := by
  have hdigit {width n : Nat} (h : c ∈ paddedDecimal width n) : c.isDigit = true :=
    (isNumeral_paddedDecimal width n).isDigit c h
  rw [display, String.toList_ofList] at h
  simp only [List.mem_append, List.mem_singleton] at h
  rcases h with (((h | h) | h) | h) | h
  · exact .inl (hdigit h)
  · exact .inr h
  · exact .inl (hdigit h)
  · exact .inr h
  · exact .inl (hdigit h)

end Date

namespace Flight

theorem toList_defaultFileName (f : Flight) :
    f.defaultFileName.toList = f.date.mark
      ++ (f.date.display.toList ++ (['-'] ++ (decimal f.index.toNat ++ ".igc".toList))) := by
  rw [defaultFileName, String.toList_append, String.toList_append, String.toList_append,
    f.date.toList_calendarText?_getD, String.toList_ofList, String.toList_ofList]
  simp only [List.append_assoc]

/-! ## Reading a name -/

/-- **The date is read back from a name**, from where the digits begin. -/
theorem parse?_defaultFileName (f : Flight) :
    Date.parse? (f.defaultFileName.toList.dropWhile (!·.isDigit)) = some f.date := by
  obtain ⟨c, rest, hcons, hdigit⟩ := f.date.exists_toList_display_eq_cons
  have hmark : ∀ c ∈ f.date.mark, (!c.isDigit) = true := by
    intro c hc
    rw [Date.isDigit_of_mem_mark hc]
    rfl
  have hend : EndsNumber (['-'] ++ (decimal f.index.toNat ++ ".igc".toList)) :=
    endsNumber_cons _ rfl
  have hback := f.date.parse?_display_append hend
  rw [toList_defaultFileName, List.dropWhile_append_of_pos hmark]
  rw [hcons] at hback ⊢
  rw [List.cons_append, List.dropWhile_cons_of_neg (by rw [hdigit]; decide)]
  exact hback

/-- **Flights of the same name have the same date and the same number.** -/
theorem defaultFileName_inj {f g : Flight} :
    f.defaultFileName = g.defaultFileName ↔ f.date = g.date ∧ f.index = g.index := by
  constructor
  · intro h
    have hdate : f.date = g.date := by
      have hf := f.parse?_defaultFileName
      rw [h, g.parse?_defaultFileName] at hf
      exact (Option.some.inj hf).symm
    have hname := congrArg String.toList h
    rw [toList_defaultFileName, toList_defaultFileName, hdate] at hname
    have hnumber : decimal f.index.toNat = decimal g.index.toNat :=
      List.append_cancel_right (List.append_cancel_left (List.append_cancel_left
        (List.append_cancel_left hname)))
    have hvalue := congrArg digitsValue hnumber
    rw [digitsValue_decimal, digitsValue_decimal] at hvalue
    exact ⟨hdate, UInt8.toNat_inj.mp hvalue⟩
  · rintro ⟨hdate, hindex⟩
    rw [defaultFileName, defaultFileName, hdate, hindex]

/-! ## Characters of a name -/

theorem mem_or_isDigit_of_mem_defaultFileName {f : Flight} {c : Char}
    (h : c ∈ f.defaultFileName.toList) : c.isDigit = true ∨ c ∈ "+record-.igc".toList := by
  have hmarks : "+record-".toList ⊆ "+record-.igc".toList := by decide
  have hends : ['-'] ++ ".igc".toList ⊆ "+record-.igc".toList := by decide
  rw [toList_defaultFileName] at h
  simp only [List.mem_append] at h
  rcases h with h | h | h | h | h
  · exact .inr (hmarks (f.date.mark_subset h))
  · rcases Date.isDigit_or_eq_of_mem_display h with h | rfl
    · exact .inl h
    · exact .inr (by decide)
  · exact .inr (hends (List.mem_append_left _ h))
  · exact .inl (Nat.isDigit_of_mem_toDigits (by decide) (by decide) h)
  · exact .inr (hends (List.mem_append_right _ h))

theorem notMem_defaultFileName (f : Flight) {c : Char} (hdigit : c.isDigit = false)
    (h : c ∉ "+record-.igc".toList) : c ∉ f.defaultFileName.toList := by
  intro hmem
  rcases mem_or_isDigit_of_mem_defaultFileName hmem with hother | hother
  · rw [hdigit] at hother
    cases hother
  · exact h hother

/-- A name is longer than the names of directories that stand in every directory. -/
theorem defaultFileName_ne (f : Flight) {name : String} (h : name.toList.length ≤ 4) :
    f.defaultFileName ≠ name := by
  intro hsame
  have hlength := congrArg List.length f.toList_defaultFileName
  rw [hsame] at hlength
  simp only [List.length_append] at hlength
  have hhyphen : ['-'].length = 1 := rfl
  have hending : ".igc".toList.length = 4 := rfl
  omega

end Flight

/-! ## Places -/

/-- A text without a separator is one piece. -/
theorem pieces_of_notMem {separator : Char} {text : List Char} (h : separator ∉ text) :
    pieces separator text = [text] := by
  have hlength := length_pieces separator text
  have hall := intercalate_pieces separator text
  rw [List.count_eq_zero_of_not_mem h] at hlength
  obtain ⟨piece, hpiece⟩ := List.length_eq_one_iff.mp hlength
  rw [hpiece, List.intercalate_singleton] at hall
  rw [hpiece, hall]

namespace Storage

/-- **A single name leads to its place in the working directory**, unless a directory is there. -/
theorem locate_of_name (s : Storage) {name : String} (hslash : '/' ∉ name.toList)
    (hempty : name ≠ "") (hdot : name ≠ ".") (hdots : name ≠ "..") :
    s.locate name =
      if s.get? (s.workingDirectory ++ [name]) = some .directory then .error .isDirectory
      else .ok (s.workingDirectory ++ [name]) := by
  have hnames : pathNames name = [name] := by
    rw [pathNames, namesOf, pieces_of_notMem hslash, List.map_singleton, String.ofList_toList]
    simp [hempty]
  have hnoSlash : ¬ name.endsWith "/" = true := by
    rw [String.endsWith_eq_endsWith_toSlice, String.Slice.endsWith_string_iff]
    intro hsuffix
    rw [String.copy_toSlice] at hsuffix
    exact hslash (hsuffix.subset (List.mem_singleton_self '/'))
  have horigin : s.origin name = s.workingDirectory := by
    rw [origin, if_neg]
    rw [String.startsWith_string_iff]
    intro hfront
    exact hslash (hfront.subset (List.mem_singleton_self '/'))
  have hlast : ¬ (name = "." ∨ name = "..") := not_or.mpr ⟨hdot, hdots⟩
  rw [locate, if_neg hempty, hnames, horigin]
  simp only [List.getLast?_singleton, if_neg hlast, List.dropLast_singleton, walk, if_neg hnoSlash]
  split
  · next hdirectory => rw [if_pos hdirectory]
  · next hother => rw [if_neg hother]

end Storage

/-! ## Names of all flights -/

/--
**Names of files do not collide and lead nowhere else.**

Two flights have the same name exactly if they have the same date, be it a day of the calendar or
not, and the same number. A name is not empty, has neither slashes nor null characters and is not
that of the directory itself or of the one above. So each name leads to a place of its own in the
working directory, in every tree that has no directory there.
-/
theorem Flight.defaultFileName_distinct_and_local :
    (∀ f g : Flight, f.defaultFileName = g.defaultFileName ↔
      f.date = g.date ∧ f.index = g.index) ∧
    (∀ f : Flight, f.defaultFileName ≠ "" ∧ '/' ∉ f.defaultFileName.toList ∧
      '\x00' ∉ f.defaultFileName.toList ∧ f.defaultFileName ≠ "." ∧ f.defaultFileName ≠ "..") ∧
    ∀ (f : Flight) (s : Storage), s.locate f.defaultFileName =
      if s.get? (s.workingDirectory ++ [f.defaultFileName]) = some .directory
      then .error .isDirectory
      else .ok (s.workingDirectory ++ [f.defaultFileName]) := by
  have hname (f : Flight) : f.defaultFileName ≠ "" ∧ '/' ∉ f.defaultFileName.toList ∧
      '\x00' ∉ f.defaultFileName.toList ∧ f.defaultFileName ≠ "." ∧ f.defaultFileName ≠ ".." :=
    ⟨f.defaultFileName_ne (by decide), f.notMem_defaultFileName (by decide) (by decide),
      f.notMem_defaultFileName (by decide) (by decide), f.defaultFileName_ne (by decide),
      f.defaultFileName_ne (by decide)⟩
  refine ⟨fun f g => defaultFileName_inj, hname, fun f s => ?_⟩
  obtain ⟨hempty, hslash, -, hdot, hdots⟩ := hname f
  exact s.locate_of_name hslash hempty hdot hdots

/-- A day of the calendar, one in a later year, and a date that is none. -/
example :
    let midnight : Time := { hour := 0, minute := 0, second := 0 }
    let flightOn (date : Date) : Flight :=
      { date := date, startTime := midnight, endTime := midnight, index := 12 }
    (flightOn { year := 2024, month := 2, day := 29 }).defaultFileName = "2024-02-29-12.igc" ∧
      (flightOn { year := 20240, month := 2, day := 29 }).defaultFileName = "+20240-02-29-12.igc" ∧
      (flightOn { year := 2023, month := 2, day := 29 }).defaultFileName
        = "record-2023-02-29-12.igc" := by decide +kernel

end FlightRecorder
