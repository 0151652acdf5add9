import FlightRecorder.Proofs.Wire.Stuffing

/-!
# Stuffing is undone, and by nothing else

Each byte string has one stuffed form, and no other text is read as that byte string. A text that is
nobody's stuffed form begins with one all the same: reading it goes as far as it can, and what
is left begins with the defect that is reported.

* `Defect` — what a text may begin with that no stuffed text begins with
* `exists_stuff_append` — a text is a stuffed front, and a defect behind it if it does not end there
* `unstuffOnto_stuff_append` — reading restores the front and goes on behind it
* `LongestFront` — the front is as long as it can be
* `unstuff_stuff_and_leftmost_defect` — the laws of stuffing together
-/

namespace FlightRecorder

/-! ## Single bytes -/

/-- A byte is written as itself or as the pair that stands for it. -/
theorem stuffByte_cases (byte : UInt8) :
    (stuffByte byte = [byte] ∧ byte ≠ startByte ∧ byte ≠ escapeByte) ∨
      ∃ second, stuffByte byte = [escapeByte, second] ∧ restore? second = some byte := by
  by_cases hstart : byte = startByte
  · subst hstart
    exact .inr ⟨escapedStart, rfl, rfl⟩
  · by_cases hescape : byte = escapeByte
    · subst hescape
      exact .inr ⟨escapedEscape, rfl, rfl⟩
    · exact .inl ⟨stuffByte_of_plain hstart hescape, hstart, hescape⟩

/-- Where a stuffed byte ends can be seen from its front. -/
theorem stuffByte_append_inj {a b : UInt8} {s t : Bytes}
    (h : stuffByte a ++ s = stuffByte b ++ t) : a = b ∧ s = t := by
  rcases stuffByte_cases a with ⟨ha, -, hane⟩ | ⟨second, ha, hsecond⟩
  · rcases stuffByte_cases b with ⟨hb, -, -⟩ | ⟨third, hb, -⟩
    · rw [ha, hb] at h
      simpa using h
    · rw [ha, hb] at h
      exact absurd (List.cons.inj h).1 hane
  · rcases stuffByte_cases b with ⟨hb, -, hbne⟩ | ⟨third, hb, hthird⟩
    · rw [ha, hb] at h
      exact absurd (List.cons.inj h).1.symm hbne
    · rw [ha, hb] at h
      obtain ⟨rfl, rfl⟩ : second = third ∧ s = t := by simpa using h
      exact ⟨Option.some.inj (hsecond.symm.trans hthird), rfl⟩

/-- A reserved byte takes one byte more. -/
theorem length_stuffByte (byte : UInt8) :
    (stuffByte byte).length = 1 + [byte].count startByte + [byte].count escapeByte := by
  by_cases hstart : byte = startByte
  · subst hstart
    rfl
  · by_cases hescape : byte = escapeByte
    · subst hescape
      rfl
    · rw [stuffByte_of_plain hstart hescape]
      simp [hstart, hescape]

/-- Stuffing lengthens a byte string by one byte for each reserved byte. -/
theorem length_stuff (data : Bytes) :
    (stuff data).length = data.length + data.count startByte + data.count escapeByte := by
  induction data with
  | nil => rfl
  | cons byte data ih =>
    have hcount (a : UInt8) : (byte :: data).count a = [byte].count a + data.count a := by
      rw [← List.count_append]
      rfl
    rw [stuff_cons, List.length_append, length_stuffByte, ih, hcount, hcount, List.length_cons]
    omega

/-! ## Defects -/

/-- The text begins with something that no stuffed text begins with, which is this fault. -/
inductive Defect : Bytes → FrameFault → Prop
  | strayStart (rest : Bytes) : Defect (startByte :: rest) .strayStart
  | truncated : Defect [escapeByte] .truncated
  | badEscape {second : UInt8} (rest : Bytes) (h : restore? second = none) :
    Defect (escapeByte :: second :: rest) (.badEscape second)

/-- No byte is written as a defect. -/
theorem Defect.ne_stuffByte_append {text : Bytes} {fault : FrameFault} (h : Defect text fault)
    (byte : UInt8) (rest : Bytes) : text ≠ stuffByte byte ++ rest := by
  intro heq
  rcases stuffByte_cases byte with ⟨hbyte, hstart, hescape⟩ | ⟨second, hbyte, hsecond⟩
  · rw [hbyte] at heq
    cases h with
    | strayStart rest' => exact hstart (List.cons.inj heq).1.symm
    | truncated => exact hescape (List.cons.inj heq).1.symm
    | badEscape rest' hnone => exact hescape (List.cons.inj heq).1.symm
  · rw [hbyte] at heq
    cases h with
    | strayStart rest' => exact absurd (List.cons.inj heq).1 (by decide)
    | truncated => exact absurd (List.cons.inj heq).2 (by simp)
    | badEscape rest' hnone =>
      rw [(List.cons.inj (List.cons.inj heq).2).1, hsecond] at hnone
      cases hnone

/-- **Every text is a stuffed front, behind which it ends or has a defect.** -/
theorem exists_stuff_append : ∀ text : Bytes,
    ∃ front rest, text = stuff front ++ rest ∧ (rest = [] ∨ ∃ fault, Defect rest fault)
  | [] => ⟨[], [], rfl, .inl rfl⟩
  | byte :: text => by
    by_cases hstart : byte = startByte
    · subst hstart
      exact ⟨[], _, rfl, .inr ⟨_, .strayStart text⟩⟩
    · by_cases hescape : byte = escapeByte
      · subst hescape
        match text with
        | [] => exact ⟨[], _, rfl, .inr ⟨_, .truncated⟩⟩
        | second :: text =>
          cases hsecond : restore? second with
          | none => exact ⟨[], _, rfl, .inr ⟨_, .badEscape text hsecond⟩⟩
          | some plain =>
            obtain ⟨front, rest, rfl, hrest⟩ := exists_stuff_append text
            refine ⟨plain :: front, rest, ?_, hrest⟩
            rw [stuff_cons, stuffByte_of_restore? hsecond]
            rfl
      · obtain ⟨front, rest, rfl, hrest⟩ := exists_stuff_append text
        refine ⟨byte :: front, rest, ?_, hrest⟩
        rw [stuff_cons, stuffByte_of_plain hstart hescape]
        rfl
termination_by text => text.length

/-! ## Reading -/

theorem unstuffOnto_start (restored : Array UInt8) (rest : Bytes) :
    unstuffOnto restored (startByte :: rest) = .error .strayStart := by
  cases rest <;> simp [unstuffOnto]

theorem unstuffOnto_plain (restored : Array UInt8) {byte : UInt8} (rest : Bytes)
    (hstart : byte ≠ startByte) (hescape : byte ≠ escapeByte) :
    unstuffOnto restored (byte :: rest) = unstuffOnto (restored.push byte) rest := by
  cases rest <;> simp [unstuffOnto, hstart, hescape]

theorem unstuffOnto_pair (restored : Array UInt8) {second plain : UInt8} (rest : Bytes)
    (h : restore? second = some plain) :
    unstuffOnto restored (escapeByte :: second :: rest)
      = unstuffOnto (restored.push plain) rest := by
  rw [unstuffOnto, if_neg (by decide), if_pos rfl, h]

theorem unstuffOnto_badEscape (restored : Array UInt8) {second : UInt8} (rest : Bytes)
    (h : restore? second = none) :
    unstuffOnto restored (escapeByte :: second :: rest) = .error (.badEscape second) := by
  rw [unstuffOnto, if_neg (by decide), if_pos rfl, h]

theorem unstuffOnto_stuffByte_append (restored : Array UInt8) (byte : UInt8) (rest : Bytes) :
    unstuffOnto restored (stuffByte byte ++ rest) = unstuffOnto (restored.push byte) rest := by
  obtain ⟨hbyte, hstart, hescape⟩ | ⟨second, hbyte, hsecond⟩ := stuffByte_cases byte
  · rw [hbyte]
    exact unstuffOnto_plain restored rest hstart hescape
  · rw [hbyte]
    exact unstuffOnto_pair restored rest hsecond

/-- Reading restores a stuffed front and goes on behind it. -/
theorem unstuffOnto_stuff_append (restored : Array UInt8) (front rest : Bytes) :
    unstuffOnto restored (stuff front ++ rest) = unstuffOnto (restored ++ front) rest := by
  induction front generalizing restored with
  | nil => simp
  | cons byte front ih =>
    rw [stuff_cons, List.append_assoc, unstuffOnto_stuffByte_append, ih]
    simp

/-- A defect ends the reading with its fault. -/
theorem Defect.unstuffOnto_eq {text : Bytes} {fault : FrameFault} (h : Defect text fault)
    (restored : Array UInt8) : unstuffOnto restored text = .error fault := by
  cases h with
  | strayStart rest => exact unstuffOnto_start restored rest
  | truncated => rfl
  | badEscape rest hnone => exact unstuffOnto_badEscape restored rest hnone

/-- **A byte string is read back from its stuffed form.** -/
@[simp]
theorem unstuff_stuff (data : Bytes) : unstuff (stuff data) = .ok data := by
  have hread := unstuffOnto_stuff_append #[] data []
  rw [List.append_nil] at hread
  rw [unstuff, hread]
  simp [unstuffOnto]

theorem Defect.unstuff_stuff_append {rest : Bytes} {fault : FrameFault} (h : Defect rest fault)
    (front : Bytes) : unstuff (stuff front ++ rest) = .error fault := by
  rw [unstuff, unstuffOnto_stuff_append, h.unstuffOnto_eq]

/-- Only the stuffed form of a byte string is read as that byte string. -/
theorem eq_stuff_of_unstuff {text data : Bytes} (h : unstuff text = .ok data) :
    text = stuff data := by
  obtain ⟨front, rest, rfl, rfl | ⟨fault, hdefect⟩⟩ := exists_stuff_append text
  · rw [List.append_nil, unstuff_stuff] at h
    rw [List.append_nil, Except.ok.inj h]
  · rw [hdefect.unstuff_stuff_append front] at h
    cases h

/-! ## The longest front -/

/-- `text` is the stuffed form of `front`, then `rest`, and no longer byte string is stuffed at the
front of it. -/
structure LongestFront (text front rest : Bytes) : Prop where
  text_eq : text = stuff front ++ rest
  longest : ∀ front' rest', text = stuff front' ++ rest' → front'.length ≤ front.length

/-- Behind a defect no stuffed front goes on. -/
theorem Defect.prefix_of_stuff_append {rest : Bytes} {fault : FrameFault} (h : Defect rest fault)
    {front front' rest' : Bytes} (heq : stuff front ++ rest = stuff front' ++ rest') :
    front' <+: front := by
  induction front' generalizing front with
  | nil => exact List.nil_prefix
  | cons byte front' ih =>
    rw [stuff_cons, List.append_assoc] at heq
    cases front with
    | nil => exact absurd heq (h.ne_stuffByte_append byte _)
    | cons byte' front =>
      rw [stuff_cons, List.append_assoc] at heq
      obtain ⟨rfl, htail⟩ := stuffByte_append_inj heq
      exact (List.prefix_cons_inj byte').mpr (ih htail)

theorem Defect.longestFront {rest : Bytes} {fault : FrameFault} (h : Defect rest fault)
    (front : Bytes) : LongestFront (stuff front ++ rest) front rest where
  text_eq := rfl
  longest _ _ heq := (h.prefix_of_stuff_append heq).length_le

/-- Behind the longest front of a text that no byte string is written as, there is a defect. -/
theorem LongestFront.exists_defect {text front rest : Bytes} (h : LongestFront text front rest)
    (hnone : ∀ data, text ≠ stuff data) : ∃ fault, Defect rest fault := by
  obtain ⟨more, left, hrest, hleft⟩ := exists_stuff_append rest
  have htext : text = stuff (front ++ more) ++ left := by
    rw [h.text_eq, hrest, stuff_append, List.append_assoc]
  have hmore : more = [] := by
    have hlength := h.longest _ _ htext
    rw [List.length_append] at hlength
    exact List.eq_nil_of_length_eq_zero (by omega)
  subst hmore
  obtain rfl | ⟨fault, hdefect⟩ := hleft
  · exact absurd (htext.trans (List.append_nil _)) (hnone _)
  · exact ⟨fault, hrest ▸ hdefect⟩

/-! ## The laws together -/

/--
**Stuffing is a bijection onto the texts that can be read, and every other text is refused for its
leftmost defect.**

A byte string is read back from its stuffed form and from no other text. Stuffing goes byte by
byte, leaves no start byte and adds one byte for each reserved one. A text that is no stuffed form
has a longest stuffed front, and behind it stands a start byte, an escape byte at the end, or an
escape byte with a byte that completes no pair: that is the fault.
-/
theorem unstuff_stuff_and_leftmost_defect (x y : Bytes) :
    unstuff (stuff x) = .ok x ∧
    (unstuff y = .ok x → y = stuff x) ∧
    stuff (x ++ y) = stuff x ++ stuff y ∧
    startByte ∉ stuff x ∧
    (stuff x).length = x.length + x.count startByte + x.count escapeByte ∧
    ((∀ z, y ≠ stuff z) →
      (∃ u t, LongestFront y u t) ∧
      ∀ u t, LongestFront y u t →
        (∃ rest, t = startByte :: rest ∧ unstuff y = .error .strayStart) ∨
        (t = [escapeByte] ∧ unstuff y = .error .truncated) ∨
        ∃ second rest, t = escapeByte :: second :: rest ∧
          unstuff y = .error (.badEscape second)) := by
  refine ⟨unstuff_stuff x, eq_stuff_of_unstuff, stuff_append x y, startByte_notMem_stuff x,
    length_stuff x, fun hnone => ⟨?_, fun u t hlongest => ?_⟩⟩
  · obtain ⟨front, rest, rfl, rfl | ⟨fault, hdefect⟩⟩ := exists_stuff_append y
    · exact absurd (List.append_nil _) (hnone front)
    · exact ⟨front, rest, hdefect.longestFront front⟩
  · obtain ⟨fault, hdefect⟩ := hlongest.exists_defect hnone
    have hfault := hdefect.unstuff_stuff_append u
    rw [← hlongest.text_eq] at hfault
    cases hdefect with
    | strayStart rest => exact .inl ⟨rest, rfl, hfault⟩
    | truncated => exact .inr (.inl ⟨rfl, hfault⟩)
    | badEscape rest _ => exact .inr (.inr ⟨_, rest, rfl, hfault⟩)

/-- A pair that is cut off by a start byte, behind a byte that needed a pair itself: the start byte
is reported as the second byte of the pair that it spoils. -/
theorem leftmost_defect_of_spoilt_pair :
    let text := stuff [0x41, startByte] ++ [escapeByte, startByte, escapedStart]
    (∀ z, text ≠ stuff z) ∧
      LongestFront text [0x41, startByte] [escapeByte, startByte, escapedStart] ∧
      unstuff text = .error (.badEscape startByte) := by
  have hdefect : Defect [escapeByte, startByte, escapedStart] (.badEscape startByte) :=
    .badEscape [escapedStart] rfl
  have hnone : ∀ z, stuff [0x41, startByte] ++ [escapeByte, startByte, escapedStart] ≠ stuff z := by
    intro z hz
    have hread := unstuff_stuff z
    rw [← hz, hdefect.unstuff_stuff_append] at hread
    cases hread
  have hlongest := hdefect.longestFront [0x41, startByte]
  refine ⟨hnone, hlongest, ?_⟩
  obtain ⟨-, -, -, -, -, hrefused⟩ := unstuff_stuff_and_leftmost_defect [] _
  obtain ⟨rest, hrest, -⟩ | ⟨hrest, -⟩ | ⟨second, rest, hrest, hfault⟩ :=
    (hrefused hnone).2 _ _ hlongest
  · cases hrest
  · cases hrest
  · cases hrest
    exact hfault

end FlightRecorder
