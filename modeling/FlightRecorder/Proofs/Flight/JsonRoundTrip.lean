import FlightRecorder.Proofs.Json.Objects

/-!
# Flights are read back from JSON

A flight is four objects: one for its date, one for each of its two times, and one around them. All
four are read by the names of their members, so a flight comes back from its JSON in any layout and
with the members of each object in any order. No component is too large for this, up to the largest
ones that a flight can have.

* `Date.reader_accepts`, `Time.reader_accepts` — an object of three numbers
* `Flight.reader_accepts` — the object around
* `Flight.readWhole_writtenMembers` — a flight is read back from its JSON
-/

namespace FlightRecorder

/-! ## Dates and times -/

/-- A component of a date or time as it is written. -/
def writtenComponent (name : String) (plain : name.toList.all isPlain = true) (n : UInt32) :
    WrittenField Nat where
  field := componentField name
  value := n.toNat
  text := decimal n.toNat
  plain := plain
  accepted := by
    have hlength := length_decimal_le n.toNat_lt_size
    exact numberReader_accepts_decimal n.toNat_lt_size (by omega)

/-- Three components are accepted as an object of three numbers. -/
theorem recordReader_accepts_numbers (layout : JsonLayout) {a b c : String}
    (hplain : ∀ name ∈ [a, b, c], name.toList.all isPlain = true) (hnodup : [a, b, c].Nodup)
    (x y z : UInt32) {order : List (String × Nat)}
    (horder : order.Perm [(a, x.toNat), (b, y.toNat), (c, z.toNat)]) :
    (recordReader [componentField a, componentField b, componentField c]).Accepts
      (layout.numbers order) [x.toNat, y.toNat, z.toNat] :=
  recordReader_accepts_object
    [ writtenComponent a (hplain a (by simp)) x,
      writtenComponent b (hplain b (by simp)) y,
      writtenComponent c (hplain c (by simp)) z ]
    hnodup (horder.map _)

theorem Date.reader_accepts (d : Date) {layout : JsonLayout} {order : List (String × Nat)}
    (horder : order.Perm d.jsonMembers) : Date.reader.Accepts (layout.numbers order) d := by
  have hnumbers := recordReader_accepts_numbers layout (by decide) (by decide)
    d.year d.month d.day horder
  exact hnumbers.filterMap (by simp [ofComponents?])

theorem Time.reader_accepts (t : Time) {layout : JsonLayout} {order : List (String × Nat)}
    (horder : order.Perm t.jsonMembers) : Time.reader.Accepts (layout.numbers order) t := by
  have hnumbers := recordReader_accepts_numbers layout (by decide) (by decide)
    t.hour t.minute t.second horder
  exact hnumbers.filterMap (by simp [ofComponents?])

/-! ## Flights -/

namespace Flight

/-- The members of a flight, with the members of its date and of its times in a given order. -/
def writtenMembers (layout : JsonLayout) (date start finish : List (String × Nat))
    (index : UInt8) : List (List Char) :=
  [ layout.member "date" (layout.inner.numbers date),
    layout.member "start_time" (layout.inner.numbers start),
    layout.member "end_time" (layout.inner.numbers finish),
    layout.member "index" (decimal index.toNat) ]

theorem index_accepts (index : UInt8) :
    (numberReader 256).Accepts (decimal index.toNat) index.toNat := by
  have hlength : (decimal index.toNat).length ≤ 10 :=
    length_decimal_le (Nat.lt_trans index.toNat_lt_size (by decide))
  exact numberReader_accepts_decimal index.toNat_lt_size (by omega)

/-- One part of a flight as it is written. -/
def writtenPart {α : Type} (name : String) (plain : name.toList.all isPlain = true)
    (part : α → FlightPart) {reader : JsonReader α} {text : List Char} {value : α}
    (accepted : reader.Accepts text value) : WrittenField FlightPart where
  field := { name := name, reader := reader.filterMap fun v => some (part v) }
  value := part value
  text := text
  plain := plain
  accepted := accepted.filterMap (f := fun v => some (part v)) rfl

theorem reader_accepts (f : Flight) {layout : JsonLayout} {date start finish : List (String × Nat)}
    {parts : List (List Char)} (hdate : date.Perm f.date.jsonMembers)
    (hstart : start.Perm f.startTime.jsonMembers) (hfinish : finish.Perm f.endTime.jsonMembers)
    (hparts : parts.Perm (writtenMembers layout date start finish f.index)) :
    Flight.reader.Accepts (layout.object parts) f := by
  have hnodup : ["date", "start_time", "end_time", "index"].Nodup := by decide
  have hrecord := recordReader_accepts_object
    [ writtenPart "date" (by decide) .date (f.date.reader_accepts hdate),
      writtenPart "start_time" (by decide) .time (f.startTime.reader_accepts hstart),
      writtenPart "end_time" (by decide) .time (f.endTime.reader_accepts hfinish),
      writtenPart "index" (by decide) (fun n => .index (UInt8.ofNat n)) (index_accepts f.index) ]
    hnodup hparts
  refine hrecord.filterMap ?_
  simp [writtenPart, ofParts?]

/-- **A flight is read back from its JSON**, and from its JSON in any layout with the members of
each of its four objects in any other order. -/
theorem readWhole_writtenMembers (f : Flight) :
    Flight.reader.readWhole f.toJson = .ok f ∧
    ∀ (layout : JsonLayout) (date start finish : List (String × Nat)) (parts : List (List Char)),
      date.Perm f.date.jsonMembers → start.Perm f.startTime.jsonMembers →
      finish.Perm f.endTime.jsonMembers →
      parts.Perm (writtenMembers layout date start finish f.index) →
      Flight.reader.readWhole (String.ofList (layout.object parts)) = .ok f := by
  constructor
  · exact (f.reader_accepts (.refl _) (.refl _) (.refl _) (.refl _)).readWhole_eq
  · intro layout date start finish parts hdate hstart hfinish hparts
    exact (f.reader_accepts hdate hstart hfinish hparts).readWhole_eq

/-- The largest components, and the members of all four objects in the opposite order. -/
theorem readWhole_largest_reversed :
    Flight.reader.readWhole ("\x7b\"index\":255," ++
      "\"end_time\":\x7b\"second\":60,\"minute\":59,\"hour\":23\x7d," ++
      "\"start_time\":\x7b\"second\":4294967295,\"minute\":4294967295,\"hour\":4294967295\x7d," ++
      "\"date\":\x7b\"day\":4294967295,\"month\":0,\"year\":4294967295\x7d\x7d") =
    .ok {
      date := { year := 4294967295, month := 0, day := 4294967295 }
      startTime := { hour := 4294967295, minute := 4294967295, second := 4294967295 }
      endTime := { hour := 23, minute := 59, second := 60 }
      index := 255 } := by
  have htext : "\x7b\"index\":255," ++
      "\"end_time\":\x7b\"second\":60,\"minute\":59,\"hour\":23\x7d," ++
      "\"start_time\":\x7b\"second\":4294967295,\"minute\":4294967295,\"hour\":4294967295\x7d," ++
      "\"date\":\x7b\"day\":4294967295,\"month\":0,\"year\":4294967295\x7d\x7d" =
      String.ofList (JsonLayout.compact.object
        (writtenMembers .compact
          [("day", 4294967295), ("month", 0), ("year", 4294967295)]
          [("second", 4294967295), ("minute", 4294967295), ("hour", 4294967295)]
          [("second", 60), ("minute", 59), ("hour", 23)] 255).reverse) := by cbv
  rw [htext]
  exact (readWhole_writtenMembers _).2 .compact _ _ _ _ (by decide) (by decide) (by decide)
    (List.reverse_perm _)

end Flight

end FlightRecorder
