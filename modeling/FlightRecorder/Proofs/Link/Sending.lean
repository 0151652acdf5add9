import FlightRecorder.Link.Outgoing

/-!
# How far bytes get on a link

A link takes what it is sent until it is in trouble, in however many writes. So how sending ends, and
how many bytes are taken, is known from the trouble alone, as long as a write takes anything at all.

* `Outgoing.room` — how many of the bytes to send the link still takes
* `Outgoing.send_eq` — how sending them ends
* `Outgoing.exists_send_eq` — what is taken, also if writes take nothing
* `Outgoing.send_of_takes` — what the link takes is sent whole
* `Outgoing.send_inOneWrite` — the size of writes does not matter
-/

namespace FlightRecorder

namespace Outgoing

/-! ## Limits -/

/-- The link behind so many bytes more. -/
def after (o : Outgoing) (size : Nat) : Outgoing := { o with taken := o.taken + size }

/-- How many bytes the link takes in total, and how sending ends there. -/
def limit? (o : Outgoing) : Option (SendOutcome × Nat) :=
  match o.trouble with
  | some (.failing, limit) => some (.failed, limit)
  | some (.refusing, limit) => some (.refused, limit)
  | some (.stalling, limit) => some (.stalled, limit)
  | some (.unflushable, _) => none
  | none => none

/-- How many of so many bytes the link still takes. -/
def room (o : Outgoing) (size : Nat) : Nat :=
  match o.limit? with
  | none => size
  | some (_, limit) => min size (limit - o.taken)

/-- How sending ends where the link takes no more. -/
def stop (o : Outgoing) : SendOutcome :=
  match o.limit? with
  | none => .complete
  | some (stop, _) => stop

theorem after_after (o : Outgoing) (first second : Nat) :
    (o.after first).after second = o.after (first + second) := by
  simp only [after, Nat.add_assoc]

theorem limit?_after (o : Outgoing) (count : Nat) : (o.after count).limit? = o.limit? := rfl

theorem room_le (o : Outgoing) (size : Nat) : o.room size ≤ size := by
  unfold room
  split
  · exact Nat.le_refl _
  · exact Nat.min_le_left _ _

theorem room_after (o : Outgoing) (count size : Nat) :
    (o.after count).room size = o.room (size + count) - count := by
  rw [room, room, limit?_after]
  cases o.limit? with
  | none => exact (Nat.add_sub_cancel _ _).symm
  | some end_ =>
    show min size (end_.2 - (o.taken + count)) = min (size + count) (end_.2 - o.taken) - count
    omega

/-- A link that takes no more says so. -/
theorem ne_complete_of_limit? {o : Outgoing} {stop : SendOutcome} {limit : Nat}
    (h : o.limit? = some (stop, limit)) : stop ≠ .complete := by
  unfold limit? at h
  split at h <;> cases h <;> exact SendOutcome.noConfusion

theorem stop_ne_complete {o : Outgoing} {size : Nat} (h : o.room size < size) :
    o.stop ≠ .complete := by
  rw [room] at h
  rw [stop]
  cases hl : o.limit? with
  | none =>
    rw [hl] at h
    exact absurd h (Nat.lt_irrefl size)
  | some end_ => exact ne_complete_of_limit? hl

/-! ## One write -/

theorem offer_of_unlimited {o : Outgoing} (h : o.limit? = none) (size : Nat) :
    o.offer size = .took (o.piece size) := by
  unfold limit? at h
  unfold offer
  cases htrouble : o.trouble with
  | none => rfl
  | some trouble =>
    rw [htrouble] at h
    rcases trouble with ⟨_ | _ | _ | _, limit⟩
    · cases h
    · cases h
    · cases h
    · rfl

theorem offer_of_lt {o : Outgoing} {stop : SendOutcome} {limit : Nat}
    (h : o.limit? = some (stop, limit)) (hlt : o.taken < limit) (size : Nat) :
    o.offer size = .took (o.pieceBefore limit size) := by
  have hahead : ¬ limit ≤ o.taken := Nat.not_le.mpr hlt
  unfold limit? at h
  unfold offer
  split at h <;> cases h <;> simp only [*, if_false]

theorem send_of_le {o : Outgoing} {stop : SendOutcome} {limit : Nat}
    (h : o.limit? = some (stop, limit)) (hle : limit ≤ o.taken) (size : Nat) :
    o.send (size + 1) = (stop, o) := by
  have hnone : o.pieceBefore limit (size + 1) = 0 := by
    rw [pieceBefore]
    omega
  rw [send, offer]
  unfold limit? at h
  split at h <;> cases h <;> simp only [*, if_true]

theorem exists_piece_eq {o : Outgoing} (size : Nat) (h : o.pieceSize ≠ some 0) :
    ∃ count, count ≤ size ∧ o.piece (size + 1) = count + 1 := by
  unfold piece
  cases hp : o.pieceSize with
  | none => exact ⟨size, Nat.le_refl _, by simp⟩
  | some most =>
    have hmost : most ≠ 0 := fun h0 => h (by rw [hp, h0])
    refine ⟨min size (most - 1), Nat.min_le_left _ _, ?_⟩
    rw [Option.getD_some]
    omega

/-- Where the link takes more, a write takes some of it. -/
theorem exists_offer_eq {o : Outgoing} {size : Nat} (h : o.pieceSize ≠ some 0)
    (hroom : o.room (size + 1) ≠ 0) :
    ∃ count, o.offer (size + 1) = .took (count + 1) ∧ count + 1 ≤ o.room (size + 1) := by
  obtain ⟨count, hcount, hpiece⟩ := exists_piece_eq size h
  rw [room] at hroom ⊢
  cases hl : o.limit? with
  | none =>
    refine ⟨count, ?_, Nat.succ_le_succ hcount⟩
    rw [offer_of_unlimited hl, hpiece]
  | some end_ =>
    rw [hl] at hroom
    have hroom' : min (size + 1) (end_.2 - o.taken) ≠ 0 := hroom
    refine ⟨min count (end_.2 - o.taken - 1), ?_, ?_⟩
    · rw [offer_of_lt hl (by omega), pieceBefore, hpiece]
      congr 1
      omega
    · show min count (end_.2 - o.taken - 1) + 1 ≤ min (size + 1) (end_.2 - o.taken)
      omega

theorem send_of_room_eq_zero {o : Outgoing} {size : Nat} (hroom : o.room (size + 1) = 0) :
    o.send (size + 1) = (o.stop, o) := by
  rw [room] at hroom
  rw [stop]
  cases hl : o.limit? with
  | none =>
    rw [hl] at hroom
    cases hroom
  | some end_ =>
    rw [hl] at hroom
    have hroom' : min (size + 1) (end_.2 - o.taken) = 0 := hroom
    exact send_of_le hl (by omega) size

/-! ## Many writes -/

/-- **A link takes what it has room for**, in however many writes. -/
theorem send_eq {o : Outgoing} {size : Nat} (h : o.pieceSize ≠ some 0) :
    o.send size
      = (if o.room size < size then o.stop else .complete, o.after (o.room size)) := by
  induction size using Nat.strongRecOn generalizing o with
  | _ size ih =>
    cases size with
    | zero =>
      have hnone : o.room 0 = 0 := Nat.le_zero.mp (o.room_le 0)
      rw [send, hnone, if_neg (Nat.lt_irrefl 0)]
      rfl
    | succ size =>
      by_cases hroom : o.room (size + 1) = 0
      · rw [send_of_room_eq_zero hroom, hroom, if_pos (Nat.succ_pos size)]
        rfl
      · obtain ⟨count, hoffer, hcount⟩ := exists_offer_eq h hroom
        have hle := o.room_le (size + 1)
        have hsize : size - count + (count + 1) = size + 1 := by omega
        have hrest : (o.after (count + 1)).room (size - count)
            = o.room (size + 1) - (count + 1) := by rw [room_after, hsize]
        have hall : count + 1 + (o.room (size + 1) - (count + 1)) = o.room (size + 1) := by omega
        have hless : o.room (size + 1) - (count + 1) < size - count
            ↔ o.room (size + 1) < size + 1 := by omega
        have hafter : (o.after (count + 1)).pieceSize ≠ some 0 := h
        rw [send, hoffer]
        refine (ih (size - count) (by omega) hafter).trans ?_
        simp only [hrest, after_after, hall, hless]
        rfl

/-- However sending ends, the link has taken some of the bytes, and all of them if it is complete. -/
theorem exists_send_eq (o : Outgoing) (size : Nat) :
    ∃ count, count ≤ size ∧ (o.send size).2 = o.after count ∧
      ((o.send size).1 = .complete → count = size) := by
  by_cases h : o.pieceSize = some 0
  · -- Writes that take nothing get no further than the first one.
    refine ⟨0, Nat.zero_le _, ?_⟩
    cases size with
    | zero =>
      rw [send]
      exact ⟨rfl, fun _ => rfl⟩
    | succ size =>
      have hpiece : o.piece (size + 1) = 0 := by simp [piece, h]
      have hnone : ∀ limit, o.pieceBefore limit (size + 1) = 0 := by simp [pieceBefore, hpiece]
      have hstop : ∀ outcome, outcome ≠ SendOutcome.complete → o.send (size + 1) = (outcome, o) →
          (o.send (size + 1)).2 = o.after 0 ∧
            ((o.send (size + 1)).1 = .complete → 0 = size + 1) := by
        intro outcome houtcome hsend
        rw [hsend]
        exact ⟨rfl, fun hcomplete => absurd hcomplete houtcome⟩
      cases hl : o.limit? with
      | none =>
        refine hstop .refused SendOutcome.noConfusion ?_
        rw [send, offer_of_unlimited hl, hpiece]
      | some end_ =>
        by_cases hle : end_.2 ≤ o.taken
        · exact hstop end_.1 (ne_complete_of_limit? hl) (send_of_le hl hle size)
        · refine hstop .refused SendOutcome.noConfusion ?_
          rw [send, offer_of_lt hl (Nat.lt_of_not_le hle), hnone]
  · rw [send_eq h]
    refine ⟨o.room size, o.room_le size, rfl, fun hcomplete => ?_⟩
    have hle := o.room_le size
    by_cases hless : o.room size < size
    · rw [if_pos hless] at hcomplete
      exact absurd hcomplete (stop_ne_complete hless)
    · omega

/-! ## The size of writes -/

/-- The same link, but for a write that takes something: it takes all that the link takes. -/
def inOneWrite (o : Outgoing) : Outgoing :=
  { o with pieceSize := if o.pieceSize = some 0 then some 0 else none }

/-- **In how many writes bytes are taken makes no difference.** -/
theorem send_inOneWrite (o : Outgoing) (size : Nat) :
    o.inOneWrite.send size = ((o.send size).1, (o.send size).2.inOneWrite) := by
  by_cases h : o.pieceSize = some 0
  · have hsame : ∀ other : Outgoing, other.pieceSize = some 0 → other.inOneWrite = other := by
      intro other hother
      rw [inOneWrite, if_pos hother, ← hother]
    obtain ⟨count, -, hsend, -⟩ := o.exists_send_eq size
    have hsent : (o.send size).2.pieceSize = some 0 := by
      rw [hsend]
      exact h
    rw [hsame o h, hsame _ hsent]
  · have hone : o.inOneWrite.pieceSize ≠ some 0 := by
      rw [inOneWrite, if_neg h]
      exact Option.some_ne_none 0 ∘ Eq.symm
    rw [send_eq h, send_eq hone]
    rfl

theorem taken_eq_of_inOneWrite {o o' : Outgoing} (h : o'.inOneWrite = o.inOneWrite) :
    o'.taken = o.taken := by
  have htaken := congrArg Outgoing.taken h
  exact htaken

theorem canFlush_eq_of_inOneWrite {o o' : Outgoing} (h : o'.inOneWrite = o.inOneWrite) :
    o'.canFlush = o.canFlush := by
  have hflush := congrArg Outgoing.canFlush h
  exact hflush

/-! ## Links that take all -/

/-- The link takes so many bytes more before it gets into trouble, and can flush them. -/
def Takes (o : Outgoing) (size : Nat) : Prop :=
  o.pieceSize ≠ some 0 ∧
    match o.trouble with
    | none => True
    | some (.unflushable, start) => o.taken + size < start
    | some (_, limit) => o.taken + size ≤ limit

theorem Takes.mono {o : Outgoing} {size smaller : Nat} (h : o.Takes size) (hle : smaller ≤ size) :
    o.Takes smaller := by
  refine ⟨h.1, ?_⟩
  have hroom := h.2
  split at hroom
  · trivial
  · exact Nat.lt_of_le_of_lt (Nat.add_le_add_left hle _) hroom
  · exact Nat.le_trans (Nat.add_le_add_left hle _) hroom

theorem Takes.after {o : Outgoing} {first second : Nat} (h : o.Takes (first + second)) :
    (o.after first).Takes second := by
  refine ⟨h.1, ?_⟩
  have hroom := h.2
  rw [← Nat.add_assoc] at hroom
  exact hroom

theorem Takes.room_eq {o : Outgoing} {size : Nat} (h : o.Takes size) : o.room size = size := by
  obtain ⟨-, hroom⟩ := h
  rw [room]
  cases hl : o.limit? with
  | none => rfl
  | some end_ =>
    have hle : o.taken + size ≤ end_.2 := by
      unfold limit? at hl
      split at hl <;> cases hl <;> simpa only [*] using hroom
    show min size (end_.2 - o.taken) = size
    omega

/-- **What the link takes is sent whole**, in however many writes. -/
theorem send_of_takes {o : Outgoing} {size : Nat} (h : o.Takes size) :
    o.send size = (.complete, o.after size) := by
  rw [send_eq h.1, h.room_eq, if_neg (Nat.lt_irrefl size)]

theorem canFlush_after {o : Outgoing} {size : Nat} (h : o.Takes size) :
    (o.after size).canFlush = true := by
  obtain ⟨-, hroom⟩ := h
  unfold canFlush
  split
  · next start hsome =>
    have hsame : o.trouble = some (.unflushable, start) := hsome
    rw [hsame] at hroom
    exact decide_eq_true hroom
  · rfl

end Outgoing

end FlightRecorder
