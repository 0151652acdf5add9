import FlightRecorder.Wire.Checksum
import Mathlib.Data.List.Basic
import Mathlib.Tactic.ByContra

/-!
# What the checksum tells apart

Shifting the register is linear and loses nothing: the bit that falls out comes back as the lowest
one. Two bytes that follow each other enter it as one word, sixteen shifts away from the register
behind them, so both can be told from that register. What is absorbed afterwards keeps registers
apart that were apart.

* `shiftRegister_xor`, `shiftRegister_injective` — one shift
* `absorb_absorb` — two bytes are absorbed as one word
* `absorb_absorb_inj`, `foldl_absorb_injective` — what can be told from the register
* `foldl_absorb_ne` — a burst of at most two bytes changes the register
-/

namespace FlightRecorder

/-! ## One shift -/

theorem topBit_eq (r : UInt16) : r &&& 0x8000 = if r.toBitVec.msb then 0x8000 else 0 := by
  have hbits : r.toBitVec &&& 0x8000#16 = if r.toBitVec.msb then 0x8000#16 else 0#16 :=
    BitVec.and_twoPow r.toBitVec 15
  apply UInt16.toBitVec_inj.mp
  refine hbits.trans ?_
  cases r.toBitVec.msb <;> rfl

theorem shiftRegister_eq (r : UInt16) :
    shiftRegister r = if r.toBitVec.msb then (r <<< 1) ^^^ 0x1021 else r <<< 1 := by
  rw [shiftRegister, topBit_eq]
  cases r.toBitVec.msb <;> rfl

/-- **Shifting is linear.** -/
theorem shiftRegister_xor (a b : UInt16) :
    shiftRegister (a ^^^ b) = shiftRegister a ^^^ shiftRegister b := by
  rw [shiftRegister_eq, shiftRegister_eq a, shiftRegister_eq b, UInt16.toBitVec_xor,
    BitVec.msb_xor, UInt16.shiftLeft_xor]
  have hcancel (p : UInt16) : a <<< 1 ^^^ b <<< 1 = a <<< 1 ^^^ p ^^^ (b <<< 1 ^^^ p) := by
    rw [UInt16.xor_comm (b <<< 1), ← UInt16.xor_assoc (a <<< 1 ^^^ p),
      UInt16.xor_assoc (a <<< 1), UInt16.xor_self, UInt16.xor_zero]
  cases a.toBitVec.msb <;> cases b.toBitVec.msb
  · rfl
  · exact UInt16.xor_assoc _ _ _
  · simp only [Bool.true_bne, Bool.not_false, if_true, Bool.false_eq_true, if_false]
    ac_rfl
  · exact hcancel 0x1021

theorem toNat_shiftLeft_one (r : UInt16) : (r <<< 1).toNat = 2 * r.toNat % 65536 := by
  rw [UInt16.toNat_shiftLeft]
  show r.toNat <<< 1 % 65536 = _
  rw [Nat.shiftLeft_eq, Nat.mul_comm]

/-- A register whose highest bit is clear is doubled. -/
theorem shiftRegister_of_lt {r : UInt16} (h : r.toNat < 32768) : shiftRegister r = r <<< 1 := by
  rw [shiftRegister_eq, BitVec.msb_eq_decide, if_neg]
  simpa using h

theorem eq_zero_of_shiftRegister_eq_zero {r : UInt16} (h : shiftRegister r = 0) : r = 0 := by
  have hlt : r.toNat < 65536 := r.toNat_lt
  have htwice := toNat_shiftLeft_one r
  by_cases hsmall : r.toNat < 32768
  · rw [shiftRegister_of_lt hsmall] at h
    have hzero : (r <<< 1).toNat = 0 := by rw [h]; rfl
    apply UInt16.toNat_inj.mp
    show r.toNat = 0
    omega
  · -- The polynomial is odd, and what was shifted is even.
    rw [shiftRegister_eq, BitVec.msb_eq_decide, if_pos (by simpa using hsmall),
      UInt16.xor_eq_zero_iff] at h
    have hodd : (r <<< 1).toNat = 4129 := by rw [h]; rfl
    omega

/-- **No two registers are shifted to the same one.** -/
theorem shiftRegister_injective : Function.Injective shiftRegister := by
  intro a b h
  apply UInt16.xor_eq_zero_iff.mp
  apply eq_zero_of_shiftRegister_eq_zero
  rw [shiftRegister_xor, h, UInt16.xor_self]

/-! ## Shifts in a row -/

theorem repeat_shiftRegister_xor (n : Nat) (a b : UInt16) :
    Nat.repeat shiftRegister n (a ^^^ b)
      = Nat.repeat shiftRegister n a ^^^ Nat.repeat shiftRegister n b := by
  induction n with
  | zero => rfl
  | succ n ih =>
    show shiftRegister (Nat.repeat shiftRegister n (a ^^^ b)) = _
    rw [ih, shiftRegister_xor]
    rfl

theorem repeat_shiftRegister_injective (n : Nat) :
    Function.Injective (Nat.repeat shiftRegister n) := by
  induction n with
  | zero => exact fun _ _ h => h
  | succ n ih => exact fun _ _ h => ih (shiftRegister_injective h)

theorem toNat_highHalf (byte : UInt8) : (byte.toUInt16 <<< 8).toNat = 256 * byte.toNat := by
  have hbyte : byte.toNat < 256 := byte.toNat_lt
  rw [UInt16.toNat_shiftLeft]
  show byte.toNat <<< 8 % 65536 = _
  rw [Nat.shiftLeft_eq]
  omega

/-- Eight shifts bring a byte from the low half to the high half: no bit of it falls out. -/
theorem repeat_shiftRegister_byte (byte : UInt8) :
    Nat.repeat shiftRegister 8 byte.toUInt16 = byte.toUInt16 <<< 8 := by
  have hbyte : byte.toNat < 256 := byte.toNat_lt
  have hshift : ∀ n ≤ 8,
      (Nat.repeat shiftRegister n byte.toUInt16).toNat = byte.toNat * 2 ^ n := by
    intro n hn
    induction n with
    | zero => exact (Nat.mul_one _).symm
    | succ n ih =>
      have hpow : 2 ^ n ≤ 2 ^ 7 := Nat.pow_le_pow_right (by decide) (by omega)
      have hsmall : byte.toNat * 2 ^ n < 256 * 2 ^ 7 :=
        Nat.mul_lt_mul_of_lt_of_le hbyte hpow (by decide)
      have hdouble : byte.toNat * 2 ^ (n + 1) = 2 * (byte.toNat * 2 ^ n) := by
        rw [Nat.pow_succ, ← Nat.mul_assoc, Nat.mul_comm]
      have hbefore := ih (by omega)
      show (shiftRegister (Nat.repeat shiftRegister n byte.toUInt16)).toNat = _
      rw [shiftRegister_of_lt (by omega), toNat_shiftLeft_one, hbefore, hdouble]
      omega
  apply UInt16.toNat_inj.mp
  rw [hshift 8 (Nat.le_refl 8), toNat_highHalf]
  exact Nat.mul_comm _ _

/-! ## One byte, two bytes -/

theorem absorb_injective (byte : UInt8) : Function.Injective (absorb · byte) := by
  intro a b h
  exact (UInt16.xor_left_inj _).mp (repeat_shiftRegister_injective 8 h)

/-- **Two bytes are absorbed as one word.** -/
theorem absorb_absorb (r : UInt16) (a b : UInt8) :
    absorb (absorb r a) b = Nat.repeat shiftRegister 8
      (Nat.repeat shiftRegister 8 (r ^^^ (a.toUInt16 <<< 8 ^^^ b.toUInt16))) := by
  rw [← UInt16.xor_assoc, repeat_shiftRegister_xor 8 _ b.toUInt16, repeat_shiftRegister_byte]
  rfl

theorem toUInt8_halves (high low : UInt8) :
    (high.toUInt16 <<< 8 ^^^ low.toUInt16).toUInt8 = low := by
  have hzero : (high.toUInt16 <<< 8).toUInt8 = 0 := by
    apply UInt8.toNat_inj.mp
    rw [UInt16.toNat_toUInt8, toNat_highHalf, Nat.mul_comm]
    exact Nat.mul_mod_left _ _
  rw [UInt16.toUInt8_xor, hzero, UInt8.zero_xor, UInt8.toUInt8_toUInt16]

theorem halves_inj {a b a' b' : UInt8}
    (h : a.toUInt16 <<< 8 ^^^ b.toUInt16 = a'.toUInt16 <<< 8 ^^^ b'.toUInt16) :
    a = a' ∧ b = b' := by
  have hb : b = b' := by rw [← toUInt8_halves a b, h, toUInt8_halves]
  rw [hb, UInt16.xor_left_inj] at h
  have hhigh : 256 * a.toNat = 256 * a'.toNat := by
    rw [← toNat_highHalf, ← toNat_highHalf, h]
  exact ⟨UInt8.toNat_inj.mp (by omega), hb⟩

/-- **Two bytes in a row can be told from the register behind them.** -/
theorem absorb_absorb_inj {r : UInt16} {a b a' b' : UInt8}
    (h : absorb (absorb r a) b = absorb (absorb r a') b') : a = a' ∧ b = b' := by
  rw [absorb_absorb, absorb_absorb] at h
  have hword := repeat_shiftRegister_injective 8 (repeat_shiftRegister_injective 8 h)
  exact halves_inj ((UInt16.xor_right_inj r).mp hword)

/-! ## Byte strings -/

/-- **What follows keeps registers apart.** -/
theorem foldl_absorb_injective (data : Bytes) : Function.Injective (data.foldl absorb ·) := by
  induction data with
  | nil => exact fun _ _ h => h
  | cons byte data ih => exact fun _ _ h => absorb_injective byte (ih h)

/-- Strings that differ in their first byte and at most in the next one besides. -/
theorem foldl_absorb_ne_of_head {first second : Bytes} {a a' : UInt8} (r : UInt16)
    (hlength : first.length = second.length) (hne : a ≠ a')
    (htail : ∀ j, 0 < j → first[j]? = second[j]?) :
    (a :: first).foldl absorb r ≠ (a' :: second).foldl absorb r := by
  intro h
  simp only [List.foldl_cons] at h
  match first, second, hlength with
  | [], [], _ => exact hne (absorb_absorb_inj (congrArg (absorb · 0) h)).1
  | b :: first, b' :: second, _ =>
    have hrest : first = second := List.ext_getElem? fun j => htail (j + 1) (Nat.succ_pos j)
    subst hrest
    simp only [List.foldl_cons] at h
    exact hne (absorb_absorb_inj (foldl_absorb_injective first h)).1

/-- **A burst of at most two bytes changes the register**, however much is absorbed in front of it
and behind it. -/
theorem foldl_absorb_ne {first second : Bytes} (r : UInt16) {i : Nat}
    (hlength : first.length = second.length) (hne : first ≠ second)
    (hburst : ∀ j, first[j]? ≠ second[j]? → j = i ∨ j = i + 1) :
    first.foldl absorb r ≠ second.foldl absorb r := by
  induction first generalizing second r i with
  | nil => exact absurd (List.length_eq_zero_iff.mp hlength.symm).symm hne
  | cons a first ih =>
    cases second with
    | nil => cases hlength
    | cons a' second =>
      have hlength' : first.length = second.length := Nat.succ.inj hlength
      by_cases ha : a = a'
      · subst ha
        have hne' : first ≠ second := fun h => hne (by rw [h])
        refine ih (absorb r a) hlength' hne' (i := i - 1) fun j hj => ?_
        have := hburst (j + 1) hj
        omega
      · -- The first place differs, so it is the one or the other of the two.
        refine foldl_absorb_ne_of_head r hlength' ha fun j hj => ?_
        by_contra hdiff
        have h0 := hburst 0 fun h => ha (Option.some.inj h)
        have hj' := hburst (j + 1) hdiff
        omega

end FlightRecorder
