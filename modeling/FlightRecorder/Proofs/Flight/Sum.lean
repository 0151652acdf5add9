import FlightRecorder.Flight.Time
import Mathlib.Logic.Function.Iterate

/-!
# Sums of times

A component carries sixty after sixty, in one round each, until no more than sixty are left. What
stays after all rounds, and how many there are, follows from the sum that they begin with.

* `carryOnce`, `EndsAfter` — one round, and how many there are
* `kept`, `carried` — what stays of a sum, and how many sixties go over
* `endsAfter_carried`, `carry_eq_iterate` — carrying ends, after so many rounds
* `toNat_carry` — both components afterwards
* `add_components` — the components of a sum of times
-/

namespace FlightRecorder

namespace Time

/-! ## Components as numbers -/

theorem sixty_lt_iff {n : UInt32} : 60 < n ↔ 60 < n.toNat := UInt32.lt_iff_toNat_lt

theorem le_sixty_iff {n : UInt32} : n ≤ 60 ↔ n.toNat ≤ 60 := UInt32.le_iff_toNat_le

theorem toNat_sub_sixty {n : UInt32} (h : 60 ≤ n.toNat) : (n - 60).toNat = n.toNat - 60 :=
  UInt32.toNat_sub_of_le n 60 (UInt32.le_iff_toNat_le.mpr h)

theorem toNat_cappedSum (a b : UInt32) :
    (cappedSum a b).toNat = min (a.toNat + b.toNat) (UInt32.size - 1) := by
  have ha : a.toNat < 4294967296 := a.toNat_lt_size
  have hb : b.toNat < 4294967296 := b.toNat_lt_size
  have hsum : (a + b).toNat = (a.toNat + b.toNat) % 4294967296 := UInt32.toNat_add a b
  have hceiling : ceiling.toNat = 4294967295 := rfl
  show _ = min _ 4294967295
  unfold cappedSum
  -- A sum that does not fit comes out smaller than what was added to.
  split
  · next hwraps =>
    rw [UInt32.lt_iff_toNat_lt, hsum] at hwraps
    omega
  · next hfits =>
    rw [UInt32.lt_iff_toNat_lt, hsum] at hfits
    omega

/-! ## Rounds -/

/-- One round of carrying. -/
def carryOnce (units : UInt32 × UInt32) : UInt32 × UInt32 := (units.1 - 60, cappedSum units.2 1)

/-- Carrying takes this many rounds: there is more than sixty before each of them, and no more than
sixty behind the last one. -/
structure EndsAfter (rounds : Nat) (units : UInt32 × UInt32) : Prop where
  goesOn : ∀ i < rounds, 60 < (carryOnce^[i] units).1
  ends : (carryOnce^[rounds] units).1 ≤ 60

/-- **Carrying is as many rounds as it takes.** -/
theorem carry_eq_iterate {rounds : Nat} {units : UInt32 × UInt32} (h : EndsAfter rounds units) :
    carry units.1 units.2 = carryOnce^[rounds] units := by
  induction rounds generalizing units with
  | zero =>
    have hends : units.1 ≤ 60 := h.ends
    rw [carry, if_neg (UInt32.not_lt.mpr hends)]
    rfl
  | succ rounds ih =>
    have hmore : 60 < units.1 := h.goesOn 0 (by omega)
    have hrest : EndsAfter rounds (carryOnce units) :=
      { goesOn := fun i hi => h.goesOn (i + 1) (by omega)
        ends := h.ends }
    rw [carry, if_pos hmore]
    exact ih hrest

/-- So many rounds take away so many sixties, as long as there are any. -/
theorem toNat_iterate_carryOnce (rounds : Nat) (units : UInt32 × UInt32)
    (h : 60 * rounds ≤ units.1.toNat) :
    (carryOnce^[rounds] units).1.toNat = units.1.toNat - 60 * rounds ∧
      (carryOnce^[rounds] units).2.toNat = min (units.2.toNat + rounds) (UInt32.size - 1) := by
  induction rounds with
  | zero =>
    have hbound := units.2.toNat_lt_size
    exact ⟨rfl, by simp only [Function.iterate_zero, id_eq]; omega⟩
  | succ rounds ih =>
    obtain ⟨hsmall, hlarge⟩ := ih (by omega)
    have hone : (1 : UInt32).toNat = 1 := rfl
    rw [Function.iterate_succ_apply', carryOnce]
    constructor
    · rw [toNat_sub_sixty (by omega), hsmall]
      omega
    · rw [toNat_cappedSum, hlarge, hone]
      omega

/-! ## What stays and what goes over -/

/-- What stays in a component of sixty: the sum itself up to 60, and above that the number from 1
to 60 with the same remainder. -/
def kept (sum : Nat) : Nat := if sum ≤ 60 then sum else (sum - 1) % 60 + 1

/-- How many sixties go over to the next component. -/
def carried (sum : Nat) : Nat := (sum - kept sum) / 60

theorem kept_le (sum : Nat) : kept sum ≤ 60 := by
  unfold kept
  split <;> omega

/-- What stays and what goes over make up the sum. -/
theorem kept_add_carried (sum : Nat) : kept sum + 60 * carried sum = sum := by
  unfold carried kept
  split <;> omega

/-- **Carrying ends** when all that goes over has gone over. -/
theorem endsAfter_carried (units : UInt32 × UInt32) :
    EndsAfter (carried units.1.toNat) units where
  goesOn i hi := by
    have hsum := kept_add_carried units.1.toNat
    have hleft := (toNat_iterate_carryOnce i units (by omega)).1
    -- There are rounds only above sixty, and there something stays.
    have hkept : 0 < kept units.1.toNat := by
      unfold kept
      split <;> omega
    rw [sixty_lt_iff, hleft]
    omega
  ends := by
    have hsum := kept_add_carried units.1.toNat
    have hleft := (toNat_iterate_carryOnce (carried units.1.toNat) units (by omega)).1
    have hkept := kept_le units.1.toNat
    rw [le_sixty_iff, hleft]
    omega

/-- What carrying makes of two components. -/
theorem toNat_carry (small large : UInt32) :
    (carry small large).1.toNat = kept small.toNat ∧
      (carry small large).2.toNat = min (large.toNat + carried small.toNat) (UInt32.size - 1) := by
  have hsum := kept_add_carried small.toNat
  have hrounds : carry small large = carryOnce^[carried small.toNat] (small, large) :=
    carry_eq_iterate (endsAfter_carried (small, large))
  have hboth := toNat_iterate_carryOnce (carried small.toNat) (small, large)
    (by dsimp only; omega)
  rw [hrounds, hboth.1, hboth.2]
  exact ⟨by dsimp only; omega, rfl⟩

/-! ## Sums of times -/

/-- What is to stay of a sum in a component of sixty. -/
def Stays (sum rest : Nat) : Prop :=
  (sum ≤ 60 ∧ rest = sum) ∨ (60 < sum ∧ 1 ≤ rest ∧ rest ≤ 60 ∧ rest % 60 = sum % 60)

theorem stays_kept (sum : Nat) : Stays sum (kept sum) := by
  unfold Stays kept
  by_cases h : sum ≤ 60
  · rw [if_pos h]
    exact .inl ⟨h, rfl⟩
  · rw [if_neg h]
    exact .inr (by omega)

/-- All of a time in seconds. -/
def total (t : Time) : Nat := 3600 * t.hour.toNat + 60 * t.minute.toNat + t.second.toNat

/-- The components of a sum, and how many rounds lead to them. -/
theorem toNat_add (a b : Time) :
    let top := UInt32.size - 1
    let S := min (a.second.toNat + b.second.toNat) top
    let M := min (min (a.minute.toNat + b.minute.toNat) top + carried S) top
    let seconds := (cappedSum a.second b.second, cappedSum a.minute b.minute)
    (a + b).second.toNat = kept S ∧ (a + b).minute.toNat = kept M ∧
      (a + b).hour.toNat = min (min (a.hour.toNat + b.hour.toNat) top + carried M) top ∧
      EndsAfter (carried S) seconds ∧
      EndsAfter (carried M) ((carryOnce^[carried S] seconds).2, cappedSum a.hour b.hour) := by
  intro top S M seconds
  have hS : seconds.1.toNat = S := toNat_cappedSum a.second b.second
  have hends : EndsAfter (carried S) seconds := hS ▸ endsAfter_carried seconds
  have hseconds := toNat_carry seconds.1 seconds.2
  have hM : (carry seconds.1 seconds.2).2.toNat = M := by
    rw [hseconds.2, hS, toNat_cappedSum]
  have hminutes := toNat_carry (carry seconds.1 seconds.2).2 (cappedSum a.hour b.hour)
  rw [hM, toNat_cappedSum] at hminutes
  refine ⟨?_, hminutes.1, hminutes.2, hends, ?_⟩
  · rw [← hS]
    exact hseconds.1
  · rw [← carry_eq_iterate hends, ← hM]
    exact endsAfter_carried (_, cappedSum a.hour b.hour)

/-- A sum is what the rounds leave, first those of the seconds and then those of the minutes. -/
theorem add_eq_iterate (a b : Time) {rounds rounds' : Nat}
    (h : EndsAfter rounds (cappedSum a.second b.second, cappedSum a.minute b.minute))
    (h' : EndsAfter rounds' ((carryOnce^[rounds]
      (cappedSum a.second b.second, cappedSum a.minute b.minute)).2, cappedSum a.hour b.hour)) :
    let seconds := carryOnce^[rounds] (cappedSum a.second b.second, cappedSum a.minute b.minute)
    let minutes := carryOnce^[rounds'] (seconds.2, cappedSum a.hour b.hour)
    a + b = { hour := minutes.2, minute := minutes.1, second := seconds.1 } := by
  intro seconds minutes
  have hseconds : carry (cappedSum a.second b.second) (cappedSum a.minute b.minute) = seconds :=
    carry_eq_iterate h
  have hminutes : carry seconds.2 (cappedSum a.hour b.hour) = minutes := carry_eq_iterate h'
  show add a b = _
  simp only [add, hseconds, hminutes]

/--
**The sum of two times, component by component.**

`S` and `M` are what the seconds and minutes come to, at most the largest number that a component
holds. Of each of them there stays what `Stays` says, never more than sixty, and the sixties that
are left out, `c` and `c'`, go over one by one: carrying ends after that many rounds, and the sum is
what they leave. Where no sum is too large for its component, the whole is the sum of the parts.
-/
theorem add_components (a b : Time) :
    let top := UInt32.size - 1
    let S := min (a.second.toNat + b.second.toNat) top
    let c := (S - (a + b).second.toNat) / 60
    let M := min (min (a.minute.toNat + b.minute.toNat) top + c) top
    let c' := (M - (a + b).minute.toNat) / 60
    let seconds := (cappedSum a.second b.second, cappedSum a.minute b.minute)
    let minutes := ((carryOnce^[c] seconds).2, cappedSum a.hour b.hour)
    Stays S (a + b).second.toNat ∧ (a + b).second.toNat ≤ 60 ∧
    Stays M (a + b).minute.toNat ∧ (a + b).minute.toNat ≤ 60 ∧
    (a + b).hour.toNat = min (min (a.hour.toNat + b.hour.toNat) top + c') top ∧
    (EndsAfter c seconds ∧ EndsAfter c' minutes ∧
      a + b = { hour := (carryOnce^[c'] minutes).2, minute := (carryOnce^[c'] minutes).1,
                second := (carryOnce^[c] seconds).1 }) ∧
    (a.second.toNat + b.second.toNat ≤ top → a.minute.toNat + b.minute.toNat + c ≤ top →
      a.hour.toNat + b.hour.toNat + c' ≤ top → (a + b).total = a.total + b.total) := by
  intro top S c M c' seconds minutes
  obtain ⟨hsecond, hminute, hhour, hends, hends'⟩ := toNat_add a b
  change _ = kept S at hsecond
  have hc : carried S = c := by
    show (S - kept S) / 60 = (S - (a + b).second.toNat) / 60
    rw [hsecond]
  rw [hc] at hminute hhour hends hends'
  change _ = kept M at hminute
  have hc' : carried M = c' := by
    show (M - kept M) / 60 = (M - (a + b).minute.toNat) / 60
    rw [hminute]
  rw [hc'] at hhour hends'
  refine ⟨hsecond ▸ stays_kept S, hsecond ▸ kept_le S, hminute ▸ stays_kept M,
    hminute ▸ kept_le M, hhour, ⟨hends, hends', add_eq_iterate a b hends hends'⟩,
    fun hfitS hfitM hfitH => ?_⟩
  have hsumS := kept_add_carried S
  have hsumM := kept_add_carried M
  have hSeq : S = a.second.toNat + b.second.toNat := Nat.min_eq_left hfitS
  have hMeq : M = a.minute.toNat + b.minute.toNat + c := by
    show min (min _ _ + c) _ = _
    omega
  unfold total
  omega

/-- Three minutes of seconds leave sixty of them where they are, two hours of minutes and one more
leave one. -/
theorem add_components_of_fitting_sums :
    let a : Time := { hour := 1, minute := 59, second := 30 }
    let b : Time := { hour := 2, minute := 60, second := 150 }
    a + b = { hour := 5, minute := 1, second := 60 } ∧
      (a.second.toNat + b.second.toNat ≤ UInt32.size - 1 ∧
        a.minute.toNat + b.minute.toNat + 2 ≤ UInt32.size - 1 ∧
        a.hour.toNat + b.hour.toNat + 2 ≤ UInt32.size - 1) ∧
      (a + b).total = a.total + b.total := by
  obtain ⟨-, -, -, -, -, -, htotal⟩ :=
    add_components { hour := 1, minute := 59, second := 30 }
      { hour := 2, minute := 60, second := 150 }
  exact ⟨by decide +kernel, by decide, htotal (by decide) (by decide +kernel) (by decide +kernel)⟩

/-- An hour that cannot grow any more loses what is carried into it. -/
example :
    ({ hour := 0xFFFFFFFF, minute := 30, second := 61 } : Time)
        + { hour := 0, minute := 31, second := 0 }
      = { hour := 0xFFFFFFFF, minute := 2, second := 1 } := by decide +kernel

end Time

end FlightRecorder
