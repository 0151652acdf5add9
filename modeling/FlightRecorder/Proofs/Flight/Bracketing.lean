import FlightRecorder.Proofs.Flight.Sum

/-!
# Sums of several times

Several times can be added in any order and with any brackets. On the way some of the sixties have
been carried and others have not, and it depends on the brackets which. But what a time stands for
is the same before and after it is carried, and of all times that stand for the same hours, minutes
and seconds only one has nothing left to carry.

* `sumOf` — what a component of several times comes to
* `ComesDown`, `ComesDown.unique` — a component and the sixties that have gone over from it
* `StandsFor` — a time is what carrying makes of so many hours, minutes and seconds
* `StandsFor.add`, `StandsFor.unique` — a sum stands for both of its terms, and no other time does
* `Bracketing` — a sum with its brackets
* `exists_sum_of_bracketings` — all bracketings of the same times have the same value
-/

namespace FlightRecorder

namespace Time

/-! ## What the components come to -/

/-- What a component of several times comes to. -/
def sumOf (component : Time → UInt32) (times : List Time) : Nat :=
  times.foldr (fun t rest => (component t).toNat + rest) 0

theorem sumOf_cons (component : Time → UInt32) (t : Time) (times : List Time) :
    sumOf component (t :: times) = (component t).toNat + sumOf component times := rfl

theorem sumOf_append (component : Time → UInt32) (times times' : List Time) :
    sumOf component (times ++ times') = sumOf component times + sumOf component times' := by
  induction times with
  | nil => exact (Nat.zero_add _).symm
  | cons t times ih => rw [List.cons_append, sumOf_cons, sumOf_cons, ih, Nat.add_assoc]

theorem sumOf_perm (component : Time → UInt32) {times times' : List Time}
    (h : times.Perm times') : sumOf component times = sumOf component times' :=
  h.foldr_eq' (fun t _ u _ rest =>
    Nat.add_left_comm (component u).toNat (component t).toNat rest) 0

/-- Each component comes to less than half of what it can hold. -/
structure Moderate (times : List Time) : Prop where
  hours : sumOf hour times < UInt32.size / 2
  minutes : sumOf minute times < UInt32.size / 2
  seconds : sumOf second times < UInt32.size / 2

theorem Moderate.of_perm {times times' : List Time} (h : Moderate times)
    (hperm : times'.Perm times) : Moderate times' where
  hours := sumOf_perm hour hperm ▸ h.hours
  minutes := sumOf_perm minute hperm ▸ h.minutes
  seconds := sumOf_perm second hperm ▸ h.seconds

theorem Moderate.left {times times' : List Time} (h : Moderate (times ++ times')) :
    Moderate times where
  hours := Nat.lt_of_le_of_lt (by rw [sumOf_append]; omega) h.hours
  minutes := Nat.lt_of_le_of_lt (by rw [sumOf_append]; omega) h.minutes
  seconds := Nat.lt_of_le_of_lt (by rw [sumOf_append]; omega) h.seconds

theorem Moderate.right {times times' : List Time} (h : Moderate (times ++ times')) :
    Moderate times' :=
  (h.of_perm List.perm_append_comm).left

/-! ## What a component comes from -/

/-- A sum is brought down to `left` when so many sixties go over to the next component, and none go
over where nothing is left. -/
structure ComesDown (sum left sixties : Nat) : Prop where
  sum_eq : sum = left + 60 * sixties
  sixties_eq_zero : left = 0 → sixties = 0

namespace ComesDown

variable {sum left sixties : Nat}

theorem refl (sum : Nat) : ComesDown sum sum 0 := ⟨rfl, fun _ => rfl⟩

theorem add {sum' left' sixties' : Nat} (h : ComesDown sum left sixties)
    (h' : ComesDown sum' left' sixties') :
    ComesDown (sum + sum') (left + left') (sixties + sixties') where
  sum_eq := by
    have hsum := h.sum_eq
    have hsum' := h'.sum_eq
    omega
  sixties_eq_zero hzero := by
    obtain ⟨hleft, hleft'⟩ := Nat.add_eq_zero_iff.mp hzero
    rw [h.sixties_eq_zero hleft, h'.sixties_eq_zero hleft']

/-- What is carried from what is left goes over as well. -/
theorem carry (h : ComesDown sum left sixties) :
    ComesDown sum (kept left) (sixties + carried left) where
  sum_eq := by
    have hsum := h.sum_eq
    have hkept := kept_add_carried left
    omega
  sixties_eq_zero hzero := by
    have hleft : left = 0 := by
      unfold kept at hzero
      split at hzero <;> omega
    have hkept := kept_add_carried left
    rw [h.sixties_eq_zero hleft]
    omega

/-- **A sum comes down to sixty and less in one way.** -/
theorem unique {left' sixties' : Nat} (h : ComesDown sum left sixties)
    (h' : ComesDown sum left' sixties') (hle : left ≤ 60) (hle' : left' ≤ 60) :
    left = left' ∧ sixties = sixties' := by
  obtain ⟨hsum, hzero⟩ := h
  obtain ⟨hsum', hzero'⟩ := h'
  omega

theorem stays (h : ComesDown sum left sixties) (hle : left ≤ 60) :
    Stays sum left ∧ sixties = (sum - left) / 60 := by
  obtain ⟨hsum, hzero⟩ := h
  unfold Stays
  omega

end ComesDown

/-! ## What a time stands for -/

/-- A time is what is left of so many hours, minutes and seconds when some sixties have gone over to
the minutes and some to the hours. -/
def StandsFor (t : Time) (hours minutes seconds : Nat) : Prop :=
  ∃ toMinutes toHours, ComesDown seconds t.second.toNat toMinutes ∧
    ComesDown (minutes + toMinutes) t.minute.toNat toHours ∧ hours + toHours = t.hour.toNat

theorem standsFor_self (t : Time) :
    t.StandsFor t.hour.toNat t.minute.toNat t.second.toNat :=
  ⟨0, 0, .refl _, .refl _, rfl⟩

/-- **A sum stands for what both of its terms stand for**, as long as no component gets full. -/
theorem StandsFor.add {a b : Time} {hours minutes seconds hours' minutes' seconds' : Nat}
    (ha : a.StandsFor hours minutes seconds) (hb : b.StandsFor hours' minutes' seconds')
    (hhours : hours + hours' < UInt32.size / 2) (hminutes : minutes + minutes' < UInt32.size / 2)
    (hseconds : seconds + seconds' < UInt32.size / 2) :
    (a + b).StandsFor (hours + hours') (minutes + minutes') (seconds + seconds') := by
  obtain ⟨toMinutes, toHours, hs, hm, hh⟩ := ha
  obtain ⟨toMinutes', toHours', hs', hm', hh'⟩ := hb
  have hsize : UInt32.size = 4294967296 := rfl
  rw [hsize] at hhours hminutes hseconds
  obtain ⟨hsecond, hminute, hhour, -, -⟩ := toNat_add a b
  have hdown := (hs.add hs').carry
  have hsum := (hs.add hs').sum_eq
  -- Nothing reaches the ceiling: the seconds first, then the minutes, then the hours.
  have hS : min (a.second.toNat + b.second.toNat) (UInt32.size - 1)
      = a.second.toNat + b.second.toNat := by omega
  rw [hS] at hsecond hminute hhour
  rw [← hsecond] at hdown
  generalize carried (a.second.toNat + b.second.toNat) = sixties at hdown hminute hhour
  have hover := hdown.sum_eq
  have hsum' := (hm.add hm').sum_eq
  have hM : min (min (a.minute.toNat + b.minute.toNat) (UInt32.size - 1) + sixties)
        (UInt32.size - 1)
      = a.minute.toNat + b.minute.toNat + sixties := by omega
  rw [hM] at hminute hhour
  have hdown' := ((hm.add hm').add (.refl sixties)).carry
  rw [← hminute, Nat.add_zero] at hdown'
  have hover' := hdown'.sum_eq
  have hminutesSum : minutes + toMinutes + (minutes' + toMinutes') + sixties
      = minutes + minutes' + (toMinutes + toMinutes' + sixties) := by omega
  rw [hminutesSum] at hdown'
  refine ⟨toMinutes + toMinutes' + sixties, _, hdown, hdown', ?_⟩
  omega

/-- **There is one time that stands for given amounts and has nothing left to carry.** -/
theorem StandsFor.unique {t u : Time} {hours minutes seconds : Nat}
    (ht : t.StandsFor hours minutes seconds) (hu : u.StandsFor hours minutes seconds)
    (hsecond : t.second.toNat ≤ 60) (hminute : t.minute.toNat ≤ 60)
    (hsecond' : u.second.toNat ≤ 60) (hminute' : u.minute.toNat ≤ 60) : t = u := by
  obtain ⟨toMinutes, toHours, hs, hm, hh⟩ := ht
  obtain ⟨toMinutes', toHours', hs', hm', hh'⟩ := hu
  obtain ⟨hseconds, rfl⟩ := hs.unique hs' hsecond hsecond'
  obtain ⟨hminutes, rfl⟩ := hm.unique hm' hminute hminute'
  have hhours : t.hour.toNat = u.hour.toNat := hh.symm.trans hh'
  cases t
  cases u
  rw [Time.mk.injEq]
  exact ⟨UInt32.toNat_inj.mp hhours, UInt32.toNat_inj.mp hminutes, UInt32.toNat_inj.mp hseconds⟩

/-- What stays of the seconds and minutes of a time with nothing left to carry, and what it comes to
as a whole. -/
theorem StandsFor.stays {t : Time} {hours minutes seconds : Nat}
    (h : t.StandsFor hours minutes seconds) (hsecond : t.second.toNat ≤ 60)
    (hminute : t.minute.toNat ≤ 60) :
    Stays seconds t.second.toNat ∧
      Stays (minutes + (seconds - t.second.toNat) / 60) t.minute.toNat ∧
      t.total = 3600 * hours + 60 * minutes + seconds := by
  obtain ⟨toMinutes, toHours, hs, hm, hh⟩ := h
  obtain ⟨hstays, hover⟩ := hs.stays hsecond
  have hstays' := (hm.stays hminute).1
  rw [← hover]
  refine ⟨hstays, hstays', ?_⟩
  have hsum := hs.sum_eq
  have hsum' := hm.sum_eq
  unfold total
  omega

theorem toNat_add_le_sixty (a b : Time) :
    (a + b).second.toNat ≤ 60 ∧ (a + b).minute.toNat ≤ 60 := by
  obtain ⟨hsecond, hminute, -⟩ := toNat_add a b
  rw [hsecond, hminute]
  exact ⟨kept_le _, kept_le _⟩

/-! ## Brackets -/

/-- A sum of times with all its brackets. -/
inductive Bracketing
  | single (t : Time)
  | sum (left right : Bracketing)

namespace Bracketing

/-- The times that are added, from left to right. -/
def times : Bracketing → List Time
  | single t => [t]
  | sum left right => left.times ++ right.times

/-- What the additions come to, those in inner brackets first. -/
def value : Bracketing → Time
  | single t => t
  | sum left right => left.value + right.value

/-- The brackets of times that are added one after the other. -/
def inOrder (first : Time) (rest : List Time) : Bracketing :=
  rest.foldl (fun b t => .sum b (.single t)) (.single first)

theorem foldl_sum (b : Bracketing) (rest : List Time) :
    (rest.foldl (fun b t => .sum b (.single t)) b).times = b.times ++ rest ∧
      (rest.foldl (fun b t => .sum b (.single t)) b).value = rest.foldl (· + ·) b.value := by
  induction rest generalizing b with
  | nil => exact ⟨(List.append_nil _).symm, rfl⟩
  | cons t rest ih =>
    obtain ⟨htimes, hvalue⟩ := ih (.sum b (.single t))
    exact ⟨htimes.trans (List.append_assoc _ _ _), hvalue⟩

theorem times_inOrder (first : Time) (rest : List Time) :
    (inOrder first rest).times = first :: rest := (foldl_sum (.single first) rest).1

theorem value_inOrder (first : Time) (rest : List Time) :
    (inOrder first rest).value = rest.foldl (· + ·) first := (foldl_sum (.single first) rest).2

/-- **What is added up stands for what all terms come to**, whatever the brackets. -/
theorem standsFor_value {b : Bracketing} (h : Moderate b.times) :
    b.value.StandsFor (sumOf hour b.times) (sumOf minute b.times) (sumOf second b.times) := by
  induction b with
  | single t => exact standsFor_self t
  | sum left right ihl ihr =>
    have hleft : Moderate left.times := h.left
    have hright : Moderate right.times := h.right
    obtain ⟨hhours, hminutes, hseconds⟩ := h
    rw [times] at hhours hminutes hseconds ⊢
    rw [sumOf_append] at hhours hminutes hseconds
    rw [sumOf_append, sumOf_append, sumOf_append]
    exact (ihl hleft).add (ihr hright) hhours hminutes hseconds

/-- Where something was added nothing is left to carry. -/
theorem value_le_sixty {b : Bracketing} (h : 2 ≤ b.times.length) :
    b.value.second.toNat ≤ 60 ∧ b.value.minute.toNat ≤ 60 := by
  cases b with
  | single t => exact absurd h (Nat.not_succ_le_self 1)
  | sum left right => exact toNat_add_le_sixty left.value right.value

/-- **The value depends on the times only**, not on their order or the brackets. -/
theorem value_eq_of_perm {b b' : Bracketing} (h : b.times.Perm b'.times)
    (hlength : 2 ≤ b.times.length) (hmoderate : Moderate b.times) : b.value = b'.value := by
  have hvalue := standsFor_value hmoderate
  have hvalue' := standsFor_value (hmoderate.of_perm h.symm)
  rw [← sumOf_perm hour h, ← sumOf_perm minute h, ← sumOf_perm second h] at hvalue'
  obtain ⟨hsecond, hminute⟩ := value_le_sixty hlength
  obtain ⟨hsecond', hminute'⟩ := value_le_sixty (h.length_eq ▸ hlength)
  exact hvalue.unique hvalue' hsecond hminute hsecond' hminute'

end Bracketing

/--
**Times have one sum, in whatever order and with whatever brackets they are added.**

The times need not have carried anything yet, and each partial sum keeps up to sixty seconds and
minutes where it could have none. There are at least two of them, and no component comes to half of
what it can hold. Then the sum has what stays of all seconds, and of all minutes with the sixties of
the seconds, and comes to as much as the times together.
-/
theorem exists_sum_of_bracketings {times : List Time} (hlength : 2 ≤ times.length)
    (hmoderate : Moderate times) :
    ∃ sum : Time,
      (∀ b : Bracketing, b.times.Perm times → b.value = sum) ∧
      (∀ first rest, (first :: rest).Perm times → rest.foldl (· + ·) first = sum) ∧
      Stays (sumOf second times) sum.second.toNat ∧
      Stays (sumOf minute times + (sumOf second times - sum.second.toNat) / 60)
        sum.minute.toNat ∧
      sum.total = 3600 * sumOf hour times + 60 * sumOf minute times + sumOf second times := by
  obtain ⟨first, rest, rfl⟩ := List.exists_cons_of_length_pos (Nat.zero_lt_of_lt hlength)
  have htimes := Bracketing.times_inOrder first rest
  have hall : ∀ b : Bracketing, b.times.Perm (first :: rest) →
      b.value = (Bracketing.inOrder first rest).value := by
    intro b hperm
    have hperm' : (Bracketing.inOrder first rest).times.Perm b.times := by
      rw [htimes]
      exact hperm.symm
    refine (Bracketing.value_eq_of_perm hperm' ?_ ?_).symm
    · rw [htimes]
      exact hlength
    · rw [htimes]
      exact hmoderate
  obtain ⟨hsecond, hminute⟩ :=
    Bracketing.value_le_sixty (b := .inOrder first rest) (htimes ▸ hlength)
  have hstands := Bracketing.standsFor_value (b := .inOrder first rest) (htimes ▸ hmoderate)
  rw [htimes] at hstands
  refine ⟨(Bracketing.inOrder first rest).value, hall, fun first' rest' hperm => ?_,
    hstands.stays hsecond hminute⟩
  rw [← Bracketing.value_inOrder]
  refine hall _ ?_
  rw [Bracketing.times_inOrder]
  exact hperm

/-- Two half hours carry nothing when they are added first, and something when a time with sixty
seconds comes between them. -/
theorem exists_sum_of_half_hours :
    let half : Time := { hour := 0, minute := 30, second := 30 }
    let late : Time := { hour := 5, minute := 0, second := 60 }
    let halvesFirst := Bracketing.sum (.sum (.single half) (.single half)) (.single late)
    let lateBetween := Bracketing.sum (.single half) (.sum (.single late) (.single half))
    2 ≤ [half, half, late].length ∧ Moderate [half, half, late] ∧
      (halvesFirst.times.Perm [half, half, late] ∧ lateBetween.times.Perm [half, half, late]) ∧
      half + half = { hour := 0, minute := 60, second := 60 } ∧
      halvesFirst.value = { hour := 6, minute := 1, second := 60 } ∧
      lateBetween.value = halvesFirst.value := by
  intro half late halvesFirst lateBetween
  have hmoderate : Moderate [half, half, late] := ⟨by decide, by decide, by decide⟩
  have hfirst : halvesFirst.times.Perm [half, half, late] := List.Perm.refl _
  have hbetween : lateBetween.times.Perm [half, half, late] :=
    (List.Perm.swap half late []).cons half
  obtain ⟨sum, hall, -⟩ := exists_sum_of_bracketings (by decide) hmoderate
  exact ⟨by decide, hmoderate, ⟨hfirst, hbetween⟩, by decide +kernel, by decide +kernel,
    (hall lateBetween hbetween).trans (hall halvesFirst hfirst).symm⟩

end Time

end FlightRecorder
