import Mathlib.Tactic.IntervalCases
import Mathlib.Tactic.Common

/-! The Gregorian calendar by counting days: leap years, the days before a year and before a month.
Years are integers, months and days of a year are counted from 0. -/

namespace SwmLvgl.Calendar

/-- A leap year. -/
def Leap (y : Int) : Prop := y % 4 = 0 ∧ (y % 100 ≠ 0 ∨ y % 400 = 0)

instance (y : Int) : Decidable (Leap y) := inferInstanceAs (Decidable (_ ∧ _))

/-- The number of days of a year. -/
def yearLength (y : Int) : Int := if Leap y then 366 else 365

/-- The number of days of `n` years from `base` on. -/
def yearsLength (base : Int) : Nat → Int
  | 0 => 0
  | n + 1 => yearsLength base n + yearLength (base + n)

theorem yearLength_cases (y : Int) : yearLength y = 365 ∨ yearLength y = 366 := by
  unfold yearLength
  split <;> simp

theorem yearLength_pos (y : Int) : 0 < yearLength y := by
  rcases yearLength_cases y with h | h <;> omega

theorem yearsLength_mono (base : Int) {m n : Nat} (h : m ≤ n) : yearsLength base m ≤ yearsLength base n := by
  induction n with
  | zero =>
      rw [Nat.le_zero.mp h]
  | succ n ih =>
      rcases Nat.lt_or_ge n m with hlt | hge
      · rw [Nat.le_antisymm h hlt]
      · have := yearLength_pos (base + n)
        rw [yearsLength]
        have := ih hge
        omega

/-- The first year taken off. -/
theorem yearsLength_cons (base : Int) (n : Nat) :
    yearsLength base (n + 1) = yearLength base + yearsLength (base + 1) n := by
  induction n with
  | zero => simp [yearsLength]
  | succ n ih =>
      have hcast : base + ((n + 1 : Nat) : Int) = base + 1 + n := by omega
      rw [yearsLength, ih, yearsLength, hcast]
      omega

theorem yearsLength_add (base : Int) (m n : Nat) :
    yearsLength base (m + n) = yearsLength base m + yearsLength (base + m) n := by
  induction n with
  | zero => rw [Nat.add_zero, yearsLength, Int.add_zero]
  | succ n ih =>
      have hcast : base + ((m + n : Nat) : Int) = base + m + n := by omega
      rw [← Nat.add_assoc, yearsLength, ih, hcast, yearsLength]
      omega

/-- A day lies in the years before `n` only if its year does. -/
theorem lt_of_day_lt {base : Int} {m n : Nat} {d : Int} (hd : 0 ≤ d)
    (h : yearsLength base m + d < yearsLength base n) : m < n := by
  by_contra hge
  have := yearsLength_mono base (not_lt.mp hge)
  omega

/-- As long as every fourth year is a leap year, the leap years are counted by a division. -/
theorem yearsLength_eq {base : Int} {n : Nat} (hbase : base % 4 = 2)
    (hreg : ∀ k < n, (Leap (base + k) ↔ (base + k) % 4 = 0)) :
    yearsLength base n = 365 * n + (n + 1) / 4 := by
  induction n with
  | zero => rfl
  | succ n ih =>
      have hlast := hreg n (Nat.lt_succ_self n)
      rw [yearsLength, ih fun k hk => hreg k (hk.trans (Nat.lt_succ_self n)), yearLength]
      by_cases hleap : Leap (base + n)
      · have := hlast.mp hleap
        rw [if_pos hleap]
        omega
      · have := mt hlast.mpr hleap
        rw [if_neg hleap]
        omega

/-- Between two centuries every fourth year is a leap year. -/
theorem leap_iff_of_range {y : Int} (h1 : 1900 < y) (h2 : y < 2100) : Leap y ↔ y % 4 = 0 := by
  unfold Leap
  constructor
  · exact fun h => h.1
  · intro h
    refine ⟨h, ?_⟩
    omega

/-- The lengths of the months of a common year. -/
def monthLengths : List Int := [31, 28, 31, 30, 31, 30, 31, 31, 30, 31, 30, 31]

/-- The days before a month of a common year. -/
def daysBefore (m : Nat) : Int := (monthLengths.take m).sum

/-- A month has 28 to 31 days, and February ends the first 59 days. -/
theorem daysBefore_bounds {m : Nat} (hm : m < 12) :
    daysBefore m + 28 ≤ daysBefore (m + 1) ∧ daysBefore (m + 1) ≤ daysBefore m + 31 ∧
      (m = 0 → daysBefore m = 0 ∧ daysBefore (m + 1) = 31) ∧
      (m = 1 → daysBefore m = 31 ∧ daysBefore (m + 1) = 59) ∧ (1 < m → 59 ≤ daysBefore m) := by
  interval_cases m <;> decide

/-- The number of a day in its year. -/
def dayOfYear (leap : Prop) [Decidable leap] (m : Nat) (d : Int) : Int :=
  daysBefore m + d - 1 + if leap ∧ 1 < m then 1 else 0

end SwmLvgl.Calendar
