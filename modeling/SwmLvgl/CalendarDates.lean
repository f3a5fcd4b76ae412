import SwmLvgl.Calendar

/-! Dates and days of the week. Both are advanced a day at a time, from a first of January whose day of
the week is known; the number of a date counts the days from there on. -/

namespace SwmLvgl.Calendar

/-- The number of days of a month. -/
def monthLength (y : Int) (m : Nat) : Int := monthLengths.getD m 0 + if Leap y ∧ m = 1 then 1 else 0

/-- A date; the month and the day of the month are counted from 1. -/
@[ext]
structure Date where
  year : Nat
  month : Nat
  day : Nat
  month_pos : 1 ≤ month
  month_le : month ≤ 12
  day_pos : 1 ≤ day
  day_le : (day : Int) ≤ monthLength year (month - 1)

theorem monthLength_bounds (y : Int) {m : Nat} (hm : m < 12) :
    28 ≤ monthLength y m ∧ monthLength y m ≤ 31 := by
  unfold monthLength
  interval_cases m <;> simp only [monthLengths, List.getD_cons_zero, List.getD_cons_succ] <;> split <;> omega

theorem monthLength_december (y : Int) : monthLength y 11 = 31 := by
  simp [monthLength, monthLengths]

theorem daysBefore_succ {m : Nat} (hm : m < 12) :
    daysBefore (m + 1) = daysBefore m + monthLengths.getD m 0 := by
  interval_cases m <;> decide

theorem dayOfYear_first (y : Int) : dayOfYear (Leap y) 0 1 = 0 := by
  simp [dayOfYear, daysBefore]

theorem dayOfYear_nonneg (y : Int) {m : Nat} {d : Int} (hm : m < 12) (hd : 1 ≤ d) :
    0 ≤ dayOfYear (Leap y) m d := by
  have hbounds := daysBefore_bounds hm
  unfold dayOfYear
  split <;> omega

theorem dayOfYear_add_one (y : Int) (m : Nat) (d : Int) :
    dayOfYear (Leap y) m (d + 1) = dayOfYear (Leap y) m d + 1 := by
  unfold dayOfYear
  omega

/-- The first of a month comes after the last day of the month before; the leap day moves from the
length of February into the days before March. -/
theorem dayOfYear_first_of_month (y : Int) {m : Nat} (hm : m < 12) :
    dayOfYear (Leap y) (m + 1) 1 = dayOfYear (Leap y) m (monthLength y m) + 1 := by
  have hleap : (if Leap y ∧ 1 < m + 1 then (1 : Int) else 0) =
      (if Leap y ∧ m = 1 then 1 else 0) + if Leap y ∧ 1 < m then 1 else 0 := by
    by_cases h : Leap y
    · simp only [h, true_and]
      split <;> split <;> split <;> omega
    · simp only [h, false_and, if_false]
      rfl
  unfold dayOfYear monthLength
  rw [hleap, daysBefore_succ hm]
  omega

/-- The last day of December is the last day of the year. -/
theorem dayOfYear_last (y : Int) : dayOfYear (Leap y) 11 31 + 1 = yearLength y := by
  have h334 : daysBefore 11 = 334 := by decide
  unfold dayOfYear yearLength
  rw [h334]
  by_cases h : Leap y <;> simp [h]

/-- The first of January. -/
def newYear (y : Nat) : Date where
  year := y
  month := 1
  day := 1
  month_pos := Nat.le_refl 1
  month_le := by decide
  day_pos := Nat.le_refl 1
  day_le := Int.le_trans (by decide) (monthLength_bounds y (m := 0) (by decide)).1

namespace Date

/-- The day after a date. -/
def next (d : Date) : Date :=
  if hday : (d.day : Int) < monthLength d.year (d.month - 1) then
    { d with
      day := d.day + 1
      day_pos := Nat.le_add_left 1 d.day
      day_le := by omega }
  else if hmonth : d.month < 12 then
    { year := d.year
      month := d.month + 1
      day := 1
      month_pos := Nat.le_add_left 1 d.month
      month_le := hmonth
      day_pos := Nat.le_refl 1
      day_le := Int.le_trans (by decide) (monthLength_bounds d.year (by omega)).1 }
  else newYear (d.year + 1)

/-- The number of a date, from the first of January of `base` on. -/
def dayNumber (base : Nat) (d : Date) : Int :=
  yearsLength base (d.year - base) + dayOfYear (Leap d.year) (d.month - 1) d.day

/-- Within a month the day is advanced. -/
theorem next_of_lt {d : Date} (h : (d.day : Int) < monthLength d.year (d.month - 1)) :
    d.next.year = d.year ∧ d.next.month = d.month ∧ d.next.day = d.day + 1 := by
  rw [next, dif_pos h]
  exact ⟨rfl, rfl, rfl⟩

/-- At the end of a month, but the last, the month is advanced. -/
theorem next_of_month_end {d : Date} (h : ¬(d.day : Int) < monthLength d.year (d.month - 1))
    (hmonth : d.month < 12) : d.next.year = d.year ∧ d.next.month = d.month + 1 ∧ d.next.day = 1 := by
  rw [next, dif_neg h, dif_pos hmonth]
  exact ⟨rfl, rfl, rfl⟩

/-- At the end of a year the year is advanced. -/
theorem next_of_year_end {d : Date} (h : ¬(d.day : Int) < monthLength d.year (d.month - 1))
    (hmonth : ¬d.month < 12) : d.next = newYear (d.year + 1) := by
  rw [next, dif_neg h, dif_neg hmonth]

theorem year_le_next (d : Date) : d.year ≤ d.next.year := by
  by_cases hday : (d.day : Int) < monthLength d.year (d.month - 1)
  · exact Nat.le_of_eq (next_of_lt hday).1.symm
  · by_cases hmonth : d.month < 12
    · exact Nat.le_of_eq (next_of_month_end hday hmonth).1.symm
    · rw [next_of_year_end hday hmonth]
      exact Nat.le_succ d.year

theorem dayNumber_nonneg (base : Nat) (d : Date) : 0 ≤ d.dayNumber base := by
  have hle := d.month_le
  have hpos := d.day_pos
  have hyears := yearsLength_mono base (Nat.zero_le (d.year - base))
  have hday := @dayOfYear_nonneg d.year (d.month - 1) d.day (by omega) (by omega)
  rw [dayNumber]
  exact Int.add_nonneg hyears hday

theorem dayNumber_newYear (base : Nat) : (newYear base).dayNumber base = 0 := by
  simp only [dayNumber, newYear, Nat.sub_self, yearsLength, Nat.cast_one, dayOfYear_first]
  rfl

/-- The next day has the next number, also across the ends of months and years. -/
theorem dayNumber_next {base : Nat} {d : Date} (h : base ≤ d.year) :
    d.next.dayNumber base = d.dayNumber base + 1 := by
  have hpos := d.month_pos
  have hle := d.month_le
  have hday := d.day_le
  by_cases hlt : (d.day : Int) < monthLength d.year (d.month - 1)
  · obtain ⟨h1, h2, h3⟩ := next_of_lt hlt
    simp only [dayNumber, h1, h2, h3, Nat.cast_add, Nat.cast_one, dayOfYear_add_one]
    omega
  · have hlast : (d.day : Int) = monthLength d.year (d.month - 1) := by omega
    by_cases hmonth : d.month < 12
    · obtain ⟨h1, h2, h3⟩ := next_of_month_end hlt hmonth
      have hfirst := @dayOfYear_first_of_month d.year (d.month - 1) (by omega)
      rw [Nat.sub_add_cancel hpos, ← hlast] at hfirst
      simp only [dayNumber, h1, h2, h3, Nat.add_sub_cancel, Nat.cast_one, hfirst]
      omega
    · have hdecember : d.month - 1 = 11 := by omega
      have hyear : d.year + 1 - base = (d.year - base) + 1 := by omega
      have hcast : (base : Int) + ((d.year - base : Nat) : Int) = d.year := by omega
      have hend := dayOfYear_last d.year
      rw [hdecember, monthLength_december] at hlast
      rw [next_of_year_end hlt hmonth]
      simp only [dayNumber, newYear, hyear, yearsLength, hcast, hdecember, hlast, Nat.sub_self, Nat.cast_one,
        dayOfYear_first]
      omega

/-- Every date but the first has a day before it. -/
theorem exists_next_eq {base : Nat} {d : Date} (h : base ≤ d.year) (hd : d ≠ newYear base) :
    ∃ e : Date, base ≤ e.year ∧ e.next = d := by
  have hmonth_pos := d.month_pos
  have hmonth_le := d.month_le
  have hday_pos := d.day_pos
  have hday_le := d.day_le
  by_cases hday : d.day = 1
  · by_cases hmonth : d.month = 1
    · -- the last day of the year before
      have hbase : base ≠ d.year := fun hbase => hd (Date.ext hbase.symm hmonth hday)
      have hlast := monthLength_december (d.year - 1 : Nat)
      refine ⟨⟨d.year - 1, 12, 31, by decide, by decide, by decide, by rw [hlast]; rfl⟩,
        by simp only; omega, ?_⟩
      rw [next_of_year_end (by simp only [hlast]; omega) (by simp only; omega)]
      exact Date.ext (by simp only [newYear]; omega) hmonth.symm hday.symm
    · -- the last day of the month before
      have hbounds := @monthLength_bounds d.year (d.month - 1 - 1) (by omega)
      have hlast : ((monthLength d.year (d.month - 1 - 1)).toNat : Int) =
          monthLength d.year (d.month - 1 - 1) := by
        omega
      let e : Date := ⟨d.year, d.month - 1, (monthLength d.year (d.month - 1 - 1)).toNat, by omega, by omega,
        by omega, by rw [hlast]⟩
      have hend : ¬(e.day : Int) < monthLength e.year (e.month - 1) := by
        simp only [e, hlast, lt_irrefl, not_false_eq_true]
      refine ⟨e, h, ?_⟩
      obtain ⟨h1, h2, h3⟩ := next_of_month_end hend (by simp only [e]; omega)
      exact Date.ext h1 (h2.trans (by simp only [e]; omega)) (h3.trans hday.symm)
  · refine ⟨⟨d.year, d.month, d.day - 1, hmonth_pos, hmonth_le, by omega, by omega⟩, h, ?_⟩
    obtain ⟨h1, h2, h3⟩ := next_of_lt (d := ⟨d.year, d.month, d.day - 1, _, _, _, _⟩) (by simp only; omega)
    exact Date.ext h1 h2 (h3.trans (by simp only; omega))

end Date

/-! ### Days of the week -/

inductive Weekday where
  | sunday
  | monday
  | tuesday
  | wednesday
  | thursday
  | friday
  | saturday
  deriving DecidableEq, Repr

namespace Weekday

/-- The day of the week after another one. -/
def next : Weekday → Weekday
  | sunday => monday
  | monday => tuesday
  | tuesday => wednesday
  | wednesday => thursday
  | thursday => friday
  | friday => saturday
  | saturday => sunday

/-- The days of the week counted from Sunday. -/
def index : Weekday → Nat
  | sunday => 0
  | monday => 1
  | tuesday => 2
  | wednesday => 3
  | thursday => 4
  | friday => 5
  | saturday => 6

theorem index_next (w : Weekday) : w.next.index = (w.index + 1) % 7 := by
  cases w <;> rfl

theorem index_lt (w : Weekday) : w.index < 7 := by
  cases w <;> decide

theorem index_injective {v w : Weekday} (h : v.index = w.index) : v = w := by
  cases v <;> cases w <;> first | rfl | exact absurd h (by decide)

end Weekday

/-- The days of the week on which the dates from `first` on fall, when `first` falls on `w₀`. -/
inductive FallsOn (first : Date) (w₀ : Weekday) : Date → Weekday → Prop
  | first : FallsOn first w₀ first w₀
  | next {d : Date} {w : Weekday} : FallsOn first w₀ d w → FallsOn first w₀ d.next w.next

theorem FallsOn.index_eq {base : Nat} {w₀ w : Weekday} {d : Date} (h : FallsOn (newYear base) w₀ d w) :
    base ≤ d.year ∧ (w.index : Int) = (w₀.index + d.dayNumber base) % 7 := by
  induction h with
  | first =>
      have hlt := w₀.index_lt
      rw [Date.dayNumber_newYear]
      exact ⟨Nat.le_refl base, by omega⟩
  | @next d w _ ih =>
      obtain ⟨hyear, hindex⟩ := ih
      rw [Date.dayNumber_next hyear, w.index_next]
      exact ⟨Nat.le_trans hyear d.year_le_next, by omega⟩

/-- Every date from `base` on falls on some day of the week; by induction on its number. -/
theorem exists_fallsOn {base : Nat} (w₀ : Weekday) {d : Date} (h : base ≤ d.year) :
    ∃ w, FallsOn (newYear base) w₀ d w := by
  obtain ⟨n, hn⟩ := Int.eq_ofNat_of_zero_le (d.dayNumber_nonneg base)
  induction n generalizing d with
  | zero =>
      by_cases hfirst : d = newYear base
      · exact ⟨w₀, hfirst ▸ FallsOn.first⟩
      · obtain ⟨e, he, rfl⟩ := Date.exists_next_eq h hfirst
        have hnonneg := e.dayNumber_nonneg base
        rw [Date.dayNumber_next he] at hn
        omega
  | succ n ih =>
      by_cases hfirst : d = newYear base
      · exact ⟨w₀, hfirst ▸ FallsOn.first⟩
      · obtain ⟨e, he, rfl⟩ := Date.exists_next_eq h hfirst
        rw [Date.dayNumber_next he] at hn
        obtain ⟨w, hw⟩ := ih he (by omega)
        exact ⟨w.next, hw.next⟩

/-- The day of the week of a date is found from its number. -/
theorem fallsOn_iff {base : Nat} {w₀ w : Weekday} {d : Date} (h : base ≤ d.year) :
    FallsOn (newYear base) w₀ d w ↔ (w.index : Int) = (w₀.index + d.dayNumber base) % 7 := by
  constructor
  · exact fun hw => hw.index_eq.2
  · intro hindex
    obtain ⟨v, hv⟩ := exists_fallsOn w₀ h
    have hsame : v.index = w.index := by
      have := hv.index_eq.2
      omega
    exact Weekday.index_injective hsame ▸ hv

end SwmLvgl.Calendar
