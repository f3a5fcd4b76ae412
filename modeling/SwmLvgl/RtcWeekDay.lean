import Mathlib.Algebra.Ring.Nat
import SwmLvgl.CalendarDates
import SwmLvgl.RtcDriver

/-! The day of the week in the real-time clock (`drv_rtc.c`). The first of January 1901 is a Tuesday;
`calcWeekDay` counts the days from there on, in 32 bits. -/

namespace SwmLvgl.Rtc

open Calendar RegBits

theorem u32_u32_add (z k : Int) : u32 ((u32 z : Nat) + k) = u32 (z + k) := by
  unfold u32
  omega

theorem u32_add_u32 (z k : Int) : u32 (z + (u32 k : Nat)) = u32 (z + k) := by
  unfold u32
  omega

theorem u32_u32_mul (z k : Int) : u32 ((u32 z : Nat) * k) = u32 (z * k) := by
  have hcast : (u32 z : Int) = z % 2 ^ 32 := Int.toNat_of_nonneg (Int.emod_nonneg z (by decide))
  rw [hcast, u32, Int.mul_emod, Int.emod_emod, ← Int.mul_emod, u32]

theorem u32_of_range {z : Int} (h0 : 0 ≤ z) (h : z < 2 ^ 32) : (u32 z : Int) = z := by
  unfold u32
  omega

theorem daysOfMonth_succ {m : Nat} (hm : m < 12) :
    (daysOfMonth.getD (m + 1) 0 : Int) = monthLengths.getD m 0 := by
  interval_cases m <;> rfl

/-- The first loop sums the months of a common year. -/
theorem daysOfMonth_foldl {m : Nat} (hm : m < 12) :
    (List.range' 1 m).foldl (fun cnt i => u32 (cnt + daysOfMonth.getD i 0)) 0 = u32 (daysBefore m) := by
  induction m with
  | zero => rfl
  | succ m ih =>
      have hlt : m < 12 := Nat.lt_of_succ_lt hm
      rw [List.range'_1_concat, List.foldl_append, ih hlt, Nat.add_comm 1 m]
      simp only [List.foldl_cons, List.foldl_nil]
      rw [daysOfMonth_succ hlt, u32_u32_add, daysBefore_succ hlt]

/-- The second loop counts the leap years: what `n` years have beyond 365 days each. -/
theorem leap_foldl (base n : Nat) (z : Int) :
    (List.range' base n).foldl (fun cnt i => if Leap (i : Nat) then u32 (cnt + 1) else cnt) (u32 z) =
      u32 (z + (yearsLength base n - n * 365)) := by
  induction n with
  | zero => simp [yearsLength]
  | succ n ih =>
      have hstep : z + (yearsLength base (n + 1) - ((n + 1 : Nat) : Int) * 365) =
          z + (yearsLength base n - n * 365) + if Leap ((base + n : Nat) : Int) then 1 else 0 := by
        rw [yearsLength, yearLength, Nat.cast_add base n]
        split <;> omega
      rw [List.range'_1_concat, List.foldl_append, ih, hstep]
      simp only [List.foldl_cons, List.foldl_nil]
      split
      · exact u32_u32_add _ 1
      · rw [Int.add_zero]

/-- `calcWeekDay` counts the days from the first of January 1901 on, beginning with 2. -/
theorem calcWeekDay_eq {year month : Nat} (date : Nat) (hyear : 1901 ≤ year) (hpos : 1 ≤ month)
    (hle : month ≤ 12) :
    calcWeekDay year month date =
      u32 (yearsLength 1901 (year - 1901) + dayOfYear (Leap year) (month - 1) date + 2) % 7 := by
  have hmonths := @daysOfMonth_foldl (month - 1) (by omega)
  have hleap : (if Leap year ∧ 3 ≤ month then u32 (daysBefore (month - 1) + date + 1)
      else u32 (daysBefore (month - 1) + date)) = u32 (dayOfYear (Leap year) (month - 1) date + 1) := by
    have hmarch : (Leap year ∧ 3 ≤ month) ↔ (Leap year ∧ 1 < month - 1) :=
      and_congr_right fun _ => by omega
    rw [if_congr hmarch rfl rfl, dayOfYear]
    split
    · congr 1
      omega
    · congr 1
      omega
  have hyears := leap_foldl 1901 (year - 1901)
    (dayOfYear (Leap year) (month - 1) date + 1 + ((year : Int) - 1901) * 365)
  have hcast : ((year - 1901 : Nat) : Int) = (year : Int) - 1901 := by omega
  simp only [calcWeekDay, hmonths, u32_u32_add, hleap, u32_u32_mul, u32_add_u32, hyears, hcast,
    Nat.cast_ofNat]
  have hcount : dayOfYear (Leap year) (month - 1) date + 1 + ((year : Int) - 1901) * 365 +
      (yearsLength 1901 (year - 1901) - ((year : Int) - 1901) * 365) + 1 =
      yearsLength 1901 (year - 1901) + dayOfYear (Leap year) (month - 1) date + 2 := by
    omega
  rw [hcount]

/-- The count of a date is two more than its number. -/
theorem calcWeekDay_date {d : Date} (h : 1901 ≤ d.year) :
    calcWeekDay d.year d.month d.day = u32 (d.dayNumber 1901 + 2) % 7 :=
  calcWeekDay_eq d.day h d.month_pos d.month_le

theorem calcWeekDay_of_fits {d : Date} (hyear : 1901 ≤ d.year) (hcount : d.dayNumber 1901 + 2 < 2 ^ 32) :
    (calcWeekDay d.year d.month d.day : Int) = (d.dayNumber 1901 + 2) % 7 := by
  have hnonneg := d.dayNumber_nonneg 1901
  have hfit := @u32_of_range (d.dayNumber 1901 + 2) (by omega) hcount
  rw [calcWeekDay_date hyear, Int.natCast_emod, hfit]
  rfl

theorem fallsOn_iff_calcWeekDay {d : Date} (hyear : 1901 ≤ d.year) (hcount : d.dayNumber 1901 + 2 < 2 ^ 32)
    (w : Weekday) :
    FallsOn (newYear 1901) .tuesday d w ↔ calcWeekDay d.year d.month d.day = w.index := by
  have hvalue := calcWeekDay_of_fits hyear hcount
  have htuesday : Weekday.tuesday.index = 2 := rfl
  rw [fallsOn_iff hyear, htuesday]
  omega

/-- Advancing a date by a day advances the result. -/
theorem calcWeekDay_next {d : Date} (hyear : 1901 ≤ d.year) (hcount : d.next.dayNumber 1901 + 2 < 2 ^ 32) :
    calcWeekDay d.next.year d.next.month d.next.day = (calcWeekDay d.year d.month d.day + 1) % 7 := by
  have hnumber := Date.dayNumber_next hyear
  have hbefore := @calcWeekDay_of_fits d hyear (by omega)
  have hafter := calcWeekDay_of_fits (Nat.le_trans hyear d.year_le_next) hcount
  omega

/-- As long as the count fits into 32 bits, `calcWeekDay` returns the day of the week on which a date
falls, counted from Sunday. It is a Tuesday on the first of January 1901, and one later modulo 7 on the
next day. -/
theorem calcWeekDay_right (d : Date) (hyear : 1901 ≤ d.year) (hcount : d.dayNumber 1901 + 2 < 2 ^ 32) :
    (∃ w, calcWeekDay d.year d.month d.day = w.index ∧
      ∀ v, FallsOn (newYear 1901) .tuesday d v ↔ v = w) ∧
    calcWeekDay 1901 1 1 = Weekday.tuesday.index ∧
    (d.next.dayNumber 1901 + 2 < 2 ^ 32 →
      calcWeekDay d.next.year d.next.month d.next.day = (calcWeekDay d.year d.month d.day + 1) % 7) := by
  refine ⟨?_, by decide, calcWeekDay_next hyear⟩
  obtain ⟨w, hw⟩ := exists_fallsOn .tuesday hyear
  have hindex := (fallsOn_iff_calcWeekDay hyear hcount w).mp hw
  refine ⟨w, hindex, fun v => ?_⟩
  constructor
  · intro hv
    have hsame := (fallsOn_iff_calcWeekDay hyear hcount v).mp hv
    exact Weekday.index_injective (hsame.symm.trans hindex)
  · rintro rfl
    exact hw

def leapDay2000 : Date := ⟨2000, 2, 29, by decide, by decide, by decide, by decide⟩

/-- The leap day of 2000 is a Tuesday, and the day after it the first of March. -/
theorem calcWeekDay_leap_day : 1901 ≤ leapDay2000.year ∧ leapDay2000.dayNumber 1901 + 2 < 2 ^ 32 ∧
    FallsOn (newYear 1901) .tuesday leapDay2000 .tuesday ∧
    calcWeekDay 2000 3 1 = (calcWeekDay 2000 2 29 + 1) % 7 := by
  have hcount : leapDay2000.dayNumber 1901 + 2 < 2 ^ 32 := by decide +kernel
  obtain ⟨⟨w, hw, hiff⟩, -, hnext⟩ := calcWeekDay_right leapDay2000 (by decide) hcount
  have hvalue : calcWeekDay 2000 2 29 = Weekday.tuesday.index := by decide +kernel
  refine ⟨by decide, hcount, ?_, hnext (by decide +kernel)⟩
  exact (hiff .tuesday).mpr (Weekday.index_injective (hvalue.symm.trans hw))

/-! ### The clock and the time stamps -/

/-- The day of the week in `gmtime_r` is counted from a Thursday, the first of January 1970. -/
theorem gmtimeR_wday {t : Int} (h0 : 0 ≤ t) (h : t < 86400 * 2 ^ 31) :
    (gmtimeR t).wday = (4 + t / 86400) % 7 := by
  have hdiv : t.tdiv (24 * 60 * 60) = t / 86400 := Int.tdiv_eq_ediv_of_nonneg h0
  have hcast : toInt32 (t / 86400) = t / 86400 := toInt32_of_range (by omega) (by omega)
  calc (gmtimeR t).wday
      = Int.tmod (4 + toInt32 (t.tdiv (24 * 60 * 60))) 7 := rfl
    _ = Int.tmod (4 + t / 86400) 7 := by rw [hdiv, hcast]
    _ = (4 + t / 86400) % 7 := Int.tmod_eq_emod_of_nonneg (by omega)

theorem Tm.Valid.day {t : Tm} {n : Nat} (h : t.Valid n) :
    t.seconds n / 86400 = yearsLength 1970 n + dayOfYear (Leap (1970 + n)) t.mon.toNat t.mday := by
  obtain ⟨-, hsec, hmin, hhour, -, -⟩ := h
  rw [Tm.seconds]
  omega

/-- Up to the year 2100, `calcWeekDay` gives the fields of `gmtime_r` its day of the week. -/
theorem calcWeekDay_gmtimeR {t : Int} (h0 : 0 ≤ t) (h : t < 86400 * yearsLength 1970 130) :
    (calcWeekDay (u16 ((gmtimeR t).year + 1900)) (u8 ((gmtimeR t).mon + 1)) (u8 (gmtimeR t).mday) : Int) =
      (gmtimeR t).wday := by
  obtain ⟨n, hn, hvalid, hseconds⟩ := gmtimeR_spec h0 h (Nat.le_refl 130)
  have ⟨hyear, hsec, hmin, hhour, hmon, hmday⟩ := hvalid
  have hmax : yearsLength 1970 130 = 47482 := by decide +kernel
  have hbefore : yearsLength 1901 69 = 25202 := by decide +kernel
  have hyears : yearsLength 1901 (69 + n) = yearsLength 1901 69 + yearsLength 1970 n :=
    yearsLength_add 1901 69 n
  have hyear' : u16 ((gmtimeR t).year + 1900) = 1970 + n := by
    have := @u16_of_range ((gmtimeR t).year + 1900) (by omega) (by omega)
    omega
  have hmon' : u8 ((gmtimeR t).mon + 1) = (gmtimeR t).mon.toNat + 1 := by
    have := @u8_of_range ((gmtimeR t).mon + 1) (by omega) (by omega)
    omega
  have hmday' : (u8 (gmtimeR t).mday : Int) = (gmtimeR t).mday := u8_of_range (by omega) (by omega)
  have hdays : t / 86400 = yearsLength 1970 n +
      dayOfYear (Leap (1970 + n)) (gmtimeR t).mon.toNat (gmtimeR t).mday := by
    rw [← hvalid.day, hseconds]
  rw [gmtimeR_wday h0 (by omega), hdays, hyear', hmon',
    calcWeekDay_eq _ (by omega) (by omega) (by omega), hmday']
  have hindex : 1970 + n - 1901 = 69 + n := by omega
  rw [hindex, Nat.add_sub_cancel, hyears, hbefore, Nat.cast_add, Nat.cast_ofNat]
  have hday := @dayOfYear_nonneg (1970 + n) (gmtimeR t).mon.toNat (gmtimeR t).mday (by omega) hmday.1
  have hnonneg := yearsLength_mono 1970 (Nat.zero_le n)
  rw [yearsLength] at hnonneg
  have hfit := @u32_of_range (25202 + yearsLength 1970 n +
    dayOfYear (Leap (1970 + n)) (gmtimeR t).mon.toNat (gmtimeR t).mday + 2) (by omega) (by omega)
  rw [Int.natCast_emod, hfit]
  omega

/-- After a set, the day of the week that is read is the bit of the one in `gmtime_r`. -/
theorem rtcGetDateTime_day {t : Int} (r : RtcTypeDef) (h0 : 0 ≤ t) (h : t < 86400 * yearsLength 1970 130) :
    (rtcGetDateTime (swmSetRtcTimeStamp t r)).day = 1 <<< (gmtimeR t).wday.toNat := by
  have hweek := calcWeekDay_gmtimeR h0 h
  have hlt := calcWeekDay_lt (u16 ((gmtimeR t).year + 1900)) (u8 ((gmtimeR t).mon + 1)) (u8 (gmtimeR t).mday)
  have hfield := field_low (u8 ((gmtimeR t).mon + 1)) (Nat.lt_trans hlt (by decide : 7 < 2 ^ 3))
  change (_ &&& 0x07 <<< 0) >>> 0 = _ at hfield
  have hwday : (gmtimeR t).wday.toNat = calcWeekDay (u16 ((gmtimeR t).year + 1900)) (u8 ((gmtimeR t).mon + 1))
      (u8 (gmtimeR t).mday) := by
    omega
  have hbit : ∀ week < 7, u8 ((1 <<< week : Nat) : Int) = 1 <<< week := by decide
  rw [hwday, ← hbit _ hlt]
  simp only [rtcGetDateTime, swmSetRtcTimeStamp, hfield]

end SwmLvgl.Rtc
