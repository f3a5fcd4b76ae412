import SwmLvgl.Calendar

/-! Time stamps and calendar fields (`ctime.c`). `gmtime_r` takes a time stamp apart in universal time;
`timegm` puts the fields together again, and `mktime` takes them for local time. `time_t` has 64 bits;
a division rounds towards zero, as in C. -/

namespace SwmLvgl.Rtc

open Calendar

/-- `struct tm` -/
structure Tm where
  sec : Int
  min : Int
  hour : Int
  mday : Int
  mon : Int
  year : Int
  wday : Int
  yday : Int
  isdst : Int
  deriving DecidableEq, Repr

/-- An access outside `__spm`. -/
inductive CtimeFault where
  | spm (index : Int)
  deriving DecidableEq, Repr

/-- A conversion to `int`. -/
def toInt32 (z : Int) : Int := Int.bmod z (2 ^ 32)

/-- `__spm` -/
def spm : List Int := [0, 31, 59, 90, 120, 151, 181, 212, 243, 273, 304, 334, 365]

/-- `__spm[i]` -/
def spmAt (i : Int) : Except CtimeFault Int :=
  if 0 ≤ i then
    match spm[i.toNat]? with
    | some d => .ok d
    | none => .error (.spm i)
  else .error (.spm i)

/-- The first loop of `gmtime_r`, from the year `i` on with `work` days left. -/
def yearLoop (i work : Int) : Int × Int :=
  if yearLength i ≤ work then yearLoop (i + 1) (work - yearLength i) else (i, work)
termination_by work.toNat
decreasing_by
  have := yearLength_pos i
  omega

/-- The second loop of `gmtime_r`, from `i` down. -/
def monthLoop (work : Int) : Nat → Nat
  | 0 => 0
  | i + 1 => if work < spm.getD (i + 1) 0 then monthLoop work i else i + 1

/-- `gmtime_r` -/
def gmtimeR (t : Int) : Tm :=
  let work := Int.tmod t (24 * 60 * 60)
  let sec := Int.tmod work 60
  let work := Int.tdiv work 60
  let min := Int.tmod work 60
  let hour := Int.tdiv work 60
  let work := toInt32 (Int.tdiv t (24 * 60 * 60))
  let wday := Int.tmod (4 + work) 7
  let (i, work) := yearLoop 1970 work
  let yday := work
  let (mday, work) : Int × Int :=
    if Leap i ∧ 58 < work then (if work = 59 then 2 else 1, work - 1) else (1, work)
  let mon := monthLoop work 11
  { sec := sec
    min := min
    hour := hour
    mday := mday + (work - spm.getD mon 0)
    mon := mon
    year := i - 1900
    wday := wday
    yday := yday
    isdst := 0 }

/-- The carries of `timegm` from seconds up to years. -/
def carries (t : Tm) : Tm :=
  let t := if 60 < t.sec then { t with min := t.min + t.sec.tdiv 60, sec := t.sec.tmod 60 } else t
  let t := if 60 ≤ t.min then { t with hour := t.hour + t.min.tdiv 60, min := t.min.tmod 60 } else t
  let t := if 24 ≤ t.hour then { t with mday := t.mday + t.hour.tdiv 24, hour := t.hour.tmod 24 } else t
  if 12 ≤ t.mon then { t with year := t.year + t.mon.tdiv 12, mon := t.mon.tmod 12 } else t

/-- What the loop of `timegm` does in a pass: days of the month are carried to the next month. -/
def carryMonth (t : Tm) : Tm :=
  let mday := if t.mon = 1 ∧ Leap (t.year + 1900) then t.mday - 1 else t.mday
  let mday := mday - spm.getD t.mon.toNat 0
  if 11 < t.mon + 1 then { t with mday := mday, mon := 0, year := t.year + 1 }
  else { t with mday := mday, mon := t.mon + 1 }

/-- What shrinks in a pass; in January no days are carried. -/
def carryMeasure (t : Tm) : Nat := 2 * t.mday.toNat + if t.mon = 0 then 1 else 0

theorem carryMeasure_lt {t : Tm} (h0 : 0 ≤ t.mon) (h12 : t.mon < 12)
    (h : spm.getD (1 + t.mon).toNat 0 < t.mday) : carryMeasure (carryMonth t) < carryMeasure t := by
  obtain ⟨sec, min, hour, mday, mon, year, wday, yday, isdst⟩ := t
  simp only at h0 h12 h
  unfold carryMeasure carryMonth
  interval_cases mon <;> simp [spm] at h ⊢ <;> (try split) <;> omega

/-- The loop of `timegm` over the months. -/
def monthCarries (t : Tm) : Except CtimeFault Tm :=
  if h0 : 0 ≤ t.mon then
    if h12 : t.mon < 12 then
      if _h : spm.getD (1 + t.mon).toNat 0 < t.mday then monthCarries (carryMonth t) else .ok t
    else .error (.spm (1 + t.mon))
  else if t.mon = -1 ∧ t.mday ≤ 0 then .ok t
  else if t.mon = -1 then .error (.spm t.mon)
  else .error (.spm (1 + t.mon))
termination_by carryMeasure t
decreasing_by exact carryMeasure_lt h0 h12 ‹_›

/-- The days before a year in `timegm`, `years` after 1970. -/
def daysOfYears (years : Int) : Int :=
  let day := years * 365 + (years + 1).tdiv 4
  if 131 ≤ years then
    let years := (years - 131).tdiv 100
    let day := day - (years / 4 * 3 + 1)
    let years := years % 4
    let years := if years = 3 then years - 1 else years
    day - years
  else day

/-- `timegm`; the number of years is taken before the carries. -/
def timegm (t : Tm) : Except CtimeFault Int := do
  let years := t.year - 70
  let t ← monthCarries (carries t)
  if t.year < 70 then return -1
  let start ← spmAt t.mon
  let yday := start + t.mday - 1 + if Leap (t.year + 1900) ∧ 1 < t.mon then 1 else 0
  let day := daysOfYears years + yday
  return ((day * 24 + t.hour) * 60 + t.min) * 60 + t.sec

/-- `mktime`; `tz` is `_current_tz_offset_sec`. -/
def mktime (tz : Int) (t : Tm) : Except CtimeFault Int := do
  let timestamp ← timegm t
  return timestamp - tz

/-- The fields are those of a time of day on a day `n` years after 1970. -/
structure Tm.Valid (t : Tm) (n : Nat) : Prop where
  year : t.year = 70 + n
  sec : 0 ≤ t.sec ∧ t.sec < 60
  min : 0 ≤ t.min ∧ t.min < 60
  hour : 0 ≤ t.hour ∧ t.hour < 24
  mon : 0 ≤ t.mon ∧ t.mon < 12
  mday : 1 ≤ t.mday ∧ t.mday ≤ 31

/-- The seconds since 1970 in universal time. -/
def Tm.seconds (t : Tm) (n : Nat) : Int :=
  (((yearsLength 1970 n + dayOfYear (Leap (1970 + n)) t.mon.toNat t.mday) * 24 + t.hour) * 60 + t.min) *
    60 + t.sec

theorem spm_eq {m : Nat} (hm : m < 13) : spm.getD m 0 = daysBefore m := by
  interval_cases m <;> rfl

/-- The first loop finds the year and the day in it. -/
theorem yearLoop_spec (i work : Int) (h : 0 ≤ work) :
    ∃ n : Nat, ∃ yday, yearLoop i work = (i + n, yday) ∧ work = yearsLength i n + yday ∧
      0 ≤ yday ∧ yday < yearLength (i + n) := by
  induction i, work using yearLoop.induct with
  | case1 i work hle ih =>
      obtain ⟨n, yday, hloop, hwork, h0, hlt⟩ := ih (by omega)
      refine ⟨n + 1, yday, ?_, ?_, h0, ?_⟩
      · rw [yearLoop, if_pos hle, hloop]
        simp only [Prod.mk.injEq, and_true]
        omega
      · rw [yearsLength_cons]
        omega
      · have hcast : i + ((n + 1 : Nat) : Int) = i + 1 + n := by omega
        rw [hcast]
        exact hlt
  | case2 i work hle =>
      refine ⟨0, work, ?_, ?_, h, ?_⟩
      · rw [yearLoop, if_neg hle]
        simp
      · simp [yearsLength]
      · simpa using hle

/-- The second loop finds the month. -/
theorem monthLoop_spec {work : Int} (h : 0 ≤ work) {i : Nat} (hi : i < 12)
    (hlt : work < daysBefore (i + 1)) :
    monthLoop work i ≤ i ∧ daysBefore (monthLoop work i) ≤ work ∧
      work < daysBefore (monthLoop work i + 1) := by
  induction i with
  | zero => exact ⟨le_rfl, h, hlt⟩
  | succ i ih =>
      rw [monthLoop, spm_eq (by omega)]
      split
      · obtain ⟨h1, h2, h3⟩ := ih (by omega) ‹_›
        exact ⟨h1.trans (Nat.le_succ i), h2, h3⟩
      · exact ⟨le_rfl, not_lt.mp ‹_›, hlt⟩

/-- How `gmtime_r` counts the days of a leap year as those of a common one: the leap day counts as the
28th of February, and the days behind it one less. -/
theorem commonDay_cases {y yday : Int} (h0 : 0 ≤ yday) (hlt : yday < yearLength y) :
    let p : Int × Int :=
      if Leap y ∧ 58 < yday then (if yday = 59 then 2 else 1, yday - 1) else (1, yday)
    0 ≤ p.2 ∧ p.2 < daysBefore 12 ∧
      ((Leap y ∧ yday = 59 ∧ p = (2, 58)) ∨ (Leap y ∧ 59 < yday ∧ p = (1, yday - 1)) ∨
        ((Leap y → yday ≤ 58) ∧ p = (1, yday))) := by
  intro p
  have h365 : daysBefore 12 = 365 := by decide
  unfold yearLength at hlt
  by_cases hleap : Leap y
  · rw [if_pos hleap] at hlt
    rcases lt_trichotomy yday 59 with h | h | h
    · have hpe : p = (1, yday) := if_neg (by omega)
      exact ⟨by rw [hpe]; exact h0, by rw [hpe]; simp only; omega, Or.inr (Or.inr ⟨by omega, hpe⟩)⟩
    · have hpe : p = (2, 58) := by
        simp only [p, if_pos (show Leap y ∧ 58 < yday from ⟨hleap, by omega⟩), h]
        rfl
      exact ⟨by rw [hpe]; decide, by rw [hpe]; decide, Or.inl ⟨hleap, h, hpe⟩⟩
    · have hpe : p = (1, yday - 1) := by
        simp only [p, if_pos (show Leap y ∧ 58 < yday from ⟨hleap, by omega⟩), if_neg (show yday ≠ 59 by omega)]
      exact ⟨by rw [hpe]; simp only; omega, by rw [hpe]; simp only; omega,
        Or.inr (Or.inl ⟨hleap, h, hpe⟩)⟩
  · rw [if_neg hleap] at hlt
    have hpe : p = (1, yday) := if_neg fun h => hleap h.1
    exact ⟨by rw [hpe]; exact h0, by rw [hpe]; simp only; omega,
      Or.inr (Or.inr ⟨fun h => absurd h hleap, hpe⟩)⟩

/-- The month and the day of the month are those of the day of the year. -/
theorem monthDay_spec {y yday : Int} (h0 : 0 ≤ yday) (hlt : yday < yearLength y) :
    let p : Int × Int :=
      if Leap y ∧ 58 < yday then (if yday = 59 then 2 else 1, yday - 1) else (1, yday)
    let m := monthLoop p.2 11
    m < 12 ∧ 1 ≤ p.1 + (p.2 - spm.getD m 0) ∧ p.1 + (p.2 - spm.getD m 0) ≤ 31 ∧
      dayOfYear (Leap y) m (p.1 + (p.2 - spm.getD m 0)) = yday := by
  intro p m
  have hp : 0 ≤ p.2 ∧ p.2 < daysBefore 12 ∧
      ((Leap y ∧ yday = 59 ∧ p = (2, 58)) ∨ (Leap y ∧ 59 < yday ∧ p = (1, yday - 1)) ∨
        ((Leap y → yday ≤ 58) ∧ p = (1, yday))) := commonDay_cases h0 hlt
  obtain ⟨hp0, hp1, hcases⟩ := hp
  obtain ⟨hm, hle, hgt⟩ := monthLoop_spec hp0 (by decide : 11 < 12) hp1
  change m ≤ 11 at hm
  change daysBefore m ≤ p.2 at hle
  change p.2 < daysBefore (m + 1) at hgt
  rw [spm_eq (by omega : m < 13)]
  have hbounds := daysBefore_bounds (by omega : m < 12)
  refine ⟨by omega, ?_⟩
  unfold dayOfYear
  rcases hcases with ⟨hleap, h, hpe⟩ | ⟨hleap, h, hpe⟩ | ⟨h, hpe⟩
  · rw [hpe] at hle hgt ⊢
    simp only [hleap, true_and] at hle hgt ⊢
    split <;> omega
  · rw [hpe] at hle hgt ⊢
    simp only [hleap, true_and] at hle hgt ⊢
    split <;> omega
  · rw [hpe] at hle hgt ⊢
    simp only at hle hgt ⊢
    split
    · rename_i hif
      have := h hif.1
      omega
    · omega

theorem toInt32_of_range {z : Int} (h0 : 0 ≤ z) (h : z < 2 ^ 31) : toInt32 z = z := by
  rw [toInt32, Int.bmod_def]
  omega

/-- A time stamp is taken apart into valid fields that stand for it. -/
theorem gmtimeR_spec {t : Int} {years : Nat} (h0 : 0 ≤ t) (h : t < 86400 * yearsLength 1970 years)
    (hyears : years ≤ 130) :
    ∃ n < years, (gmtimeR t).Valid n ∧ (gmtimeR t).seconds n = t := by
  have hdays : t / 86400 < yearsLength 1970 years := by omega
  have hsmall : yearsLength 1970 years ≤ 47847 := by
    have := yearsLength_mono 1970 hyears
    have hmax : yearsLength 1970 130 = 47482 := by decide +kernel
    omega
  have hcast : toInt32 (t / 86400) = t / 86400 := toInt32_of_range (by omega) (by omega)
  obtain ⟨n, yday, hloop, hwork, hy0, hylt⟩ := yearLoop_spec 1970 (t / 86400) (by omega)
  obtain ⟨hm, hday0, hday31, hdoy⟩ := monthDay_spec hy0 hylt
  refine ⟨n, @lt_of_day_lt 1970 n years yday hy0 (by omega), ?_⟩
  have htm : gmtimeR t =
      (let p : Int × Int :=
        if Leap (1970 + n) ∧ 58 < yday then (if yday = 59 then 2 else 1, yday - 1) else (1, yday)
      let m := monthLoop p.2 11
      { sec := t % 86400 % 60
        min := t % 86400 / 60 % 60
        hour := t % 86400 / 60 / 60
        mday := p.1 + (p.2 - spm.getD m 0)
        mon := m
        year := 1970 + n - 1900
        wday := Int.tmod (4 + t / 86400) 7
        yday := yday
        isdst := 0 }) := by
    have h1 : t.tmod (24 * 60 * 60) = t % 86400 := Int.tmod_eq_emod_of_nonneg h0
    have h2 : t.tdiv (24 * 60 * 60) = t / 86400 := Int.tdiv_eq_ediv_of_nonneg h0
    have h3 : (t % 86400).tmod 60 = t % 86400 % 60 := Int.tmod_eq_emod_of_nonneg (by omega)
    have h4 : (t % 86400).tdiv 60 = t % 86400 / 60 := Int.tdiv_eq_ediv_of_nonneg (by omega)
    have h5 : (t % 86400 / 60).tmod 60 = t % 86400 / 60 % 60 := Int.tmod_eq_emod_of_nonneg (by omega)
    have h6 : (t % 86400 / 60).tdiv 60 = t % 86400 / 60 / 60 := Int.tdiv_eq_ediv_of_nonneg (by omega)
    simp only [gmtimeR, h1, h2, h3, h4, h5, h6, hcast, hloop]
  simp only at htm
  rw [htm]
  constructor
  · refine ⟨?_, ⟨?_, ?_⟩, ⟨?_, ?_⟩, ⟨?_, ?_⟩, ⟨?_, ?_⟩, hday0, hday31⟩ <;> simp only <;> omega
  · simp only [Tm.seconds, Int.toNat_natCast, hdoy]
    omega

/-- Valid fields are put together again, up to the year 2100. -/
theorem timegm_spec {t : Tm} {n : Nat} (h : t.Valid n) (hn : n ≤ 130) : timegm t = .ok (t.seconds n) := by
  obtain ⟨hyear, hsec, hmin, hhour, hmon, hmday⟩ := h
  have hcarries : carries t = t := by
    simp only [carries, if_neg (show ¬60 < t.sec by omega), if_neg (show ¬60 ≤ t.min by omega),
      if_neg (show ¬24 ≤ t.hour by omega), if_neg (show ¬12 ≤ t.mon by omega)]
  have hbounds := daysBefore_bounds (show t.mon.toNat < 12 by omega)
  have hnat : (1 + t.mon).toNat = t.mon.toNat + 1 := by omega
  have hmonths : monthCarries t = .ok t := by
    rw [monthCarries, dif_pos hmon.1, dif_pos hmon.2, dif_neg]
    rw [hnat, spm_eq (by omega)]
    omega
  have hstart : spmAt t.mon = .ok (daysBefore t.mon.toNat) := by
    have hlt : t.mon.toNat < spm.length := by
      change t.mon.toNat < 13
      omega
    have hget : spm[t.mon.toNat]? = some (daysBefore t.mon.toNat) := by
      rw [← spm_eq (by omega : t.mon.toNat < 13), List.getD_eq_getElem?_getD, List.getElem?_eq_getElem hlt]
      rfl
    simp only [spmAt, if_pos hmon.1, hget]
  have hyears : daysOfYears (t.year - 70) = yearsLength 1970 n := by
    have hreg : ∀ k < n, (Leap (1970 + k) ↔ (1970 + (k : Int)) % 4 = 0) := fun k hk =>
      leap_iff_of_range (by omega) (by omega)
    have htdiv : ((n : Int) + 1).tdiv 4 = (n + 1) / 4 := Int.tdiv_eq_ediv_of_nonneg (by omega)
    rw [yearsLength_eq (by decide) hreg, hyear, show 70 + (n : Int) - 70 = n by omega]
    simp only [daysOfYears, htdiv, if_neg (show ¬131 ≤ (n : Int) by omega)]
    omega
  have hleap : (Leap (t.year + 1900) ∧ 1 < t.mon) ↔ (Leap (1970 + n) ∧ 1 < t.mon.toNat) := by
    rw [hyear, show 70 + (n : Int) + 1900 = 1970 + n by omega]
    refine and_congr_right fun _ => ?_
    omega
  simp only [timegm, hcarries, hmonths, hstart, hyears, hleap, bind, Except.bind, pure, Except.pure,
    if_neg (show ¬t.year < 70 by omega)]
  rfl

end SwmLvgl.Rtc
