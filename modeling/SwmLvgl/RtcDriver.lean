import Mathlib.Algebra.Ring.Nat
import SwmLvgl.RegBits
import SwmLvgl.RtcTime

/-! The real-time clock (`drv_rtc.c`). Setting takes a time stamp apart in universal time and packs the
fields into the registers; getting unpacks them and takes them for local time. The clock does not
advance between the two, and the registers return what was loaded last. -/

namespace SwmLvgl.Rtc

open Calendar RegBits

/-- A conversion to `uint8_t`. -/
def u8 (z : Int) : Nat := (z % 2 ^ 8).toNat

/-- A conversion to `uint16_t`. -/
def u16 (z : Int) : Nat := (z % 2 ^ 16).toNat

/-- A conversion to `uint32_t`. -/
def u32 (z : Int) : Nat := (z % 2 ^ 32).toNat

/-- The registers of `RTC_TypeDef` that the driver uses. -/
structure RtcTypeDef where
  minsec : Nat
  dathur : Nat
  monday : Nat
  year : Nat
  load : Nat
  en : Nat
  deriving DecidableEq, Repr

/-- `RTC_DateTime` -/
structure RtcDateTime where
  year : Nat
  month : Nat
  date : Nat
  day : Nat
  hour : Nat
  minute : Nat
  second : Nat
  deriving DecidableEq, Repr

/-- `daysOfMonth` -/
def daysOfMonth : List Nat := [0, 31, 28, 31, 30, 31, 30, 31, 31, 30, 31, 30, 31]

/-- `calcWeekDay` -/
def calcWeekDay (year month date : Nat) : Nat :=
  let cnt := (List.range' 1 (month - 1)).foldl (fun cnt i => u32 (cnt + daysOfMonth.getD i 0)) 0
  let cnt := u32 (cnt + date)
  let cnt := if Leap year ∧ 3 ≤ month then u32 (cnt + 1) else cnt
  let cnt := u32 (cnt + u32 (u32 ((year : Int) - 1901) * 365))
  let cnt := (List.range' 1901 (year - 1901)).foldl
    (fun cnt i => if Leap (i : Nat) then u32 (cnt + 1) else cnt) cnt
  u32 (cnt + 1) % 7

/-- `swm_set_rtc_time_stamp` -/
def swmSetRtcTimeStamp (timeStamp : Int) (r : RtcTypeDef) : RtcTypeDef :=
  let now := gmtimeR timeStamp
  let second := u8 now.sec
  let minute := u8 now.min
  let hour := u8 now.hour
  let date := u8 now.mday
  let month := u8 (now.mon + 1)
  let year := u16 (now.year + 1900)
  { r with
    minsec := second <<< 0 ||| minute <<< 6
    dathur := hour <<< 0 ||| date <<< 5
    monday := calcWeekDay year month date <<< 0 ||| month <<< 3
    year := year
    load := 1 <<< 0
    en := 1 }

/-- `RTC_GetDateTime` -/
def rtcGetDateTime (r : RtcTypeDef) : RtcDateTime where
  year := u16 r.year
  month := u8 ((r.monday &&& 0x0F <<< 3) >>> 3 : Nat)
  date := u8 ((r.dathur &&& 0x1F <<< 5) >>> 5 : Nat)
  day := u8 (1 <<< ((r.monday &&& 0x07 <<< 0) >>> 0) : Nat)
  hour := u8 ((r.dathur &&& 0x1F <<< 0) >>> 0 : Nat)
  minute := u8 ((r.minsec &&& 0x3F <<< 6) >>> 6 : Nat)
  second := u8 ((r.minsec &&& 0x3F <<< 0) >>> 0 : Nat)

/-- `swm_get_rtc_time_stamp`; the fields that are not set here are not read by `mktime`. -/
def swmGetRtcTimeStamp (tz : Int) (r : RtcTypeDef) : Except CtimeFault Int :=
  let dt := rtcGetDateTime r
  mktime tz
    { sec := dt.second
      min := dt.minute
      hour := dt.hour
      mday := dt.date
      mon := (dt.month : Int) - 1
      year := (dt.year : Int) - 1900
      wday := 0
      yday := 0
      isdst := 0 }

/-- `swm_rtc_set_secs`, with `RT_EOK` -/
def swmRtcSetSecs (t : Int) (r : RtcTypeDef) : Int × RtcTypeDef := (0, swmSetRtcTimeStamp t r)

/-- `swm_rtc_get_secs` -/
def swmRtcGetSecs (tz : Int) (r : RtcTypeDef) : Except CtimeFault Int := swmGetRtcTimeStamp tz r

theorem u8_of_range {z : Int} (h0 : 0 ≤ z) (h : z < 2 ^ 8) : (u8 z : Int) = z := by
  unfold u8
  omega

theorem u16_of_range {z : Int} (h0 : 0 ≤ z) (h : z < 2 ^ 16) : (u16 z : Int) = z := by
  unfold u16
  omega

theorem u8_natCast {n : Nat} (h : n < 2 ^ 8) : u8 n = n := by
  unfold u8
  omega

theorem u16_natCast {n : Nat} (h : n < 2 ^ 16) : u16 n = n := by
  unfold u16
  omega

theorem calcWeekDay_lt (year month date : Nat) : calcWeekDay year month date < 7 :=
  Nat.mod_lt _ (by decide)

/-- Fields that fit are read back as they were packed. -/
theorem rtcGetDateTime_pack {year month date week hour minute second load en : Nat} (hyear : year < 2 ^ 16)
    (hmonth : month < 2 ^ 4) (hdate : date < 2 ^ 5) (hweek : week < 2 ^ 3) (hhour : hour < 2 ^ 5)
    (hminute : minute < 2 ^ 6) (hsecond : second < 2 ^ 6) :
    rtcGetDateTime ⟨second <<< 0 ||| minute <<< 6, hour <<< 0 ||| date <<< 5, week <<< 0 ||| month <<< 3,
      year, load, en⟩ =
      { year := year
        month := month
        date := date
        day := u8 (1 <<< week : Nat)
        hour := hour
        minute := minute
        second := second } := by
  have h1 := field_high hweek hmonth
  have h2 := field_high hhour hdate
  have h3 := field_low month hweek
  have h4 := field_low date hhour
  have h5 := field_high hsecond hminute
  have h6 := field_low minute hsecond
  change (_ &&& 0x0F <<< 3) >>> 3 = _ at h1
  change (_ &&& 0x1F <<< 5) >>> 5 = _ at h2
  change (_ &&& 0x07 <<< 0) >>> 0 = _ at h3
  change (_ &&& 0x1F <<< 0) >>> 0 = _ at h4
  change (_ &&& 0x3F <<< 6) >>> 6 = _ at h5
  change (_ &&& 0x3F <<< 0) >>> 0 = _ at h6
  simp only [rtcGetDateTime, h1, h2, h3, h4, h5, h6]
  rw [u8_natCast (hmonth.trans (by decide)), u8_natCast (hdate.trans (by decide)),
    u8_natCast (hhour.trans (by decide)), u8_natCast (hminute.trans (by decide)),
    u8_natCast (hsecond.trans (by decide)), u16_natCast hyear]

/-- Getting after setting gives the time stamp less the offset of the timezone. -/
theorem get_set {t : Int} (tz : Int) (r : RtcTypeDef) (h0 : 0 ≤ t)
    (h : t < 86400 * yearsLength 1970 68) :
    swmRtcGetSecs tz (swmRtcSetSecs t r).2 = .ok (t - tz) := by
  obtain ⟨n, hn, hvalid, hseconds⟩ := gmtimeR_spec h0 h (by decide)
  have ⟨hyear, hsec, hmin, hhour, hmon, hmday⟩ := hvalid
  have hsec' := u8_of_range hsec.1 (by omega)
  have hmin' := u8_of_range hmin.1 (by omega)
  have hhour' := u8_of_range hhour.1 (by omega)
  have hmday' := u8_of_range (le_trans (by decide) hmday.1) (by omega)
  have hmon' := @u8_of_range ((gmtimeR t).mon + 1) (by omega) (by omega)
  have hyear' := @u16_of_range ((gmtimeR t).year + 1900) (by omega) (by omega)
  have hweek := calcWeekDay_lt (u16 ((gmtimeR t).year + 1900)) (u8 ((gmtimeR t).mon + 1))
    (u8 (gmtimeR t).mday)
  have hget := @rtcGetDateTime_pack _ _ _ _ _ _ _ (1 <<< 0) 1
    (show u16 ((gmtimeR t).year + 1900) < 2 ^ 16 by omega)
    (show u8 ((gmtimeR t).mon + 1) < 2 ^ 4 by omega) (show u8 (gmtimeR t).mday < 2 ^ 5 by omega)
    (hweek.trans (by decide)) (show u8 (gmtimeR t).hour < 2 ^ 5 by omega)
    (show u8 (gmtimeR t).min < 2 ^ 6 by omega) (show u8 (gmtimeR t).sec < 2 ^ 6 by omega)
  simp only [swmRtcGetSecs, swmRtcSetSecs, swmGetRtcTimeStamp, swmSetRtcTimeStamp, hget, mktime, hsec',
    hmin', hhour', hmday', hmon', hyear']
  have hback : Tm.Valid
      { sec := (gmtimeR t).sec
        min := (gmtimeR t).min
        hour := (gmtimeR t).hour
        mday := (gmtimeR t).mday
        mon := (gmtimeR t).mon + 1 - 1
        year := (gmtimeR t).year + 1900 - 1900
        wday := 0
        yday := 0
        isdst := 0 } n := by
    refine ⟨?_, hsec, hmin, hhour, ?_, hmday⟩ <;> simp only <;> omega
  rw [timegm_spec hback (by omega)]
  simp only [Tm.seconds, Int.add_sub_cancel] at hseconds ⊢
  rw [hseconds]
  rfl

/-- For a date in the years 1970 to 2037, getting after setting gives the same time stamp if and only if
the timezone has no offset. -/
theorem rtc_round_trip_iff {t : Int} (tz : Int) (r : RtcTypeDef) (h0 : 0 ≤ t)
    (h : t < 86400 * yearsLength 1970 68) :
    swmRtcGetSecs tz (swmRtcSetSecs t r).2 = .ok t ↔ tz = 0 := by
  rw [get_set tz r h0 h, Except.ok.injEq]
  omega

theorem yearsLength_68 : yearsLength 1970 68 = 24837 := by decide +kernel

def rtcRegs : RtcTypeDef := ⟨0, 0, 0, 0, 0, 0⟩

/-- The leap day of 2000, at noon. -/
theorem rtc_round_trip_leap_day : 0 ≤ (951825600 : Int) ∧ (951825600 : Int) < 86400 * yearsLength 1970 68 ∧
    (swmRtcGetSecs 0 (swmRtcSetSecs 951825600 rtcRegs).2 = .ok 951825600 ↔ (0 : Int) = 0) :=
  ⟨by decide, by rw [yearsLength_68]; decide,
    rtc_round_trip_iff 0 rtcRegs (by decide) (by rw [yearsLength_68]; decide)⟩

/-- With the default offset of eight hours, setting 0 reads back as eight hours earlier. -/
theorem rtc_default_offset : swmRtcGetSecs 28800 (swmRtcSetSecs 0 rtcRegs).2 = .ok (-28800) ∧
    swmRtcGetSecs 28800 (swmRtcSetSecs 0 rtcRegs).2 ≠ .ok 0 := by
  rw [get_set 28800 rtcRegs (by decide) (by rw [yearsLength_68]; decide)]
  decide

end SwmLvgl.Rtc
