import Mathlib.Algebra.Order.Field.Rat
import Mathlib.Data.Nat.Log
import Mathlib.Tactic.Positivity
import Mathlib.Tactic.Ring
import SwmLvgl.RegBits

/-! The clock of the SD card (`swm_sdio_set_iocfg`). The driver divides the source by the requested
rate, rounds down, and takes the smallest power of two from there on; rounding down loses the remainder,
which matters when the quotient is a power of two itself. Clock rates are in hertz. -/

namespace SwmLvgl.Sdio

open RegBits

/-- The parts of the host and of `SYS` that choose the clock. -/
structure RtMmcsdHost where
  freqMax : Nat
  clksel : BitVec 32
  systemCoreClock : Nat
  deriving DecidableEq, Repr

/-- The part of `struct rt_mmcsd_io_cfg` that the driver uses. -/
structure RtMmcsdIoCfg where
  clock : Nat
  busWidth : BitVec 8
  powerMode : BitVec 8
  deriving DecidableEq, Repr

/-- The control registers of `SDIO_TypeDef`. -/
structure ControlRegs where
  cr1 : BitVec 32
  cr2 : BitVec 32
  deriving DecidableEq, Repr

inductive IocfgFault where
  | divideByZero
  deriving DecidableEq, Repr

/-- `swm_sdio_clock_get` -/
def RtMmcsdHost.swmSdioClockGet (host : RtMmcsdHost) : Nat :=
  let sel := (host.clksel &&& 3 <<< 10) >>> 10
  let prediv := if sel = 0 then 1 else if sel = 1 then 3 else if sel = 2 then 2 else 0
  host.systemCoreClock / 2 ^ prediv

/-- `CR1` as `swm_sdio_set_iocfg` writes it. -/
def RtMmcsdIoCfg.cr1 (cfg : RtMmcsdIoCfg) : BitVec 32 :=
  let cr1 : BitVec 32 := 1 <<< 7 ||| 7 <<< 9
  let cr1 :=
    if cfg.busWidth = 3 then setBit cr1 5                       -- MMCSD_BUS_WIDTH_8
    else if cfg.busWidth = 2 then setBit (clrBit cr1 5) 1       -- MMCSD_BUS_WIDTH_4
    else clrBit (clrBit cr1 5) 1
  if cfg.powerMode = 0 then clrBit cr1 8                        -- MMCSD_POWER_OFF
  else if cfg.powerMode = 1 ∨ cfg.powerMode = 2 then setBit cr1 8
  else cr1

/-- The comparisons of `swm_sdio_set_iocfg` that choose `clkcr`. -/
def clkcrOf (div : Nat) : Nat :=
  if 128 < div then 0x80
  else if 64 < div then 0x40
  else if 32 < div then 0x20
  else if 16 < div then 0x10
  else if 8 < div then 0x08
  else if 4 < div then 0x04
  else if 2 < div then 0x02
  else if 1 < div then 0x01
  else 0x00

/-- `swm_sdio_set_iocfg`, up to the wait for the clock to be ready. -/
def swmSdioSetIocfg (host : RtMmcsdHost) (cfg : RtMmcsdIoCfg) (r : ControlRegs) :
    Except IocfgFault ControlRegs :=
  let clkSrc := host.swmSdioClockGet
  if clkSrc < 400 * 1000 then .ok r
  else
    let clk := if host.freqMax < cfg.clock then host.freqMax else cfg.clock
    let clk := if clkSrc < clk then clkSrc else clk
    if clk = 0 then .error .divideByZero   -- `clk_src / clk` stands before the test of `clk`
    else
      let div := clkSrc / clk
      let clkcr := if clk = 0 ∨ div = 0 then 0 else clkcrOf div
      .ok {
        cr1 := cfg.cr1
        cr2 := 1 <<< 0 ||| 1 <<< 2 ||| BitVec.ofNat 32 clkcr <<< 8 ||| 0xC <<< 16 }

/-- The field `SDCLKDIV` of `CR2`. -/
def ControlRegs.clkcr (r : ControlRegs) : Nat := (r.cr2.extractLsb' 8 8).toNat

/-- What the source is divided by. -/
def divisor (clkcr : Nat) : Nat := if clkcr = 0 then 1 else 2 * clkcr

/-- The clock of the card. -/
def sdClock (clkSrc clkcr : Nat) : ℚ := clkSrc / divisor clkcr

/-- The call does not divide by zero, and a request that the largest divisor can meet gets the fastest
clock that is not above it and not above the maximum. -/
def ClockRight (host : RtMmcsdHost) (cfg : RtMmcsdIoCfg) (r : ControlRegs) : Prop :=
  ∃ r', swmSdioSetIocfg host cfg r = .ok r' ∧
    ((host.swmSdioClockGet : ℚ) / 256 ≤ cfg.clock →
      sdClock host.swmSdioClockGet r'.clkcr ≤ min (cfg.clock : ℚ) host.freqMax ∧
      ∀ k, 2 ^ k < divisor r'.clkcr →
        ¬(host.swmSdioClockGet : ℚ) / 2 ^ k ≤ min (cfg.clock : ℚ) host.freqMax)

/-- The quotient does not round down to a power of two that is a divisor below the largest. -/
def RatioSound (clkSrc clk : Nat) : Prop :=
  ∀ k < 8, ¬(2 ^ k * clk < clkSrc ∧ clkSrc < (2 ^ k + 1) * clk)

instance (clkSrc clk : Nat) : Decidable (RatioSound clkSrc clk) :=
  inferInstanceAs (Decidable (∀ k < 8, ¬_))

theorem clog_two_eq {n k : Nat} (hlt : 2 ^ k < n) (hle : n ≤ 2 ^ (k + 1)) : Nat.clog 2 n = k + 1 :=
  le_antisymm (Nat.clog_le_of_le_pow hle) ((Nat.lt_clog_iff_pow_lt one_lt_two).mpr hlt)

/-- The comparisons choose the smallest power of two that is not below the quotient, up to 256. -/
theorem divisor_clkcrOf (div : Nat) : divisor (clkcrOf div) = 2 ^ min (Nat.clog 2 div) 8 := by
  unfold clkcrOf
  split
  · rename_i h
    rw [min_eq_right (by
      have : 7 < Nat.clog 2 div := (Nat.lt_clog_iff_pow_lt one_lt_two).mpr h
      omega)]
    rfl
  split
  · rw [@clog_two_eq div 6 ‹_› (by omega)]
    rfl
  split
  · rw [@clog_two_eq div 5 ‹_› (by omega)]
    rfl
  split
  · rw [@clog_two_eq div 4 ‹_› (by omega)]
    rfl
  split
  · rw [@clog_two_eq div 3 ‹_› (by omega)]
    rfl
  split
  · rw [@clog_two_eq div 2 ‹_› (by omega)]
    rfl
  split
  · rw [@clog_two_eq div 1 ‹_› (by omega)]
    rfl
  split
  · rw [@clog_two_eq div 0 ‹_› (by omega)]
    rfl
  · rw [Nat.clog_of_right_le_one (by omega)]
    rfl

/-- A smaller power of two gives a clock above the rate. -/
theorem pow_mul_lt {src clk k : Nat} (hclk : 0 < clk)
    (h : 2 ^ k < divisor (clkcrOf (src / clk))) : 2 ^ k * clk < src := by
  rw [divisor_clkcrOf, Nat.pow_lt_pow_iff_right one_lt_two, lt_min_iff,
    Nat.lt_clog_iff_pow_lt one_lt_two] at h
  calc 2 ^ k * clk < (2 ^ k + 1) * clk := Nat.mul_lt_mul_of_pos_right (Nat.lt_succ_self _) hclk
    _ ≤ src / clk * clk := Nat.mul_le_mul_right clk h.1
    _ ≤ src := Nat.div_mul_le_self src clk

/-- The clock is not above the rate exactly if the largest divisor would do and the quotient is sound. -/
theorem le_divisor_mul_iff {src clk : Nat} (hclk : 0 < clk) :
    src ≤ divisor (clkcrOf (src / clk)) * clk ↔ src ≤ 256 * clk ∧ RatioSound src clk := by
  rw [divisor_clkcrOf]
  constructor
  · intro h
    refine ⟨h.trans (Nat.mul_le_mul_right clk ?_), ?_⟩
    · exact Nat.pow_le_pow_right two_pos (min_le_right _ 8)
    rintro k hk ⟨hlt, hgt⟩
    -- the quotient is this power of two, so it is the divisor
    have hdiv : src / clk = 2 ^ k := by
      rw [Nat.div_eq_iff hclk]
      rw [Nat.add_mul, Nat.one_mul] at hgt
      omega
    rw [hdiv, Nat.clog_pow 2 k one_lt_two, min_eq_left hk.le] at h
    omega
  · rintro ⟨hmax, hsound⟩
    rcases le_or_gt 8 (Nat.clog 2 (src / clk)) with hle | hlt
    · rw [min_eq_right hle]
      exact hmax
    · rw [min_eq_left hlt.le]
      by_contra hgt
      refine hsound _ hlt ⟨not_le.mp hgt, ?_⟩
      calc src < (src / clk + 1) * clk := by
            rw [Nat.add_mul, Nat.one_mul]
            exact Nat.lt_div_mul_add hclk
        _ ≤ (2 ^ Nat.clog 2 (src / clk) + 1) * clk :=
            Nat.mul_le_mul_right clk (Nat.succ_le_succ (Nat.le_pow_clog one_lt_two _))

/-- A rate from the source on is not divided. -/
theorem divisor_self {src : Nat} (hsrc : 0 < src) : divisor (clkcrOf (src / src)) = 1 := by
  rw [Nat.div_self hsrc]
  rfl

theorem le_divisor_mul_min_iff {src m : Nat} (hsrc : 0 < src) (hm : 0 < m) :
    src ≤ divisor (clkcrOf (src / min m src)) * m ↔ src ≤ 256 * m ∧ RatioSound src m := by
  rcases lt_or_ge m src with hlt | hge
  · rw [min_eq_left hlt.le]
    exact le_divisor_mul_iff hm
  · rw [min_eq_right hge, divisor_self hsrc, Nat.one_mul]
    refine iff_of_true hge ⟨by omega, fun k _ hk => ?_⟩
    exact absurd (hge.trans (Nat.le_mul_of_pos_left m (Nat.two_pow_pos k))) (not_le.mpr hk.1)

theorem pow_mul_min_lt {src m k : Nat} (hsrc : 0 < src) (hm : 0 < m)
    (h : 2 ^ k < divisor (clkcrOf (src / min m src))) : 2 ^ k * m < src := by
  rcases lt_or_ge m src with hlt | hge
  · rw [min_eq_left hlt.le] at h
    exact pow_mul_lt hm h
  · rw [min_eq_right hge, divisor_self hsrc] at h
    exact absurd h (not_lt.mpr Nat.one_le_two_pow)

theorem clkcrOf_mem (div : Nat) : clkcrOf div ∈ [0, 1, 2, 4, 8, 16, 32, 64, 128] := by
  unfold clkcrOf
  split_ifs <;> decide

/-- The divisor is read back from `CR2`. -/
theorem clkcr_control {cr1 : BitVec 32} {clkcr : Nat} (h : clkcr ∈ [0, 1, 2, 4, 8, 16, 32, 64, 128]) :
    ControlRegs.clkcr ⟨cr1, 1 <<< 0 ||| 1 <<< 2 ||| BitVec.ofNat 32 clkcr <<< 8 ||| 0xC <<< 16⟩ =
      clkcr := by
  revert clkcr
  show ∀ clkcr ∈ [0, 1, 2, 4, 8, 16, 32, 64, 128],
    ((1 <<< 0 ||| 1 <<< 2 ||| BitVec.ofNat 32 clkcr <<< 8 ||| 0xC <<< 16 : BitVec 32).extractLsb' 8 8).toNat =
      clkcr
  decide

/-- What the call does with a source that is fast enough. -/
theorem swmSdioSetIocfg_eq {host : RtMmcsdHost} {cfg : RtMmcsdIoCfg} (r : ControlRegs)
    (hsrc : 400 * 1000 ≤ host.swmSdioClockGet) :
    (min cfg.clock host.freqMax = 0 → swmSdioSetIocfg host cfg r = .error .divideByZero) ∧
    (0 < min cfg.clock host.freqMax → ∃ r', swmSdioSetIocfg host cfg r = .ok r' ∧
      r'.clkcr = clkcrOf (host.swmSdioClockGet /
        min (min cfg.clock host.freqMax) host.swmSdioClockGet)) := by
  have hclk : (if host.freqMax < cfg.clock then host.freqMax else cfg.clock) =
      min cfg.clock host.freqMax := by
    split <;> omega
  have hclamp : ∀ m, (if host.swmSdioClockGet < m then host.swmSdioClockGet else m) =
      min m host.swmSdioClockGet := by
    intro m
    split <;> omega
  simp only [swmSdioSetIocfg, if_neg (not_lt.mpr hsrc), hclk, hclamp]
  refine ⟨fun hzero => ?_, fun hpos => ?_⟩
  · rw [hzero, Nat.zero_min, if_pos rfl]
  · have hne : min (min cfg.clock host.freqMax) host.swmSdioClockGet ≠ 0 := by omega
    have hdiv : host.swmSdioClockGet / min (min cfg.clock host.freqMax) host.swmSdioClockGet ≠ 0 :=
      (Nat.div_pos (min_le_right _ _) (Nat.pos_of_ne_zero hne)).ne'
    rw [if_neg hne, if_neg (not_or.mpr ⟨hne, hdiv⟩)]
    exact ⟨_, rfl, clkcr_control (clkcrOf_mem _)⟩

/-- The rational bounds as products. -/
theorem sdClock_le_iff {src clkcr m : Nat} : sdClock src clkcr ≤ (m : ℚ) ↔ src ≤ divisor clkcr * m := by
  have hpos : (0 : ℚ) < divisor clkcr := by
    unfold divisor
    split <;> positivity
  rw [sdClock, div_le_iff₀ hpos, mul_comm]
  exact_mod_cast Iff.rfl

theorem div_pow_le_iff {src k m : Nat} : (src : ℚ) / 2 ^ k ≤ m ↔ src ≤ 2 ^ k * m := by
  rw [div_le_iff₀ (by positivity), mul_comm]
  exact_mod_cast Iff.rfl

/-- The clock is right if and only if neither the request nor the maximum is zero, and, for a request
that the largest divisor can meet, that divisor also meets the maximum and rounding loses nothing. -/
theorem clock_right_iff {host : RtMmcsdHost} {cfg : RtMmcsdIoCfg} (r : ControlRegs)
    (hsrc : 400 * 1000 ≤ host.swmSdioClockGet) :
    ClockRight host cfg r ↔ 0 < cfg.clock ∧ 0 < host.freqMax ∧
      (host.swmSdioClockGet ≤ 256 * cfg.clock →
        host.swmSdioClockGet ≤ 256 * host.freqMax ∧
        RatioSound host.swmSdioClockGet (min cfg.clock host.freqMax)) := by
  obtain ⟨hzero, hpos⟩ := @swmSdioSetIocfg_eq host cfg r hsrc
  have hmin : min (cfg.clock : ℚ) host.freqMax = ((min cfg.clock host.freqMax : Nat) : ℚ) :=
    (Nat.cast_min cfg.clock host.freqMax).symm
  have hreach : (host.swmSdioClockGet : ℚ) / 256 ≤ cfg.clock ↔
      host.swmSdioClockGet ≤ 256 * cfg.clock := @div_pow_le_iff host.swmSdioClockGet 8 cfg.clock
  rcases Nat.eq_zero_or_pos (min cfg.clock host.freqMax) with hm | hm
  · refine iff_of_false ?_ fun h => ?_
    · rintro ⟨r', hr', -⟩
      rw [hzero hm] at hr'
      cases hr'
    · omega
  obtain ⟨r', hr', hclkcr⟩ := hpos hm
  have hsrc0 : 0 < host.swmSdioClockGet := by omega
  have hbound := @le_divisor_mul_min_iff host.swmSdioClockGet _ hsrc0 hm
  constructor
  · rintro ⟨_, hok, hclock⟩
    rw [hr'] at hok
    cases hok
    refine ⟨by omega, by omega, fun hle => ?_⟩
    obtain ⟨hsd, -⟩ := hclock (hreach.mpr hle)
    rw [hmin, sdClock_le_iff, hclkcr] at hsd
    obtain ⟨h256, hsound⟩ := hbound.mp hsd
    exact ⟨by omega, hsound⟩
  · rintro ⟨-, -, hcond⟩
    refine ⟨r', hr', fun hle => ?_⟩
    have hle := hreach.mp hle
    obtain ⟨hmax, hsound⟩ := hcond hle
    rw [hmin, sdClock_le_iff, hclkcr]
    refine ⟨hbound.mpr ⟨by omega, hsound⟩, fun k hk => ?_⟩
    rw [div_pow_le_iff, not_le]
    exact pow_mul_min_lt hsrc0 hm hk

/-- The default host at 150 MHz with the source undivided. -/
def fastHost : RtMmcsdHost := ⟨37500000, 3 <<< 10, 150000000⟩

/-- A request for 4 bit lines with the power on. -/
def clockRequest (clock : Nat) : RtMmcsdIoCfg := ⟨clock, 2, 2⟩

theorem clock_right_demo : 400 * 1000 ≤ fastHost.swmSdioClockGet ∧
    (ClockRight fastHost (clockRequest 25000000) ⟨0, 0⟩ ↔ 0 < (clockRequest 25000000).clock ∧
      0 < fastHost.freqMax ∧ (fastHost.swmSdioClockGet ≤ 256 * (clockRequest 25000000).clock →
        fastHost.swmSdioClockGet ≤ 256 * fastHost.freqMax ∧
        RatioSound fastHost.swmSdioClockGet (min (clockRequest 25000000).clock fastHost.freqMax))) :=
  ⟨by decide, clock_right_iff _ (by decide)⟩

/-- Without a request the driver divides by zero, and a request of 35 MHz is given 37.5 MHz. -/
theorem clock_wrong : 400 * 1000 ≤ fastHost.swmSdioClockGet ∧
    ¬ClockRight fastHost (clockRequest 0) ⟨0, 0⟩ ∧
    ¬ClockRight fastHost (clockRequest 35000000) ⟨0, 0⟩ := by
  have hsrc : 400 * 1000 ≤ fastHost.swmSdioClockGet := by decide
  refine ⟨hsrc, ?_, ?_⟩
  · rintro ⟨r', hr', -⟩
    rw [(swmSdioSetIocfg_eq _ hsrc).1 (by decide)] at hr'
    cases hr'
  · rintro ⟨r', hr', hclock⟩
    obtain ⟨_, hok, hclkcr⟩ := (@swmSdioSetIocfg_eq _ (clockRequest 35000000) ⟨0, 0⟩ hsrc).2 (by decide)
    rw [hok] at hr'
    cases hr'
    have hreach : (fastHost.swmSdioClockGet : ℚ) / 2 ^ 8 ≤ (clockRequest 35000000).clock :=
      div_pow_le_iff.mpr (by decide)
    obtain ⟨hle, -⟩ := hclock (by norm_num at hreach ⊢; exact hreach)
    rw [hclkcr] at hle
    exact absurd (sdClock_le_iff.mp (hle.trans (min_le_left _ _))) (by decide)

end SwmLvgl.Sdio
