import Mathlib.Algebra.Ring.Nat
import Mathlib.Data.List.Induction
import Mathlib.Tactic.Common

/-! The PWM timers (`drv_pwm.c`, `SWM341_pwm.c`). Times are given in nanoseconds and kept in
microseconds, in fields of 16 bits; the two channels of a timer have one period and a pulse each. -/

namespace SwmLvgl.Pwm

/-- The fields of `PWM_TypeDef` that the driver uses after the initialisation. -/
structure PwmTypeDef where
  period : BitVec 16
  cmpa : BitVec 16
  cmpb : BitVec 16
  deriving DecidableEq, Repr

/-- The part of `struct rt_pwm_configuration` that the driver uses. -/
structure RtPwmConfiguration where
  channel : BitVec 32
  period : BitVec 32
  pulse : BitVec 32
  deriving DecidableEq, Repr

namespace PwmTypeDef

/-- `PWM_SetPeriod` -/
def pwmSetPeriod (r : PwmTypeDef) (period : BitVec 16) : PwmTypeDef := { r with period := period - 1 }

/-- `PWM_GetPeriod` -/
def pwmGetPeriod (r : PwmTypeDef) : BitVec 16 := r.period + 1

/-- `PWM_SetHDuty` -/
def pwmSetHDuty (r : PwmTypeDef) (chn : BitVec 32) (hduty : BitVec 16) : PwmTypeDef :=
  if chn = 0 then { r with cmpa := hduty } else { r with cmpb := hduty }

/-- `PWM_GetHDuty` -/
def pwmGetHDuty (r : PwmTypeDef) (chn : BitVec 32) : BitVec 16 := if chn = 0 then r.cmpa else r.cmpb

end PwmTypeDef

/-- `MIN_PERIOD` -/
def minPeriod : Nat := 2

/-- `MIN_PULSE` -/
def minPulse : Nat := 1

/-- `swm_pwm_get`, with the value returned -/
def swmPwmGet (cfg : RtPwmConfiguration) (r : PwmTypeDef) : Int × RtPwmConfiguration :=
  (0, { cfg with
    period := BitVec.ofNat 32 (r.pwmGetPeriod.toNat * 1000)
    pulse := BitVec.ofNat 32 ((r.pwmGetHDuty cfg.channel).toNat * 1000) })

/-- `swm_pwm_set`, with the value returned -/
def swmPwmSet (cfg : RtPwmConfiguration) (r : PwmTypeDef) : Int × PwmTypeDef :=
  let period := cfg.period.toNat / 1000
  let pulse := cfg.pulse.toNat / 1000
  let period := if period < minPeriod then minPeriod else period
  let pulse := if pulse < minPulse then minPulse else pulse
  let r := r.pwmSetPeriod (BitVec.ofNat 16 period)
  let r := r.pwmSetHDuty 0 (BitVec.ofNat 16 pulse)   -- PWM_CH_A
  let r := r.pwmSetHDuty 1 (BitVec.ofNat 16 pulse)   -- PWM_CH_B
  (0, r)

inductive Channel where
  | a
  | b
  deriving DecidableEq, Repr

namespace Channel

/-- `PWM_CH_A` and `PWM_CH_B` -/
def chn : Channel → BitVec 32
  | .a => 0
  | .b => 1

def other : Channel → Channel
  | .a => .b
  | .b => .a

end Channel

/-- What `swm_pwm_get` reports for a channel. -/
def reported (c : Channel) (r : PwmTypeDef) : RtPwmConfiguration := (swmPwmGet ⟨c.chn, 0, 0⟩ r).2

/-- Less than a microsecond apart. -/
def Near (x y : BitVec 32) : Prop := x.toNat < y.toNat + 1000 ∧ y.toNat < x.toNat + 1000

/-- After an accepted set, the channel reports what was asked for to within a microsecond, with a pulse not
above the period, and the other channel reports its pulse as before. -/
def SetExact (c : Channel) (period pulse : BitVec 32) (r : PwmTypeDef) : Prop :=
  let set := swmPwmSet ⟨c.chn, period, pulse⟩ r
  set.1 = 0 →
    Near (reported c set.2).period period ∧ Near (reported c set.2).pulse pulse ∧
    (reported c set.2).pulse ≤ (reported c set.2).period ∧
    (reported c.other set.2).pulse = (reported c.other r).pulse

/-- A period or pulse from the minimum on is stored in microseconds, for both channels. -/
theorem swmPwmSet_eq (c : Channel) {period pulse : BitVec 32} (r : PwmTypeDef)
    (hperiod : 2000 ≤ period.toNat) (hpulse : 1000 ≤ pulse.toNat) :
    swmPwmSet ⟨c.chn, period, pulse⟩ r =
      (0, ⟨BitVec.ofNat 16 (period.toNat / 1000) - 1, BitVec.ofNat 16 (pulse.toNat / 1000),
        BitVec.ofNat 16 (pulse.toNat / 1000)⟩) := by
  have hp : ¬period.toNat / 1000 < minPeriod := by
    unfold minPeriod
    omega
  have hq : ¬pulse.toNat / 1000 < minPulse := by
    unfold minPulse
    omega
  simp only [swmPwmSet, if_neg hp, if_neg hq]
  rfl

/-- The period and the pulse that a timer reports, in nanoseconds. -/
theorem reported_toNat (c : Channel) (r : PwmTypeDef) :
    (reported c r).period.toNat = r.pwmGetPeriod.toNat * 1000 ∧
    (reported c r).pulse.toNat = (r.pwmGetHDuty c.chn).toNat * 1000 := by
  have h1 := r.pwmGetPeriod.isLt
  have h2 := (r.pwmGetHDuty c.chn).isLt
  simp only [reported, swmPwmGet, BitVec.toNat_ofNat]
  omega

theorem pwmGetHDuty_both (p v : BitVec 16) (c : Channel) :
    PwmTypeDef.pwmGetHDuty ⟨p, v, v⟩ c.chn = v := by
  cases c <;> rfl

theorem pwmGetPeriod_set (p a b : BitVec 16) : PwmTypeDef.pwmGetPeriod ⟨p - 1, a, b⟩ = p :=
  BitVec.sub_add_cancel p 1

/-- A set is exact if and only if the period is below 65.536 ms and the other channel already has the
pulse. -/
theorem pwm_set_exact_iff (c : Channel) {period pulse : BitVec 32} (r : PwmTypeDef)
    (hle : pulse ≤ period) (hperiod : 2000 ≤ period.toNat) (hpulse : 1000 ≤ pulse.toNat) :
    SetExact c period pulse r ↔
      period.toNat < 65536000 ∧ (r.pwmGetHDuty c.other.chn).toNat = pulse.toNat / 1000 := by
  have hle : pulse.toNat ≤ period.toNat := hle
  have hset := swmPwmSet_eq c r hperiod hpulse
  simp only [SetExact, hset, forall_const, Near, BitVec.le_def, ← BitVec.toNat_inj, reported_toNat,
    pwmGetHDuty_both, pwmGetPeriod_set, BitVec.toNat_ofNat]
  omega

/-- A request for a channel. -/
structure SetRequest where
  channel : Channel
  period : BitVec 32
  pulse : BitVec 32
  deriving DecidableEq, Repr

/-- The sets of a run, one after the other. -/
def sets (r : PwmTypeDef) (l : List SetRequest) : PwmTypeDef :=
  l.foldl (fun r q => (swmPwmSet ⟨q.channel.chn, q.period, q.pulse⟩ r).2) r

theorem swmPwmSet_same (cfg : RtPwmConfiguration) (r : PwmTypeDef) :
    (swmPwmSet cfg r).2.cmpa = (swmPwmSet cfg r).2.cmpb := rfl

/-- Once a channel has been set, both channels report the same pulse, whichever is set next. -/
theorem sets_same {r : PwmTypeDef} {l : List SetRequest} (h : l ≠ []) :
    (reported .a (sets r l)).pulse = (reported .b (sets r l)).pulse := by
  induction l using List.reverseRecOn with
  | nil => exact absurd rfl h
  | append_singleton l q _ =>
      rw [sets, List.foldl_append, List.foldl_cons, List.foldl_nil]
      exact congrArg (fun v : BitVec 16 => BitVec.ofNat 32 (v.toNat * 1000)) (swmPwmSet_same _ _)

/-- A timer as it is initialised: a period of 10 ms, and 5 ms for each channel. -/
def initialPwm : PwmTypeDef := ⟨9999, 5000, 5000⟩

theorem pwm_set_exact_demo : (5000000 : BitVec 32) ≤ 20000000 ∧
    (SetExact .a 20000000 5000000 initialPwm ↔
      (20000000 : BitVec 32).toNat < 65536000 ∧
      (initialPwm.pwmGetHDuty (Channel.other .a).chn).toNat = (5000000 : BitVec 32).toNat / 1000) :=
  ⟨by decide, pwm_set_exact_iff .a initialPwm (by decide) (by decide) (by decide)⟩

/-- A set of channel A takes channel B along, and a period of 100 ms is stored as 34.464 ms. -/
theorem pwm_set_wrong : (swmPwmSet ⟨Channel.chn .a, 10000000, 2000000⟩ initialPwm).1 = 0 ∧
    ¬SetExact .a 10000000 2000000 initialPwm ∧ ¬SetExact .a 100000000 5000000 initialPwm := by
  refine ⟨rfl, fun h => ?_, fun h => ?_⟩
  · exact absurd (h rfl).2.2.2 (by decide)
  · exact absurd (h rfl).1.2 (by decide)

end SwmLvgl.Pwm
