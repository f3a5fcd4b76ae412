import SwmLvgl.I2cBus

/-! What the master's functions for single bytes do to a device that keeps to the protocol. `At` says how
the lines stand and what the device is doing; each function has its triple on it, and the two loops over
the bits of a byte are settled for any sequence of phases that takes its bits. -/

namespace SwmLvgl.I2c

open Prog

theorem rise_pulls (sda : Bool) (ph : Phase) : (Target.rise sda ph).pulls = ph.pulls := by
  cases ph <;> rfl

/-- The device lets go of the clock line within `bound` delays, which the fuel of a wait covers and the
timeout of the master allows for. -/
structure Timely (T : Timing) (stretch : Nat → Nat) (bound : Nat) : Prop where
  stretch : ∀ k, stretch k ≤ bound
  polls : bound < T.polls
  tick : ∀ n j, j ≤ bound → T.tick (n + j) - T.tick n ≤ T.timeout

/-- The master leaves the lines at `scl` and `sda`, the device is in phase `ph`, and nobody holds the
clock line where the master has let go of it. -/
structure At {τ : Type} (bound : Nat) (scl sda : Bool) (ph : Phase) (t : τ) (b : Bus (Slave τ)) : Prop where
  clock : b.scl = scl
  data : b.sda = sda
  phase : b.dev.phase = ph
  target : b.dev.target = t
  hold : b.dev.hold ≤ bound
  free : scl = true → b.dev.hold = 0

section Change

variable {τ : Type} (X : Target τ) (stretch : Nat → Nat) (s : Slave τ)

@[simp] theorem change_fall (d d' : Bool) : (X.device stretch).change ⟨true, d⟩ ⟨false, d'⟩ s =
    ⟨(X.fall s.phase s.target).2, (X.fall s.phase s.target).1, stretch s.falls, s.falls + 1⟩ := rfl

@[simp] theorem change_rise (d d' : Bool) :
    (X.device stretch).change ⟨false, d⟩ ⟨true, d'⟩ s = { s with phase := Target.rise d' s.phase } := rfl

@[simp] theorem change_low (d d' : Bool) : (X.device stretch).change ⟨false, d⟩ ⟨false, d'⟩ s = s := rfl

@[simp] theorem change_none (old : Levels) : (X.device stretch).change old old s = s := by
  obtain ⟨c, d⟩ := old
  cases c <;> cases d <;> rfl

end Change

/-- The operations of the master on the lines of a device. -/
def Target.ops {τ : Type} (X : Target τ) (stretch : Nat → Nat) (T : Timing) : RtI2cBitOps (Bus (Slave τ)) :=
  busOps (X.device stretch) T

section Steps

variable {τ : Type} {X : Target τ} {stretch : Nat → Nat} {T : Timing} {bound : Nat}
  {c d : Bool} {ph : Phase} {t : τ}

/-- The levels, the clock line being high where the master has let go of it. -/
theorem At.levels (X : Target τ) (stretch : Nat → Nat) {b : Bus (Slave τ)} (h : At bound c d ph t b) :
    b.levels (X.device stretch) = ⟨c, d && !ph.pulls⟩ := by
  obtain ⟨rfl, rfl, rfl, rfl, -, hfree⟩ := h
  rw [Bus.levels, Levels.mk.injEq]
  refine ⟨?_, rfl⟩
  cases hc : b.scl with
  | false => rfl
  | true => simp [Target.device, hfree hc]

/-- While the clock line is low the device sees nothing of the data line. -/
theorem setSda_low (v : Bool) : Triple (At bound false d ph t) ((X.ops stretch T).setSda v)
    fun _ => At bound false v ph t := by
  intro b h
  refine ⟨(), _, rfl, ?_⟩
  obtain ⟨hscl, -, hphase, htarget, hhold, -⟩ := h
  have hdrive : b.drive (X.device stretch) b.scl v = { b with sda := v } := by
    rw [Bus.drive, Bus.settle, Bus.levels, Bus.levels]
    simp only [hscl, Bool.false_and, change_low]
  rw [hdrive]
  exact ⟨hscl, rfl, hphase, htarget, hhold, by simp⟩

/-- A falling data line under a high clock line is a start condition. -/
theorem setSda_start (hph : ph.pulls = false) :
    Triple (At bound true true ph t) ((X.ops stretch T).setSda false)
      fun _ => At bound true false (.receive 0 0 true) t := by
  intro b h
  refine ⟨(), _, rfl, ?_⟩
  have hold := h.levels X stretch
  obtain ⟨hscl, -, -, htarget, hhold, hfree⟩ := h
  have hnew : ({ b with sda := false } : Bus (Slave τ)).levels (X.device stretch) = ⟨true, false⟩ := by
    simp [Bus.levels, Target.device, hscl, hfree]
  rw [Bus.drive, Bus.settle, hold, hnew, hph]
  exact ⟨hscl, rfl, rfl, htarget, hhold, hfree⟩

/-- A rising one is a stop condition. -/
theorem setSda_stop (hph : ph.pulls = false) :
    Triple (At bound true false ph t) ((X.ops stretch T).setSda true)
      fun _ => At bound true true .idle (X.stop t) := by
  intro b h
  refine ⟨(), _, rfl, ?_⟩
  have hold := h.levels X stretch
  obtain ⟨hscl, -, hphase, htarget, hhold, hfree⟩ := h
  have hnew : ({ b with sda := true } : Bus (Slave τ)).levels (X.device stretch) = ⟨true, true⟩ := by
    simp [Bus.levels, Target.device, hscl, hfree, hphase, hph]
  rw [Bus.drive, Bus.settle, hold, hnew]
  exact ⟨hscl, rfl, rfl, congrArg X.stop htarget, hhold, hfree⟩

/-- A delay changes nothing, as the device lets go of the clock line without a rising edge here. -/
theorem udelay_at (us : Nat) : Triple (At bound c d ph t) ((X.ops stretch T).udelay us)
    fun _ => At bound c d ph t := by
  intro b h
  refine ⟨(), _, rfl, ?_⟩
  have hold := h.levels X stretch
  obtain ⟨hscl, hsda, hphase, htarget, hhold, hfree⟩ := h
  have hwait : At bound c d ph t { b with
      dev := (X.device stretch).wait b.dev, delays := b.delays + 1 } := by
    refine ⟨hscl, hsda, hphase, htarget, Nat.le_trans (Nat.sub_le _ _) hhold, fun hc => ?_⟩
    simp [Target.device, hfree hc]
  rw [Bus.pass, Bus.settle, hold, hwait.levels X stretch, change_none]
  exact hwait

theorem delay_at : Triple (At bound c d ph t) (X.ops stretch T).i2cDelay fun _ => At bound c d ph t :=
  udelay_at _

theorem delay2_at : Triple (At bound c d ph t) (X.ops stretch T).i2cDelay2 fun _ => At bound c d ph t :=
  udelay_at _

/-- A line is read where the master has let go of it. -/
theorem getSda_at : Triple (At bound c true ph t) (X.ops stretch T).getSda
    fun v b => v = !ph.pulls ∧ At bound c true ph t b := by
  intro b h
  refine ⟨_, b, ?_, rfl, h⟩
  show b.read b.sda (b.levels (X.device stretch)).sda = _
  rw [Bus.read, if_pos h.data, h.levels X stretch, Bool.true_and]

/-- The falling edge of the clock line. -/
theorem sclL_high (ht : Timely T stretch bound) : Triple (At bound true d ph t) (X.ops stretch T).sclL
    fun _ => At bound false d (X.fall ph t).1 (X.fall ph t).2 := by
  intro b h
  refine ⟨(), _, rfl, ?_⟩
  have hold := h.levels X stretch
  obtain ⟨hscl, hsda, rfl, rfl, -, -⟩ := h
  have hnew : ({ b with scl := false } : Bus (Slave τ)).levels (X.device stretch) =
      ⟨false, b.sda && !b.dev.phase.pulls⟩ := by
    simp [Bus.levels, Target.device]
  rw [Bus.drive, Bus.settle, hold, hnew, change_fall]
  exact ⟨rfl, hsda, rfl, rfl, ht.stretch _, by simp⟩

/-- A clock line that is low already. -/
theorem sclL_low : Triple (At bound false d ph t) (X.ops stretch T).sclL
    fun _ => At bound false d ph t := by
  intro b h
  refine ⟨(), _, rfl, ?_⟩
  obtain ⟨hscl, hsda, hphase, htarget, hhold, -⟩ := h
  have hdrive : b.drive (X.device stretch) false b.sda = { b with scl := false } := by
    rw [Bus.drive, Bus.settle, Bus.levels, Bus.levels]
    simp only [hscl, Bool.false_and, change_low]
  rw [hdrive]
  exact ⟨rfl, hsda, hphase, htarget, hhold, by simp⟩

end Steps

section Wait

variable {τ : Type} {X : Target τ} {stretch : Nat → Nat} {T : Timing} {bound : Nat}
  {d : Bool} {ph : Phase} {t : τ}

/-- The master has let go of the clock line and the device holds it for `hold` more delays; the rising
edge comes when it lets go. -/
structure Waiting (d : Bool) (ph : Phase) (t : τ) (hold : Nat) (b : Bus (Slave τ)) : Prop where
  clock : b.scl = true
  data : b.sda = d
  phase : b.dev.phase = if hold = 0 then Target.rise (d && !ph.pulls) ph else ph
  target : b.dev.target = t
  hold : b.dev.hold = hold

theorem Waiting.at_zero {b : Bus (Slave τ)} (h : Waiting d ph t 0 b) :
    At bound true d (Target.rise (d && !ph.pulls) ph) t b := by
  refine ⟨h.clock, h.data, h.phase, h.target, ?_, fun _ => h.hold⟩
  rw [h.hold]
  exact Nat.zero_le _

theorem Waiting.levels (X : Target τ) (stretch : Nat → Nat) {hold : Nat} {b : Bus (Slave τ)}
    (h : Waiting d ph t hold b) :
    b.levels (X.device stretch) = ⟨decide (hold = 0), d && !ph.pulls⟩ := by
  obtain ⟨hscl, hsda, hphase, -, hhold⟩ := h
  rw [Bus.levels, Levels.mk.injEq, hscl, hsda]
  refine ⟨by simp [Target.device, hhold], ?_⟩
  show (d && !b.dev.phase.pulls) = _
  rw [hphase]
  split
  · rw [rise_pulls]
  · rfl

/-- A delay of the wait: the device counts it, and with the last one the line rises. -/
theorem Waiting.pass {hold : Nat} {b : Bus (Slave τ)} (h : Waiting d ph t (hold + 1) b) :
    Waiting d ph t hold (b.pass (X.device stretch)) ∧
      (b.pass (X.device stretch)).delays = b.delays + 1 := by
  have hold' := h.levels X stretch
  obtain ⟨hscl, hsda, hphase, htarget, hhold⟩ := h
  rw [if_neg (Nat.succ_ne_zero _)] at hphase
  have hnew : ({ b with
      dev := (X.device stretch).wait b.dev, delays := b.delays + 1 } : Bus (Slave τ)).levels
        (X.device stretch) = ⟨decide (hold = 0), d && !ph.pulls⟩ := by
    simp [Bus.levels, Target.device, hscl, hsda, hphase, hhold]
  refine ⟨?_, rfl⟩
  rw [Bus.pass, Bus.settle, hold', hnew, decide_eq_false (Nat.succ_ne_zero _)]
  by_cases hzero : hold = 0
  · rw [decide_eq_true hzero, change_rise]
    refine ⟨hscl, hsda, ?_, htarget, ?_⟩
    · rw [if_pos hzero]
      exact congrArg (Target.rise (d && !ph.pulls)) hphase
    · exact congrArg (· - 1) hhold
  · rw [decide_eq_false hzero, change_low]
    refine ⟨hscl, hsda, ?_, htarget, congrArg (· - 1) hhold⟩
    rw [if_neg hzero]
    exact hphase

variable [Errno]

/-- The wait ends with the line high, before its time is over. -/
theorem waitScl_spec {start : UInt32} {n hold : Nat} (hn : hold < n) {b : Bus (Slave τ)}
    (h : Waiting d ph t hold b) (hbound : hold ≤ bound)
    (htick : ∀ j ≤ hold, T.tick (b.delays + j) - start ≤ T.timeout) :
    ∃ b', ((X.ops stretch T).waitScl start n).run b = some (0, b') ∧
      At bound true d (Target.rise (d && !ph.pulls) ph) t b' := by
  induction n generalizing hold b with
  | zero => omega
  | succ n ih =>
      have hget : (X.ops stretch T).getScl.run b = some (decide (hold = 0), b) := by
        show b.read b.scl (b.levels (X.device stretch)).scl = _
        rw [Bus.read, if_pos h.clock, h.levels X stretch]
      rw [RtI2cBitOps.waitScl, run_bind_of_some hget]
      cases hold with
      | zero =>
          have hafter : ∃ a b', (X.ops stretch T).i2cDelay.run b = some (a, b') ∧
              At bound true d (Target.rise (d && !ph.pulls) ph) t b' := delay_at b h.at_zero
          obtain ⟨_, b', hrun, hb'⟩ := hafter
          exact ⟨b', by rw [decide_eq_true rfl, if_pos rfl, run_bind_of_some hrun]; rfl, hb'⟩
      | succ hold =>
          have htime : ¬T.tick b.delays - start > T.timeout := UInt32.not_lt.mpr (htick 0 (Nat.zero_le _))
          have hdelay : (X.ops stretch T).i2cDelay.run b = some ((), b.pass (X.device stretch)) := rfl
          have hlater : ∀ j ≤ hold,
              T.tick ((b.pass (X.device stretch)).delays + j) - start ≤ T.timeout := by
            intro j hj
            rw [h.pass.2, Nat.add_right_comm, Nat.add_assoc]
            exact htick (j + 1) (by omega)
          obtain ⟨b', hrun, hb'⟩ := ih (by omega) h.pass.1 (by omega) hlater
          refine ⟨b', ?_, hb'⟩
          have hclock : (X.ops stretch T).rtTickGet.run b = some (T.tick b.delays, b) := rfl
          rw [decide_eq_false (Nat.succ_ne_zero _), if_neg Bool.false_ne_true, run_bind_of_some hclock]
          have hwait : ¬T.tick b.delays - start > (X.ops stretch T).timeout := htime
          rw [if_neg hwait, run_bind_of_some hdelay, hrun]

/-- `SCL_H` ends with the rising edge behind it. -/
theorem sclH_spec (ht : Timely T stretch bound) : Triple (At bound false d ph t) (X.ops stretch T).sclH
    fun r b => r = 0 ∧ At bound true d (Target.rise (d && !ph.pulls) ph) t b := by
  intro b h
  obtain ⟨hscl, hsda, hphase, htarget, hhold, -⟩ := h
  have hset : ((X.ops stretch T).setScl true).run b = some ((), b.drive (X.device stretch) true b.sda) := rfl
  have hwaiting : Waiting d ph t b.dev.hold (b.drive (X.device stretch) true b.sda) := by
    have hnew : ({ b with scl := true } : Bus (Slave τ)).levels (X.device stretch) =
        ⟨decide (b.dev.hold = 0), d && !ph.pulls⟩ := by
      simp [Bus.levels, Target.device, hsda, hphase]
    have hbefore : b.levels (X.device stretch) = ⟨false, d && !ph.pulls⟩ := by
      simp [Bus.levels, Target.device, hscl, hsda, hphase]
    rw [Bus.drive, Bus.settle, hbefore, hnew]
    by_cases hzero : b.dev.hold = 0
    · rw [decide_eq_true hzero, change_rise]
      refine ⟨rfl, hsda, ?_, htarget, rfl⟩
      rw [if_pos hzero]
      exact congrArg (Target.rise (d && !ph.pulls)) hphase
    · rw [decide_eq_false hzero, change_low]
      refine ⟨rfl, hsda, ?_, htarget, rfl⟩
      rw [if_neg hzero]
      exact hphase
  have hclock : (X.ops stretch T).rtTickGet.run (b.drive (X.device stretch) true b.sda) =
      some (T.tick b.delays, b.drive (X.device stretch) true b.sda) := rfl
  have hticks : ∀ j ≤ b.dev.hold,
      T.tick ((b.drive (X.device stretch) true b.sda).delays + j) - T.tick b.delays ≤ T.timeout :=
    fun j hj => ht.tick b.delays j (Nat.le_trans hj hhold)
  have hpolls : b.dev.hold < T.polls := Nat.lt_of_le_of_lt hhold ht.polls
  obtain ⟨b', hrun, hb'⟩ := waitScl_spec hpolls hwaiting hhold hticks
  refine ⟨0, b', ?_, rfl, hb'⟩
  rw [RtI2cBitOps.sclH, run_bind_of_some hset, run_bind_of_some hclock]
  exact hrun

end Wait

end SwmLvgl.I2c
