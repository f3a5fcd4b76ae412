import Mathlib.Algebra.Ring.Nat
import SwmLvgl.DownCounter
import SwmLvgl.Loops

/-! `swm_i2c_udelay` (`drv_soft_i2c.c`): a busy loop that adds up the cycles between readings of the
SysTick counter. When the counter has started again in between, the loop takes `reload - tnow + told`
for the distance, which is one less than it was. So the count never runs ahead of the time. -/

namespace SwmLvgl.I2c

open DownCounter

/-- `RT_TICK_PER_SECOND` -/
def rtTickPerSecond : BitVec 32 := 1000

/-- The variables of the loop and the number of times it has read `SysTick->VAL`. -/
structure UdelayState where
  told : BitVec 32
  tcnt : BitVec 32
  reads : Nat
  deriving DecidableEq, Repr

def udelayStep (val : Nat → BitVec 32) (reload ticks : BitVec 32) (s : UdelayState) :
    UdelayState ⊕ UdelayState :=
  let tnow := val s.reads
  if tnow ≠ s.told then
    let tcnt := if tnow < s.told then s.tcnt + (s.told - tnow) else s.tcnt + (reload - tnow + s.told)
    let s' : UdelayState := ⟨tnow, tcnt, s.reads + 1⟩
    if tcnt ≥ ticks then .inr s' else .inl s'
  else .inl { s with reads := s.reads + 1 }

/-- `ticks` -/
def udelayTicks (reload us : BitVec 32) : BitVec 32 := us * reload / (1000000 / rtTickPerSecond)

/-- The state before the loop. `val k` is the reading number `k` of `SysTick->VAL`. -/
def udelayStart (val : Nat → BitVec 32) : UdelayState := ⟨val 0, 0, 1⟩

/-- The delay returns in this state. -/
def SwmI2cUdelay (val : Nat → BitVec 32) (reload us : BitVec 32) : UdelayState → Prop :=
  Loop.Exits (udelayStep val reload (udelayTicks reload us)) (udelayStart val)

/-- The delay has this state at the head of its loop. -/
def UdelayReaches (val : Nat → BitVec 32) (reload us : BitVec 32) : UdelayState → Prop :=
  Loop.Reaches (udelayStep val reload (udelayTicks reload us)) (udelayStart val)

/-- Reading number `k` is made `cycle k` cycles after the first, and less than a round of the counter
after the one before. -/
structure Sampling (load : Nat) (cycle : Nat → Nat) : Prop where
  first : cycle 0 = 0
  mono : ∀ k, cycle k ≤ cycle (k + 1)
  often : ∀ k, cycle (k + 1) - cycle k < load + 1

/-- The SysTick counter at a reading, with the reloads since the first one. -/
def sysTick (load phase : Nat) (cycle : Nat → Nat) (k : Nat) : Counter := after load ⟨phase, 0⟩ (cycle k)

/-- The readings of `SysTick->VAL`. -/
def sysTickVal (load phase : Nat) (cycle : Nat → Nat) (k : Nat) : BitVec 32 :=
  BitVec.ofNat 32 (sysTick load phase cycle k).val

/-- The cycles and the reloads between the first reading and the last one before a state. -/
def UdelayState.elapsed (cycle : Nat → Nat) (s : UdelayState) : Nat := cycle (s.reads - 1)

def UdelayState.reloads (load phase : Nat) (cycle : Nat → Nat) (s : UdelayState) : Nat :=
  (sysTick load phase cycle (s.reads - 1)).reloads

section Readings

variable {load phase : Nat} {cycle : Nat → Nat}

theorem sysTick_succ (h : Sampling load cycle) (k : Nat) :
    sysTick load phase cycle (k + 1) = after load (sysTick load phase cycle k) (cycle (k + 1) - cycle k) := by
  rw [sysTick, sysTick, ← after_add, Nat.add_sub_cancel' (h.mono k)]

theorem sysTickVal_toNat (hphase : phase ≤ load) (hload : load < 2 ^ 24) (cycle : Nat → Nat) (k : Nat) :
    (sysTickVal load phase cycle k).toNat = (sysTick load phase cycle k).val := by
  have hval : (sysTick load phase cycle k).val ≤ load := val_after_le hphase _
  rw [sysTickVal, BitVec.toNat_ofNat, Nat.mod_eq_of_lt (by omega)]

/-- Between two readings the value tells whether the counter has started again, and how long it was. -/
theorem sysTick_between (hs : Sampling load cycle) (phase k : Nat) :
    let c := sysTick load phase cycle k
    let c' := sysTick load phase cycle (k + 1)
    (c'.reloads = c.reloads ∧ c'.val ≤ c.val ∧ c'.val + cycle (k + 1) = c.val + cycle k) ∨
      (c'.reloads = c.reloads + 1 ∧ c.val < c'.val ∧
        c'.val + cycle (k + 1) = c.val + cycle k + load + 1) := by
  have hmono := hs.mono k
  have hoften := hs.often k
  have hwithin := after_within (sysTick load phase cycle k) (Nat.lt_succ_iff.mp hoften)
  rw [← sysTick_succ hs] at hwithin
  rcases hwithin with ⟨hreloads, hval⟩ | ⟨hreloads, hval⟩
  · exact Or.inl ⟨hreloads, by omega, by omega⟩
  · exact Or.inr ⟨hreloads, by omega, by omega⟩

end Readings

/-- The distance of two readings that is added where the counter has not started again. -/
theorem toNat_tcnt_down {tcnt told tnow : BitVec 32} (hle : tnow.toNat ≤ told.toNat)
    (hsum : tcnt.toNat + told.toNat < 2 ^ 32) :
    (tcnt + (told - tnow)).toNat = tcnt.toNat + (told.toNat - tnow.toNat) := by
  rw [BitVec.toNat_add, BitVec.toNat_sub_of_le (BitVec.le_def.mpr hle), Nat.mod_eq_of_lt (by omega)]

/-- The distance that is added where it has. -/
theorem toNat_tcnt_wrap {tcnt told tnow reload : BitVec 32} (hle : tnow.toNat ≤ reload.toNat)
    (hsum : tcnt.toNat + reload.toNat + told.toNat < 2 ^ 32) :
    (tcnt + (reload - tnow + told)).toNat = tcnt.toNat + (reload.toNat - tnow.toNat + told.toNat) := by
  have hinner : (reload - tnow + told).toNat = reload.toNat - tnow.toNat + told.toNat := by
    rw [BitVec.toNat_add, BitVec.toNat_sub_of_le (BitVec.le_def.mpr hle), Nat.mod_eq_of_lt (by omega)]
  rw [BitVec.toNat_add, hinner, Nat.mod_eq_of_lt (by omega)]

section Delay

variable {load phase : Nat} {cycle : Nat → Nat}

/-- The count is the time less one cycle for each reload. -/
structure UdelayInv (load phase : Nat) (cycle : Nat → Nat) (s : UdelayState) : Prop where
  reads : 0 < s.reads
  told : s.told = sysTickVal load phase cycle (s.reads - 1)
  tcnt : s.tcnt.toNat + s.reloads load phase cycle = s.elapsed cycle

theorem UdelayInv.next {s : UdelayState} (h : UdelayInv load phase cycle s) :
    ∃ k, s.reads = k + 1 ∧ s.told = sysTickVal load phase cycle k ∧
      s.tcnt.toNat + (sysTick load phase cycle k).reloads = cycle k := by
  obtain ⟨k, hk⟩ : ∃ k, s.reads = k + 1 := ⟨s.reads - 1, by have := h.reads; omega⟩
  have htold := h.told
  have htcnt := h.tcnt
  rw [UdelayState.reloads, UdelayState.elapsed] at htcnt
  rw [hk, Nat.add_sub_cancel] at htold htcnt
  exact ⟨k, hk, htold, htcnt⟩

/-- What the loop makes of its count at a new reading. -/
def nextTcnt (reload told tnow tcnt : BitVec 32) : BitVec 32 :=
  if tnow < told then tcnt + (told - tnow) else tcnt + (reload - tnow + told)

variable (hs : Sampling load cycle) (hphase : phase ≤ load) (hload : load < 2 ^ 24)

include hs hphase hload

/-- The count moves on by the time, less one cycle if the counter has started again. -/
theorem nextTcnt_spec {k : Nat} {tcnt : BitVec 32} (hlt : tcnt.toNat < 2 ^ 31)
    (hne : sysTickVal load phase cycle (k + 1) ≠ sysTickVal load phase cycle k)
    (htcnt : tcnt.toNat + (sysTick load phase cycle k).reloads = cycle k) :
    (nextTcnt (BitVec.ofNat 32 load) (sysTickVal load phase cycle k) (sysTickVal load phase cycle (k + 1))
      tcnt).toNat + (sysTick load phase cycle (k + 1)).reloads = cycle (k + 1) := by
  have hreload : (BitVec.ofNat 32 load).toNat = load := by
    rw [BitVec.toNat_ofNat, Nat.mod_eq_of_lt (by omega)]
  have hnow := sysTickVal_toNat hphase hload cycle (k + 1)
  have hold := sysTickVal_toNat hphase hload cycle k
  have hval : (sysTick load phase cycle (k + 1)).val ≤ load := val_after_le hphase _
  have hval' : (sysTick load phase cycle k).val ≤ load := val_after_le hphase _
  rcases sysTick_between hs phase k with ⟨hreloads, hdown, htime⟩ | ⟨hreloads, hup, htime⟩
  · -- equal values would be the same reading
    have hlt' : sysTickVal load phase cycle (k + 1) < sysTickVal load phase cycle k := by
      rw [BitVec.lt_def]
      have := mt BitVec.eq_of_toNat_eq hne
      omega
    rw [nextTcnt, if_pos hlt', toNat_tcnt_down (by omega) (by omega)]
    omega
  · have hge : ¬sysTickVal load phase cycle (k + 1) < sysTickVal load phase cycle k := by
      rw [BitVec.lt_def]
      omega
    rw [nextTcnt, if_neg hge, toNat_tcnt_wrap (by omega) (by omega)]
    omega

/-- No time passes between two readings of one value. -/
theorem cycle_eq_of_same {k : Nat} (heq : sysTickVal load phase cycle (k + 1) = sysTickVal load phase cycle k) :
    (sysTick load phase cycle (k + 1)).reloads = (sysTick load phase cycle k).reloads ∧
      cycle (k + 1) = cycle k := by
  have hnow := sysTickVal_toNat hphase hload cycle (k + 1)
  have hold := sysTickVal_toNat hphase hload cycle k
  rw [heq] at hnow
  rcases sysTick_between hs phase k with ⟨hreloads, hdown, htime⟩ | ⟨hreloads, hup, htime⟩
  · exact ⟨hreloads, by omega⟩
  · omega

/-- A reading keeps the invariant, and the loop is left when the count has reached the ticks. -/
theorem udelayStep_spec {ticks : BitVec 32} (hticks : ticks.toNat < 2 ^ 31) {s : UdelayState}
    (h : UdelayInv load phase cycle s ∧ s.tcnt ≤ ticks) :
    (∃ s', udelayStep (sysTickVal load phase cycle) (BitVec.ofNat 32 load) ticks s = .inl s' ∧
        UdelayInv load phase cycle s' ∧ s'.tcnt ≤ ticks) ∨
      ∃ s', udelayStep (sysTickVal load phase cycle) (BitVec.ofNat 32 load) ticks s = .inr s' ∧
        UdelayInv load phase cycle s' ∧ ticks ≤ s'.tcnt := by
  obtain ⟨hinv, hle⟩ := h
  obtain ⟨k, hk, htold, htcnt⟩ := hinv.next
  rw [BitVec.le_def] at hle
  by_cases hne : sysTickVal load phase cycle (k + 1) ≠ s.told
  · have hnext : UdelayInv load phase cycle ⟨sysTickVal load phase cycle (k + 1),
        nextTcnt (BitVec.ofNat 32 load) s.told (sysTickVal load phase cycle (k + 1)) s.tcnt, k + 2⟩ := by
      refine ⟨Nat.succ_pos _, rfl, ?_⟩
      rw [htold] at hne ⊢
      exact nextTcnt_spec hs hphase hload (by omega) hne htcnt
    simp only [udelayStep, hk, if_pos hne]
    by_cases hge : nextTcnt (BitVec.ofNat 32 load) s.told (sysTickVal load phase cycle (k + 1)) s.tcnt ≥ ticks
    · exact Or.inr ⟨_, if_pos hge, hnext, hge⟩
    · rw [ge_iff_le, BitVec.le_def, Nat.not_le] at hge
      exact Or.inl ⟨_, if_neg (by rw [ge_iff_le, BitVec.le_def, Nat.not_le]; exact hge), hnext,
        BitVec.le_def.mpr (Nat.le_of_lt hge)⟩
  · rw [not_ne_iff] at hne
    left
    simp only [udelayStep, hk, hne, ne_eq, not_true_eq_false, if_false]
    obtain ⟨hreloads, htime⟩ := cycle_eq_of_same hs hphase hload (hne.trans htold)
    refine ⟨_, rfl, ⟨Nat.succ_pos _, hne.symm, ?_⟩, BitVec.le_def.mpr hle⟩
    rw [UdelayState.reloads, UdelayState.elapsed]
    show s.tcnt.toNat + (sysTick load phase cycle (k + 1)).reloads = cycle (k + 1)
    rw [hreloads, htime]
    exact htcnt

omit hs hphase in
theorem udelayTicks_toNat {us : BitVec 32} (hus : us.toNat * load < 2 ^ 32) :
    (udelayTicks (BitVec.ofNat 32 load) us).toNat =
      us.toNat * load / (1000000 / rtTickPerSecond.toNat) := by
  have hreload : (BitVec.ofNat 32 load).toNat = load := by
    rw [BitVec.toNat_ofNat, Nat.mod_eq_of_lt (by omega)]
  rw [udelayTicks, BitVec.toNat_udiv, BitVec.toNat_mul, hreload, Nat.mod_eq_of_lt hus]
  rfl

/-- The count is not ahead of the time, and behind it by at most one cycle for each reload. -/
structure Accounted (load phase : Nat) (cycle : Nat → Nat) (s : UdelayState) : Prop where
  not_ahead : s.tcnt.toNat ≤ s.elapsed cycle
  behind : s.elapsed cycle ≤ s.tcnt.toNat + s.reloads load phase cycle

omit hs hphase hload in
theorem UdelayInv.accounted {s : UdelayState} (h : UdelayInv load phase cycle s) :
    Accounted load phase cycle s :=
  ⟨h.tcnt ▸ Nat.le_add_right _ _, Nat.le_of_eq h.tcnt.symm⟩

/-- At every turn of the loop the count is accounted for, and when the delay returns at least the ticks
have passed since the first reading. -/
theorem udelay_never_short {us : BitVec 32} (hus : us.toNat * load < 2 ^ 32) :
    (∀ s, UdelayReaches (sysTickVal load phase cycle) (BitVec.ofNat 32 load) us s →
        Accounted load phase cycle s) ∧
      ∀ s, SwmI2cUdelay (sysTickVal load phase cycle) (BitVec.ofNat 32 load) us s →
        Accounted load phase cycle s ∧
          us.toNat * load / (1000000 / rtTickPerSecond.toNat) ≤ s.elapsed cycle := by
  have hnat := udelayTicks_toNat hload hus
  have hticks : (udelayTicks (BitVec.ofNat 32 load) us).toNat < 2 ^ 31 := by
    have hthousand : 1000000 / rtTickPerSecond.toNat = 1000 := rfl
    rw [hnat, hthousand]
    omega
  have hstart : UdelayInv load phase cycle (udelayStart (sysTickVal load phase cycle)) ∧
      (udelayStart (sysTickVal load phase cycle)).tcnt ≤ udelayTicks (BitVec.ofNat 32 load) us := by
    refine ⟨⟨Nat.one_pos, rfl, ?_⟩, BitVec.le_def.mpr (Nat.zero_le _)⟩
    simp only [UdelayState.reloads, UdelayState.elapsed, udelayStart, sysTick, hs.first, after_zero,
      Nat.sub_self]
    rfl
  have hstep : ∀ s s', UdelayInv load phase cycle s ∧ s.tcnt ≤ udelayTicks (BitVec.ofNat 32 load) us →
      udelayStep (sysTickVal load phase cycle) (BitVec.ofNat 32 load)
        (udelayTicks (BitVec.ofNat 32 load) us) s = .inl s' →
      UdelayInv load phase cycle s' ∧ s'.tcnt ≤ udelayTicks (BitVec.ofNat 32 load) us := by
    intro s s' h heq
    rcases udelayStep_spec hs hphase hload hticks h with ⟨t, ht, hinv⟩ | ⟨t, ht, -⟩
    · cases heq.symm.trans ht
      exact hinv
    · cases heq.symm.trans ht
  constructor
  · intro s hreach
    exact (hreach.invariant hstep hstart).1.accounted
  · intro s hexits
    apply hexits.of_invariant hstep _ hstart
    intro s t h heq
    rcases udelayStep_spec hs hphase hload hticks h with ⟨t', ht, -⟩ | ⟨t', ht, hinv, hge⟩
    · cases heq.symm.trans ht
    · cases heq.symm.trans ht
      rw [BitVec.le_def, hnat] at hge
      exact ⟨hinv.accounted, Nat.le_trans hge hinv.accounted.not_ahead⟩

end Delay

/-- A counter with the load 999 that is at 5 at the first reading and is read every 3 cycles. -/
theorem udelay_never_short_demo :
    SwmI2cUdelay (sysTickVal 999 5 (3 * ·)) (BitVec.ofNat 32 999) 5 ⟨999, 5, 3⟩ ∧
      Accounted 999 5 (3 * ·) ⟨999, 5, 3⟩ ∧ 4 ≤ UdelayState.elapsed (3 * ·) ⟨999, 5, 3⟩ := by
  have hsampling : Sampling 999 (3 * ·) := ⟨rfl, fun k => by omega, fun k => by omega⟩
  have hexits : SwmI2cUdelay (sysTickVal 999 5 (3 * ·)) (BitVec.ofNat 32 999) 5 ⟨999, 5, 3⟩ :=
    ⟨3, by decide +kernel⟩
  exact ⟨hexits, (udelay_never_short hsampling (by decide) (by decide) (by decide)).2 _ hexits⟩

end SwmLvgl.I2c
