import Mathlib.Logic.Function.Basic
import SwmLvgl.RunSteps

/-! A flat memory of cells, of which only some are accessible, with a loop that copies cells and a loop
that copies a rectangle row by row. `Copied` and `RectCopied` say what the memory holds afterwards;
a memory is determined by what it was before and the rectangle copied. -/

namespace SwmLvgl.Memory

/-- The accessible cells with their values. -/
abbrev Mem (α : Type*) := Nat → Option α

variable {α ε : Type*}

/-- The value of a cell, or the fault `e` where it is not accessible. -/
def load (e : ε) (m : Mem α) (a : Nat) : Except ε α :=
  match m a with
  | some v => .ok v
  | none => .error e

def store (e : ε) (m : Mem α) (a : Nat) (v : α) : Except ε (Mem α) :=
  if (m a).isSome then .ok (Function.update m a (some v)) else .error e

/-- `n` cells from `src` on are copied to `dst`, in ascending order. -/
def copy (e : ε) (dst src n : Nat) (m : Mem α) : Except ε (Mem α) :=
  Run.run (fun m i => do
    let v ← load e m (src + i)
    store e m (dst + i) v) m (List.range n)

/-- All `n` cells from `a` on are accessible. -/
def Accessible (m : Mem α) (a n : Nat) : Prop := ∀ i < n, (m (a + i)).isSome

/-- No cell belongs to both blocks. -/
def Apart (a n b k : Nat) : Prop := a + n ≤ b ∨ b + k ≤ a

/-- `m'` is `m` with the `n` cells from `src` on copied to `dst`. -/
structure Copied (dst src n : Nat) (m m' : Mem α) : Prop where
  inside : ∀ i < n, m' (dst + i) = m (src + i)
  outside : ∀ a, (∀ i < n, a ≠ dst + i) → m' a = m a

theorem Copied.step {dst src n : Nat} {m m' : Mem α} (h : Copied dst src n m m') {v : α}
    (hv : m (src + n) = some v) :
    Copied dst src (n + 1) m (Function.update m' (dst + n) (some v)) := by
  constructor
  · intro i hi
    rcases Nat.lt_succ_iff_lt_or_eq.mp hi with hi | rfl
    · rw [Function.update_of_ne (by omega)]
      exact h.inside i hi
    · rw [Function.update_self, hv]
  · intro a ha
    rw [Function.update_of_ne (ha n (Nat.lt_succ_self n))]
    exact h.outside a fun i hi => ha i (Nat.lt_succ_of_lt hi)

/-- Copying between accessible blocks without a common cell succeeds. -/
theorem copy_spec (e : ε) {dst src n : Nat} {m : Mem α} (hsrc : Accessible m src n)
    (hdst : Accessible m dst n) (hdisj : Apart dst n src n) :
    ∃ m', copy e dst src n m = .ok m' ∧ Copied dst src n m m' := by
  refine Run.run_range (I := fun k m' => Copied dst src k m m') (fun k hk m' h => ?_) ⟨nofun, ?_⟩
  · obtain ⟨v, hv⟩ := Option.isSome_iff_exists.mp (hsrc k hk)
    have hload : m' (src + k) = some v := by
      rw [h.outside _ fun i hi => ?_, hv]
      unfold Apart at hdisj
      omega
    have hstore : (m' (dst + k)).isSome := by
      rw [h.outside _ fun i hi => by omega]
      exact hdst k hk
    refine ⟨_, ?_, h.step hv⟩
    simp only [load, hload, store, hstore, bind, Except.bind, if_true]
  · exact fun a _ => rfl

theorem Accessible.mono {m : Mem α} {a n k : Nat} (h : Accessible m a n) (hk : k ≤ n) :
    Accessible m a k := fun i hi => h i (hi.trans_le hk)

/-- Copying leaves every cell accessible that was. -/
theorem Copied.isSome {dst src n : Nat} {m m' : Mem α} (h : Copied dst src n m m')
    (hsrc : Accessible m src n) {a : Nat} (ha : (m a).isSome) : (m' a).isSome := by
  by_cases hin : ∀ i < n, a ≠ dst + i
  · rw [h.outside a hin]
    exact ha
  · push Not at hin
    obtain ⟨i, hi, rfl⟩ := hin
    rw [h.inside i hi]
    exact hsrc i hi

/-- `m'` is `m` with the `w` times `h` cells from `src` on copied to a rectangle at `dst`, in rows that
are `stride` cells apart. -/
structure RectCopied (dst stride src w h : Nat) (m m' : Mem α) : Prop where
  inside : ∀ j < h, ∀ i < w, m' (dst + j * stride + i) = m (src + j * w + i)
  outside : ∀ a, (∀ j < h, ∀ i < w, a ≠ dst + j * stride + i) → m' a = m a

section Rect

variable {dst stride src w h : Nat} {m m' m'' : Mem α}

theorem RectCopied.unique (h' : RectCopied dst stride src w h m m')
    (h'' : RectCopied dst stride src w h m m'') : m' = m'' := by
  funext a
  by_cases ha : ∀ j < h, ∀ i < w, a ≠ dst + j * stride + i
  · rw [h'.outside a ha, h''.outside a ha]
  · push Not at ha
    obtain ⟨j, hj, i, hi, rfl⟩ := ha
    rw [h'.inside j hj i hi, h''.inside j hj i hi]

/-- A block copied is a rectangle whose rows follow each other. -/
theorem Copied.rect (hc : Copied dst src (h * w) m m') : RectCopied dst w src w h m m' := by
  constructor
  · intro j hj i hi
    have hlt : j * w + i < h * w := by
      calc j * w + i < j * w + w := Nat.add_lt_add_left hi _
        _ = (j + 1) * w := (Nat.succ_mul j w).symm
        _ ≤ h * w := Nat.mul_le_mul_right w hj
    rw [Nat.add_assoc, Nat.add_assoc]
    exact hc.inside _ hlt
  · intro a ha
    apply hc.outside a
    intro k hk
    have hw : 0 < w := Nat.pos_of_ne_zero fun hw => by simp [hw] at hk
    have hdecomp : k / w * w + k % w = k := Nat.div_add_mod' k w
    rw [← hdecomp, ← Nat.add_assoc]
    exact ha _ (Nat.div_lt_of_lt_mul (by rwa [Nat.mul_comm])) _ (Nat.mod_lt k hw)

theorem row_ne {j k i l : Nat} (hw : w ≤ stride) (hi : i < w) (hjk : j < k) :
    dst + j * stride + i ≠ dst + k * stride + l := by
  have hnext : j * stride + stride ≤ k * stride := by
    rw [← Nat.succ_mul]
    exact Nat.mul_le_mul_right stride hjk
  omega

/-- One more row. -/
theorem RectCopied.step (hr : RectCopied dst stride src w h m m') (hw : w ≤ stride)
    (hsrc : ∀ i < w, m' (src + h * w + i) = m (src + h * w + i))
    (hc : Copied (dst + h * stride) (src + h * w) w m' m'') :
    RectCopied dst stride src w (h + 1) m m'' := by
  constructor
  · intro j hj i hi
    rcases Nat.lt_succ_iff_lt_or_eq.mp hj with hj | rfl
    · rw [hc.outside _ fun l _ => row_ne hw hi hj]
      exact hr.inside j hj i hi
    · rw [hc.inside i hi]
      exact hsrc i hi
  · intro a ha
    rw [hc.outside a fun i hi => ha h (Nat.lt_succ_self h) i hi]
    exact hr.outside a fun j hj => ha j (Nat.lt_succ_of_lt hj)

end Rect

/-- The next row of a rectangle, when `j` rows have been copied: they lie outside the source, so the
row is copied from what was there at the start. -/
theorem copyRow_spec (e : ε) {dst stride src w h j : Nat} {m m' : Mem α} (hw : w ≤ stride) (hj : j < h)
    (hsrc : Accessible m src (h * w)) (hdst : ∀ j < h, Accessible m (dst + j * stride) w)
    (hdisj : ∀ j < h, Apart (dst + j * stride) w src (h * w))
    (hrect : RectCopied dst stride src w j m m') :
    ∃ m'', copy e (dst + j * stride) (src + j * w) w m' = .ok m'' ∧
      RectCopied dst stride src w (j + 1) m m'' := by
  have hblock : ∀ i < w, j * w + i < h * w := fun i hi =>
    calc j * w + i < j * w + w := Nat.add_lt_add_left hi _
      _ = (j + 1) * w := (Nat.succ_mul j w).symm
      _ ≤ h * w := Nat.mul_le_mul_right w hj
  have hkept : ∀ i < w, m' (src + j * w + i) = m (src + j * w + i) := by
    intro i hi
    apply hrect.outside
    intro k hk l hl
    have hd := hdisj k (hk.trans hj)
    have := hblock i hi
    unfold Apart at hd
    omega
  have haccSrc : Accessible m' (src + j * w) w := fun i hi => by
    rw [hkept i hi, Nat.add_assoc]
    exact hsrc _ (hblock i hi)
  have haccDst : Accessible m' (dst + j * stride) w := fun i hi => by
    rw [hrect.outside _ fun k hk l hl => (row_ne hw hl hk).symm]
    exact hdst j hj i hi
  have hd : Apart (dst + j * stride) w (src + j * w) w := by
    have hd := hdisj j hj
    have hlast : j * w + w ≤ h * w := by
      rw [← Nat.succ_mul]
      exact Nat.mul_le_mul_right w hj
    unfold Apart at hd ⊢
    omega
  obtain ⟨m'', hm'', hcopied⟩ := copy_spec e haccSrc haccDst hd
  exact ⟨m'', hm'', hrect.step hw hkept hcopied⟩

/-- Copying the rows one after the other, from sources that follow each other, copies the rectangle. -/
theorem copyRows_spec {step : Mem α × Nat → Nat → Except ε (Mem α × Nat)} {e : ε}
    {dst stride src w h : Nat} {m : Mem α} (hw : w ≤ stride)
    (hstep : ∀ j < h, ∀ m', step (m', src + j * w) j =
      (copy e (dst + j * stride) (src + j * w) w m').map fun m'' => (m'', src + j * w + w))
    (hsrc : Accessible m src (h * w))
    (hdst : ∀ j < h, Accessible m (dst + j * stride) w)
    (hdisj : ∀ j < h, Apart (dst + j * stride) w src (h * w)) :
    ∃ m', Run.run step (m, src) (List.range h) = .ok (m', src + h * w) ∧
      RectCopied dst stride src w h m m' := by
  let I : Nat → Mem α × Nat → Prop := fun j s =>
    s.2 = src + j * w ∧ RectCopied dst stride src w j m s.1
  have hrun : ∃ s, Run.run step (m, src) (List.range h) = .ok s ∧ I h s := by
    refine Run.run_range (I := I) (fun j hj s hs => ?_) ⟨?_, nofun, fun a _ => rfl⟩
    · obtain ⟨m', p⟩ := s
      obtain ⟨rfl, hrect⟩ := hs
      obtain ⟨m'', hm'', hrect''⟩ := copyRow_spec e hw hj hsrc hdst hdisj hrect
      refine ⟨(m'', src + j * w + w), ?_, ?_, hrect''⟩
      · rw [hstep j hj, hm'']
        rfl
      · rw [Nat.succ_mul, Nat.add_assoc]
    · rw [Nat.zero_mul, Nat.add_zero]
  obtain ⟨⟨m', p⟩, hrun, rfl, hrect⟩ := hrun
  exact ⟨m', hrun, hrect⟩

end SwmLvgl.Memory
