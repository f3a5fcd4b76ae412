import Mathlib.Logic.Function.Iterate
import Mathlib.Tactic.Common

/-! A counter that counts down to 0 and starts again from its load value, which takes one cycle more than
the load value. Two readings less than a whole round apart tell the cycles between them. -/

namespace SwmLvgl.DownCounter

/-- The value and the number of times the counter started again. -/
structure Counter where
  val : Nat
  reloads : Nat
  deriving DecidableEq, Repr

/-- One cycle. -/
def tick (load : Nat) (c : Counter) : Counter :=
  if c.val = 0 then ⟨load, c.reloads + 1⟩ else ⟨c.val - 1, c.reloads⟩

/-- The counter after some cycles. -/
def after (load : Nat) (c : Counter) (cycles : Nat) : Counter := (tick load)^[cycles] c

@[simp] theorem after_zero (load : Nat) (c : Counter) : after load c 0 = c := rfl

theorem after_succ (load : Nat) (c : Counter) (n : Nat) :
    after load c (n + 1) = tick load (after load c n) := Function.iterate_succ_apply' _ _ _

theorem after_add (load : Nat) (c : Counter) (n d : Nat) :
    after load c (n + d) = after load (after load c n) d := by
  rw [after, Nat.add_comm, Function.iterate_add_apply]
  rfl

theorem val_after_le {load : Nat} {c : Counter} (h : c.val ≤ load) (n : Nat) :
    (after load c n).val ≤ load := by
  induction n with
  | zero => exact h
  | succ n ih =>
      rw [after_succ, tick]
      split
      · exact Nat.le_refl _
      · exact Nat.le_trans (Nat.sub_le _ _) ih

/-- Within less than a round the counter starts again at most once, and its value says whether it did. -/
theorem after_within {load : Nat} (c : Counter) {d : Nat} (hd : d ≤ load) :
    ((after load c d).reloads = c.reloads ∧ (after load c d).val + d = c.val) ∨
      ((after load c d).reloads = c.reloads + 1 ∧ (after load c d).val + d = c.val + load + 1) := by
  induction d with
  | zero => exact Or.inl ⟨rfl, rfl⟩
  | succ d ih =>
      rw [after_succ, tick]
      rcases ih (by omega) with ⟨hreloads, hval⟩ | ⟨hreloads, hval⟩
      · by_cases hzero : (after load c d).val = 0
        · right
          rw [if_pos hzero]
          exact ⟨congrArg (· + 1) hreloads, by dsimp only; omega⟩
        · left
          rw [if_neg hzero]
          exact ⟨hreloads, by dsimp only; omega⟩
      · -- too few cycles are left to count down once more
        right
        rw [if_neg (by omega)]
        exact ⟨hreloads, by dsimp only; omega⟩

end SwmLvgl.DownCounter
