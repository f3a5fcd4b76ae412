import Mathlib.Algebra.Ring.Nat
import Mathlib.Tactic.Common

/-! Bits of hardware registers: `r |= 1 << n` and `r &= ~(1 << n)`, a field of several bits cleared, and
the bytes of a word reversed. Each lemma says what the operation leaves in every bit. -/

namespace SwmLvgl.RegBits

variable {w : Nat}

/-- `r |= (1 << n)` -/
def setBit (r : BitVec w) (n : Nat) : BitVec w := r ||| 1#w <<< n

/-- `r &= ~(1 << n)` -/
def clrBit (r : BitVec w) (n : Nat) : BitVec w := r &&& ~~~(1#w <<< n)

/-- `r &= ~(mask << n)` -/
def clrField (r : BitVec w) (mask : BitVec w) (n : Nat) : BitVec w := r &&& ~~~(mask <<< n)

theorem getLsbD_one_shiftLeft (n m : Nat) : (1#w <<< n).getLsbD m = decide (m < w ∧ m = n) := by
  rw [← BitVec.twoPow_eq, BitVec.getLsbD_twoPow]
  by_cases hm : m = n
  · subst hm
    simp
  · have hne : ¬n = m := fun h => hm h.symm
    simp [hm, hne]

@[simp] theorem getLsbD_setBit (r : BitVec w) (n m : Nat) :
    (setBit r n).getLsbD m = (r.getLsbD m || decide (m < w ∧ m = n)) := by
  rw [setBit, BitVec.getLsbD_or, getLsbD_one_shiftLeft]

@[simp] theorem getLsbD_clrBit (r : BitVec w) (n m : Nat) :
    (clrBit r n).getLsbD m = (r.getLsbD m && decide (m ≠ n)) := by
  rw [clrBit, BitVec.getLsbD_and, BitVec.getLsbD_not, getLsbD_one_shiftLeft]
  by_cases hm : m < w
  · simp [hm]
  · simp [BitVec.getLsbD_of_ge r m (Nat.not_lt.mp hm)]

theorem getLsbD_setBit_self (r : BitVec w) {n : Nat} (h : n < w) : (setBit r n).getLsbD n = true := by
  rw [getLsbD_setBit, decide_eq_true ⟨h, rfl⟩, Bool.or_true]

theorem getLsbD_setBit_of_ne (r : BitVec w) {n m : Nat} (h : m ≠ n) :
    (setBit r n).getLsbD m = r.getLsbD m := by
  rw [getLsbD_setBit, decide_eq_false fun h' => h h'.2, Bool.or_false]

theorem getLsbD_clrBit_self (r : BitVec w) (n : Nat) : (clrBit r n).getLsbD n = false := by
  rw [getLsbD_clrBit, decide_eq_false fun h => h rfl, Bool.and_false]

theorem getLsbD_clrBit_of_ne (r : BitVec w) {n m : Nat} (h : m ≠ n) :
    (clrBit r n).getLsbD m = r.getLsbD m := by
  rw [getLsbD_clrBit, decide_eq_true h, Bool.and_true]

/-- A bit below the field, or one that the shifted mask does not reach, stays. -/
theorem getLsbD_clrField {r mask : BitVec w} {n m : Nat}
    (h : m < n ∨ mask.getLsbD (m - n) = false) : (clrField r mask n).getLsbD m = r.getLsbD m := by
  rw [clrField, BitVec.getLsbD_and, BitVec.getLsbD_not, BitVec.getLsbD_shiftLeft]
  by_cases hm : m < w
  · rcases h with h | h <;> simp [hm, h]
  · simp [BitVec.getLsbD_of_ge r m (Nat.not_lt.mp hm)]

/-- The bytes of a word in reverse order (`__REV`). -/
def rev (v : BitVec 32) : BitVec 32 :=
  (v.extractLsb' 0 8 ++ v.extractLsb' 8 8 ++ v.extractLsb' 16 8 ++ v.extractLsb' 24 8).setWidth 32

theorem getLsbD_rev (v : BitVec 32) (i : Nat) :
    (rev v).getLsbD i = (decide (i < 32) && v.getLsbD (24 - 8 * (i / 8) + i % 8)) := by
  rw [rev, BitVec.getLsbD_setWidth]
  by_cases hi : i < 32
  · rw [BitVec.getLsbD_append, BitVec.getLsbD_append, BitVec.getLsbD_append]
    simp only [BitVec.getLsbD_extractLsb', hi, decide_true, Bool.true_and]
    split
    · have hpos : 24 + i = 24 - 8 * (i / 8) + i % 8 := by omega
      simp [*]
    split
    · have hpos : 16 + (i - 8) = 24 - 8 * (i / 8) + i % 8 := by omega
      simp [*]
    split
    · have hpos : 8 + (i - 8 - 8) = 24 - 8 * (i / 8) + i % 8 := by omega
      simp [*]
    · have hpos : 0 + (i - 8 - 8 - 8) = 24 - 8 * (i / 8) + i % 8 := by omega
      have hlast : i - 8 - 8 - 8 < 8 := by omega
      rw [hpos, decide_eq_true hlast, Bool.true_and]
  · simp [hi]

@[simp] theorem rev_rev (v : BitVec 32) : rev (rev v) = v := by
  apply BitVec.eq_of_getLsbD_eq
  intro i hi
  rw [getLsbD_rev, getLsbD_rev]
  have hback : 24 - 8 * ((24 - 8 * (i / 8) + i % 8) / 8) + (24 - 8 * (i / 8) + i % 8) % 8 = i := by omega
  have hlt : 24 - 8 * (i / 8) + i % 8 < 32 := by omega
  rw [hback]
  simp [hi, hlt]

/-- The field of `n` bits from bit `k` on. -/
theorem field_eq (x k n : Nat) : (x &&& (2 ^ n - 1) <<< k) >>> k = x / 2 ^ k % 2 ^ n := by
  rw [Nat.shiftRight_and_distrib, Nat.shiftLeft_shiftRight, Nat.and_two_pow_sub_one_eq_mod,
    Nat.shiftRight_eq_div_pow]

theorem pack_eq {a k : Nat} (b : Nat) (ha : a < 2 ^ k) : a <<< 0 ||| b <<< k = 2 ^ k * b + a := by
  rw [Nat.shiftLeft_zero, Nat.shiftLeft_eq, Nat.mul_comm b, Nat.or_comm, Nat.two_pow_add_eq_or_of_lt ha]

theorem field_low {a k : Nat} (b : Nat) (ha : a < 2 ^ k) :
    ((a <<< 0 ||| b <<< k) &&& (2 ^ k - 1) <<< 0) >>> 0 = a := by
  rw [field_eq, pack_eq b ha, Nat.pow_zero, Nat.div_one, Nat.mul_add_mod, Nat.mod_eq_of_lt ha]

theorem field_high {a b k n : Nat} (ha : a < 2 ^ k) (hb : b < 2 ^ n) :
    ((a <<< 0 ||| b <<< k) &&& (2 ^ n - 1) <<< k) >>> k = b := by
  rw [field_eq, pack_eq b ha, Nat.mul_add_div (Nat.two_pow_pos k), Nat.div_eq_of_lt ha, Nat.add_zero,
    Nat.mod_eq_of_lt hb]

end SwmLvgl.RegBits
