import Mathlib.Tactic.IntervalCases
import SwmLvgl.FlatMemory

/-! Little-endian words of four bytes, and their accesses in a flat memory of bytes. `WordStored` says
what a memory holds after the store of a word. -/

namespace SwmLvgl.Memory

/-- Byte `k` of a word, the lowest first. -/
def byte (w : BitVec 32) (k : Nat) : BitVec 8 := w.extractLsb' (8 * k) 8

/-- The word of four bytes, the lowest first. -/
def ofBytes (f : Nat → BitVec 8) : BitVec 32 := f 3 ++ f 2 ++ f 1 ++ f 0

@[simp] theorem byte_ofBytes (f : Nat → BitVec 8) {k : Nat} (hk : k < 4) : byte (ofBytes f) k = f k := by
  apply BitVec.eq_of_getLsbD_eq
  intro i hi
  rw [byte, ofBytes, BitVec.getLsbD_extractLsb', BitVec.getLsbD_append, BitVec.getLsbD_append,
    BitVec.getLsbD_append]
  interval_cases k
  · rw [if_pos (by omega)]
    simp [hi]
  · rw [if_neg (by omega), if_pos (by omega)]
    simp [hi]
  · rw [if_neg (by omega), if_neg (by omega), if_pos (by omega)]
    simp [hi, show 16 + i - 8 - 8 = i by omega]
  · rw [if_neg (by omega), if_neg (by omega), if_neg (by omega)]
    simp [hi, show 24 + i - 8 - 8 - 8 = i by omega]

/-- The contents of accessible bytes. -/
theorem Accessible.contents {m : Mem (BitVec 8)} {a n : Nat} (h : Accessible m a n) :
    ∃ f : Nat → BitVec 8, ∀ p < n, m (a + p) = some (f p) := by
  refine ⟨fun p => (m (a + p)).getD 0, fun p hp => ?_⟩
  obtain ⟨v, hv⟩ := Option.isSome_iff_exists.mp (h p hp)
  show m (a + p) = some ((m (a + p)).getD 0)
  rw [hv]
  rfl

variable {ε : Type*}

/-- The word at an address. -/
def loadWord (e : ε) (m : Mem (BitVec 8)) (a : Nat) : Except ε (BitVec 32) := do
  let b0 ← load e m a
  let b1 ← load e m (a + 1)
  let b2 ← load e m (a + 2)
  let b3 ← load e m (a + 3)
  return b3 ++ b2 ++ b1 ++ b0

/-- The bytes of a word stored from an address on. -/
def storeWord (e : ε) (m : Mem (BitVec 8)) (a : Nat) (w : BitVec 32) : Except ε (Mem (BitVec 8)) :=
  Run.run (fun m k => store e m (a + k) (byte w k)) m (List.range 4)

/-- `m'` is `m` with the word `w` at `a`. -/
structure WordStored (a : Nat) (w : BitVec 32) (m m' : Mem (BitVec 8)) : Prop where
  inside : ∀ k < 4, m' (a + k) = some (byte w k)
  outside : ∀ b, b < a ∨ a + 4 ≤ b → m' b = m b

theorem loadWord_spec (e : ε) {m : Mem (BitVec 8)} {a : Nat} {f : Nat → BitVec 8}
    (h : ∀ k < 4, m (a + k) = some (f k)) : loadWord e m a = .ok (ofBytes f) := by
  have h0 : m a = some (f 0) := h 0 (by decide)
  simp only [loadWord, load, h0, h 1 (by decide), h 2 (by decide), h 3 (by decide)]
  rfl

theorem storeWord_spec (e : ε) {m : Mem (BitVec 8)} {a : Nat} (w : BitVec 32)
    (h : Accessible m a 4) : ∃ m', storeWord e m a w = .ok m' ∧ WordStored a w m m' := by
  let I : Nat → Mem (BitVec 8) → Prop := fun n m' =>
    (∀ k < n, m' (a + k) = some (byte w k)) ∧ ∀ b, (b < a ∨ a + n ≤ b) → m' b = m b
  have hstep : ∀ n < 4, ∀ m', I n m' →
      ∃ t, store e m' (a + n) (byte w n) = .ok t ∧ I (n + 1) t := by
    rintro n hn m' ⟨hin, hout⟩
    have hsome : (m' (a + n)).isSome := by
      rw [hout _ (by omega)]
      exact h n hn
    refine ⟨_, by rw [store, if_pos hsome], fun k hk => ?_, fun b hb => ?_⟩
    · rcases Nat.lt_succ_iff_lt_or_eq.mp hk with hk | rfl
      · rw [Function.update_of_ne (by omega)]
        exact hin k hk
      · rw [Function.update_self]
    · rw [Function.update_of_ne (by omega)]
      exact hout b (by omega)
  obtain ⟨m', hrun, hin, hout⟩ := Run.run_range (I := I) hstep
    ⟨fun k hk => absurd hk (Nat.not_lt_zero k), fun _ _ => rfl⟩
  exact ⟨m', hrun, hin, hout⟩

/-- A store makes no cell accessible or inaccessible, if all it stores to are accessible. -/
theorem WordStored.isSome_iff {a : Nat} {w : BitVec 32} {m m' : Mem (BitVec 8)}
    (h : WordStored a w m m') (hm : Accessible m a 4) (b : Nat) :
    (m' b).isSome = (m b).isSome := by
  by_cases hb : b < a ∨ a + 4 ≤ b
  · rw [h.outside b hb]
  · obtain ⟨k, rfl⟩ : ∃ k, b = a + k := ⟨b - a, by omega⟩
    rw [h.inside k (by omega), hm k (by omega)]
    rfl

end SwmLvgl.Memory
