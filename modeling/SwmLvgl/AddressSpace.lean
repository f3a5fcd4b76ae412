import Mathlib.Algebra.Ring.Nat
import SwmLvgl.LeWords

/-! The 32-bit address space, every address holding a byte and addresses wrapping around. A copy that
goes upwards in pieces of any size is exact between ranges that do not overlap: `Copied.step` adds one
piece to it. -/

namespace SwmLvgl

open Memory

/-- What every address holds. -/
abbrev Space := BitVec 32 → BitVec 8

namespace Space

/-- Address `k` of the range that starts at `a`. -/
def place (a : BitVec 32) (k : Nat) : BitVec 32 := a + BitVec.ofNat 32 k

@[simp] theorem place_zero (a : BitVec 32) : place a 0 = a := BitVec.add_zero a

theorem place_place (a : BitVec 32) (j k : Nat) : place (place a j) k = place a (j + k) := by
  rw [place, place, place, BitVec.ofNat_add, BitVec.add_assoc]

theorem place_toNat (a b : BitVec 32) : place a b.toNat = a + b := by
  rw [place, BitVec.ofNat_toNat, BitVec.setWidth_eq]

theorem toNat_place {a : BitVec 32} {k : Nat} (h : a.toNat + k < 2 ^ 32) : (place a k).toNat = a.toNat + k := by
  rw [place, BitVec.toNat_add, BitVec.toNat_ofNat]
  omega

/-- Every address has a place in every range. -/
theorem place_sub (a b : BitVec 32) : place a (b - a).toNat = b := by
  rw [place, BitVec.ofNat_toNat, BitVec.setWidth_eq, BitVec.add_comm, BitVec.sub_add_cancel]

/-- The place of one address of a range in the range that starts at another. -/
theorem toNat_place_sub (a : BitVec 32) {j k : Nat} (hj : j < 2 ^ 32) (hk : k ≤ 2 ^ 32) :
    (place a j - place a k).toNat = if k ≤ j then j - k else j + 2 ^ 32 - k := by
  have ha := a.isLt
  rw [place, place, BitVec.toNat_sub, BitVec.toNat_add, BitVec.toNat_add, BitVec.toNat_ofNat,
    BitVec.toNat_ofNat]
  split <;> omega

/-- The little-endian word at an address. -/
def loadWord (m : Space) (a : BitVec 32) : BitVec 32 := ofBytes fun k => m (place a k)

theorem byte_loadWord (m : Space) (a : BitVec 32) {k : Nat} (hk : k < 4) :
    byte (loadWord m a) k = m (place a k) := byte_ofBytes _ hk

/-- The first `n` bytes of `f` at an address and behind it. -/
def storeBytes (m : Space) (a : BitVec 32) (n : Nat) (f : Nat → BitVec 8) : Space :=
  fun b => if (b - a).toNat < n then f (b - a).toNat else m b

def storeByte (m : Space) (a : BitVec 32) (v : BitVec 8) : Space := storeBytes m a 1 fun _ => v

def storeWord (m : Space) (a w : BitVec 32) : Space := storeBytes m a 4 (byte w)

/-- `m'` is `m` with the `n` bytes from `src` on copied to `dst`. -/
structure Copied (dst src : BitVec 32) (n : Nat) (m m' : Space) : Prop where
  inside : ∀ k < n, m' (place dst k) = m (place src k)
  outside : ∀ a, (∀ k < n, a ≠ place dst k) → m' a = m a

/-- Two ranges of `n` bytes that do not wrap around and have no common address. -/
structure Apart (dst src : BitVec 32) (n : Nat) : Prop where
  dst_end : dst.toNat + n ≤ 2 ^ 32
  src_end : src.toNat + n ≤ 2 ^ 32
  disjoint : dst.toNat + n ≤ src.toNat ∨ src.toNat + n ≤ dst.toNat

theorem Apart.ne {dst src : BitVec 32} {n : Nat} (h : Apart dst src n) {j k : Nat} (hj : j < n)
    (hk : k < n) : place src j ≠ place dst k := by
  intro heq
  have hend := h.dst_end
  have hend' := h.src_end
  have hdisj := h.disjoint
  have hnat := congrArg BitVec.toNat heq
  rw [toNat_place (by omega), toNat_place (by omega)] at hnat
  omega

theorem copied_zero (dst src : BitVec 32) (m : Space) : Copied dst src 0 m m :=
  ⟨nofun, fun _ _ => rfl⟩

/-- One more piece of `n` bytes, as they are at the source by then. -/
theorem Copied.step {dst src : BitVec 32} {k n len : Nat} {m m' : Space} {f : Nat → BitVec 8}
    (h : Copied dst src k m m') (hapart : Apart dst src len) (hlen : k + n ≤ len)
    (hf : ∀ j < n, f j = m' (place src (k + j))) :
    Copied dst src (k + n) m (storeBytes m' (place dst k) n f) := by
  have hend := hapart.dst_end
  constructor
  · intro j hj
    rw [storeBytes, toNat_place_sub dst (by omega) (by omega)]
    by_cases hkj : k ≤ j
    · rw [if_pos hkj, if_pos (by omega), hf _ (by omega), Nat.add_sub_cancel' hkj]
      -- the piece has not been written to
      apply h.outside
      intro i hi
      exact hapart.ne (by omega) (by omega)
    · rw [if_neg hkj, if_neg (by omega)]
      exact h.inside j (by omega)
  · intro a ha
    have hout : ¬(a - place dst k).toNat < n := by
      intro hlt
      apply ha (k + (a - place dst k).toNat) (by omega)
      rw [← place_place, place_sub]
    rw [storeBytes, if_neg hout]
    exact h.outside a fun j hj => ha j (by omega)

theorem Copied.byte {dst src : BitVec 32} {k len : Nat} {m m' : Space} (h : Copied dst src k m m')
    (hapart : Apart dst src len) (hlen : k + 1 ≤ len) :
    Copied dst src (k + 1) m (storeByte m' (place dst k) (m' (place src k))) := by
  apply h.step hapart hlen
  intro j hj
  rw [Nat.lt_one_iff.mp hj, Nat.add_zero]

theorem Copied.word {dst src : BitVec 32} {k len : Nat} {m m' : Space} (h : Copied dst src k m m')
    (hapart : Apart dst src len) (hlen : k + 4 ≤ len) :
    Copied dst src (k + 4) m (storeWord m' (place dst k) (loadWord m' (place src k))) := by
  apply h.step hapart hlen
  intro j hj
  rw [byte_loadWord m' _ hj, place_place]

end Space

end SwmLvgl
