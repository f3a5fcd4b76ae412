import Mathlib.Algebra.Order.Ring.Nat
import Mathlib.Data.Nat.Bitwise
import SwmLvgl.MemheapMalloc

/-! `rt_malloc_align`: the aligned address lies behind the one allocated, with room for a saved pointer
between them. -/

namespace SwmLvgl.Memheap

open Blocks

theorem toNat_mask {k : Nat} (hk : k < 32) : (BitVec.ofNat 32 (2 ^ k) - 1).toNat = 2 ^ k - 1 := by
  have hpow : 2 ^ k < 2 ^ 32 := Nat.pow_lt_pow_right (by decide) hk
  have hpos : 0 < 2 ^ k := Nat.two_pow_pos k
  have hone : (1 : BitVec 32).toNat = 1 := rfl
  rw [BitVec.toNat_sub_of_le, BitVec.toNat_ofNat, Nat.mod_eq_of_lt hpow, hone]
  rw [BitVec.le_def, BitVec.toNat_ofNat, Nat.mod_eq_of_lt hpow, hone]
  exact hpos

theorem toNat_and_mask (x : BitVec 32) {k : Nat} (hk : k < 32) :
    (x &&& (BitVec.ofNat 32 (2 ^ k) - 1)).toNat = x.toNat % 2 ^ k := by
  rw [BitVec.toNat_and, toNat_mask hk, Nat.and_two_pow_sub_one_eq_mod]

/-- The bits outside of a mask. -/
theorem toNat_and_not (x m : BitVec 32) : (x &&& ~~~m).toNat = x.toNat - (x &&& m).toNat := by
  have hsum : (x &&& ~~~m) + (x &&& m) = x := by
    have hapart : x &&& ~~~m &&& (x &&& m) = 0#32 := by
      ext i hi
      simp only [BitVec.getElem_and, BitVec.getElem_not, BitVec.getElem_zero]
      cases x[i] <;> cases m[i] <;> decide
    rw [BitVec.add_eq_or_of_and_eq_zero _ _ hapart]
    ext i hi
    simp only [BitVec.getElem_or, BitVec.getElem_and, BitVec.getElem_not]
    cases x[i] <;> cases m[i] <;> decide
  have hle : x &&& m ≤ x := by
    rw [BitVec.le_def, BitVec.toNat_and]
    exact Nat.and_le_left
  rw [BitVec.eq_sub_iff_add_eq.mpr hsum, BitVec.toNat_sub_of_le hle]

theorem alignPtr_spec {ptr k : Nat} (hk : 2 ≤ k) (h4 : 4 ∣ ptr) (hlt : ptr + 2 ^ k < 2 ^ 32) :
    2 ^ k ∣ State.alignPtr ptr (2 ^ k) ∧ ptr + 4 ≤ State.alignPtr ptr (2 ^ k) ∧
      State.alignPtr ptr (2 ^ k) ≤ ptr + 2 ^ k := by
  have hk32 : k < 32 := (Nat.pow_lt_pow_iff_right (a := 2) (by decide)).mp (by omega)
  have hfour : 4 ∣ 2 ^ k := Nat.pow_dvd_pow 2 hk
  have hpos : 0 < 2 ^ k := Nat.two_pow_pos k
  have hptr : (BitVec.ofNat 32 ptr).toNat = ptr := by
    rw [BitVec.toNat_ofNat]
    exact Nat.mod_eq_of_lt (by omega)
  rw [State.alignPtr]
  by_cases haligned : BitVec.ofNat 32 ptr &&& (BitVec.ofNat 32 (2 ^ k) - 1) = 0
  · have hmod : ptr % 2 ^ k = 0 := by
      rw [← hptr, ← toNat_and_mask _ hk32, haligned]
      rfl
    rw [if_pos haligned, u32_eq (n := ptr + 2 ^ k) (by push_cast; rfl) hlt]
    refine ⟨?_, ?_, Nat.le_refl _⟩
    · exact (Nat.dvd_add_right (Nat.dvd_of_mod_eq_zero hmod)).mpr (dvd_refl _)
    · have hle := Nat.le_of_dvd hpos hfour
      omega
  · have hmod : ptr % 2 ^ k ≠ 0 := by
      intro hzero
      refine haligned (BitVec.eq_of_toNat_eq ?_)
      rw [toNat_and_mask _ hk32, hptr, hzero]
      rfl
    have hsum : (BitVec.ofNat 32 ptr + (BitVec.ofNat 32 (2 ^ k) - 1)).toNat = ptr + (2 ^ k - 1) := by
      rw [BitVec.toNat_add, hptr, toNat_mask hk32]
      exact Nat.mod_eq_of_lt (by omega)
    rw [if_neg haligned, toNat_and_not, toNat_and_mask _ hk32, hsum]
    have hdiv := Nat.div_add_mod (ptr + (2 ^ k - 1)) (2 ^ k)
    have hdvd : 2 ^ k ∣ ptr + (2 ^ k - 1) - (ptr + (2 ^ k - 1)) % 2 ^ k := Nat.dvd_sub_mod _
    have hmodlt : (ptr + (2 ^ k - 1)) % 2 ^ k < 2 ^ k := Nat.mod_lt _ hpos
    refine ⟨hdvd, ?_, by omega⟩
    -- both addresses are multiples of four, and the aligned one is not the one allocated
    have hdvd4 := Nat.dvd_trans hfour hdvd
    have hne : ptr ≠ ptr + (2 ^ k - 1) - (ptr + (2 ^ k - 1)) % 2 ^ k := by
      intro heq
      rw [← heq] at hdvd
      exact hmod (Nat.mod_eq_zero_of_dvd hdvd)
    omega

theorem ofBytes_byte (w : BitVec 32) : Memory.ofBytes (Memory.byte w) = w := by
  apply BitVec.eq_of_getLsbD_eq
  intro i hi
  simp only [Memory.ofBytes, Memory.byte, BitVec.getLsbD_append, BitVec.getLsbD_extractLsb']
  by_cases h0 : i < 8
  · simp [h0]
  · by_cases h1 : i < 16
    · simp [h0, show i - 8 < 8 by omega, show 8 + (i - 8) = i by omega]
    · by_cases h2 : i < 24
      · simp [h0, show ¬i - 8 < 8 by omega, show i - 8 - 8 < 8 by omega, show 16 + (i - 8 - 8) = i by omega]
      · simp [h0, show ¬i - 8 < 8 by omega, show ¬i - 8 - 8 < 8 by omega, show i - 8 - 8 - 8 < 8 by omega,
          show 24 + (i - 8 - 8 - 8) = i by omega]

/-- A word that was stored is read back. -/
theorem ofBytes_storeWord (m : Nat → BitVec 8) (a : Nat) (w : BitVec 32) :
    Memory.ofBytes (fun k => storeWord m a w (a + k)) = w := by
  have hbyte : ∀ k < 4, storeWord m a w (a + k) = Memory.byte w k := by
    intro k hk
    rw [storeWord, if_pos (by omega), Nat.add_sub_cancel_left]
  conv_rhs => rw [← ofBytes_byte w]
  rw [Memory.ofBytes, Memory.ofBytes, hbyte 3 (by decide), hbyte 2 (by decide), hbyte 1 (by decide),
    hbyte 0 (by decide)]

variable {W : Heaps} {s : State} {B : Nat → List Block} {w : Nat × Pool} {size align : Nat}

/-- The alignment is rounded up to a multiple of four, which is a power of two if it was one. -/
theorem rtAlign_four {j : Nat} (h : 2 ^ j + 4 < 2 ^ 32) :
    ∃ k, 2 ≤ k ∧ rtAlign (2 ^ j) 4 = 2 ^ k ∧ 2 ^ j ∣ 2 ^ k ∧ 2 ^ k ≤ 2 ^ j + 3 := by
  have hround : rtAlign (2 ^ j) 4 = (2 ^ j + 3) / 4 * 4 := by
    rw [rtAlign, u32_eq (n := 2 ^ j + 3) (by push_cast; omega) (by omega)]
  rw [hround]
  obtain rfl | rfl | hj : j = 0 ∨ j = 1 ∨ 2 ≤ j := by omega
  · exact ⟨2, by decide⟩
  · exact ⟨2, by decide⟩
  · have hfour : 4 ∣ 2 ^ j := Nat.pow_dvd_pow 2 hj
    exact ⟨j, hj, by omega, dvd_refl _, by omega⟩

/-- `rt_malloc_align`: a block, and in it an aligned address for the bytes asked for, with the pointer to
the block saved before it. -/
theorem rtMallocAlign_change (h : Valid W s B) (hw : w ∈ W.list) (hsize : size + align ≤ 2 ^ 32 - 32)
    (halign : ∃ j, align = 2 ^ j) :
    s.rtMallocAlign w.1 size align = .ok (none, s) ∨
      ∃ s' B' b p, s.rtMallocAlign w.1 size align = .ok (some p, s') ∧ Change W B B' none (some b) s s' ∧
        align ∣ p ∧ b.addr + 24 + 4 ≤ p ∧ p + size ≤ b.addr + 24 + b.size ∧
        s'.savedPtr p = b.addr + 24 := by
  obtain ⟨j, rfl⟩ := halign
  obtain ⟨k, hk, hround, hdvd, hkj⟩ := rtAlign_four (j := j) (by omega)
  have hsize4 : rtAlign size 4 = (size + 3) / 4 * 4 := by
    rw [rtAlign, u32_eq (n := size + 3) (by push_cast; omega) (by omega)]
  have htotal : u32 ((rtAlign size 4 : Int) + ((2 ^ k : Nat) : Int)) = (size + 3) / 4 * 4 + 2 ^ k := by
    rw [hsize4]
    exact u32_eq (by push_cast; rfl) (by omega)
  have hmin := (requestSize_spec ((size + 3) / 4 * 4 + 2 ^ k) (by omega)).2.2.1
  simp only [State.rtMallocAlign, hround, htotal]
  rcases memheapAlloc_change h hw (show (size + 3) / 4 * 4 + 2 ^ k ≤ 2 ^ 32 - 8 by omega) with
    ⟨hnone, -⟩ | ⟨s', B', b, hsome, -, hsizeb, hchange⟩
  · exact .inl (by rw [hnone])
  · right
    have hb : UsedBlock W B' b := (hchange.used b).mpr (.inr rfl)
    obtain ⟨-, v, hv, hbv⟩ := hb
    have h8 := (hchange.valid.items hv).addr_dvd hbv
    have haddr := (hchange.valid.items hv).addr_le hbv
    obtain ⟨hdvdp, hlo, hhi⟩ := alignPtr_spec hk (show 4 ∣ b.addr + 24 by omega) (by omega)
    generalize hp : State.alignPtr (b.addr + 24) (2 ^ k) = p at *
    have hback : u32 ((p : Int) - 4) = p - 4 := u32_eq (by omega) (by omega)
    have hsaved : State.savedPtr
        { s' with byte := storeWord s'.byte (p - 4) (.ofNat 32 (b.addr + 24)) } p = b.addr + 24 := by
      rw [State.savedPtr, hback]
      show (Memory.ofBytes fun k => storeWord s'.byte (p - 4) _ (p - 4 + k)).toNat = b.addr + 24
      rw [ofBytes_storeWord, BitVec.toNat_ofNat]
      exact Nat.mod_eq_of_lt (by omega)
    have hstored : Change W B B' none (some b) s
        { s' with byte := storeWord s'.byte (p - 4) (.ofNat 32 (b.addr + 24)) } :=
      hchange.bytes fun x hx => if_neg (by omega)
    refine ⟨_, B', b, p, ?_, hstored, Nat.dvd_trans hdvd hdvdp, by omega, by omega, hsaved⟩
    simp only [hsome, hp, hback]

end SwmLvgl.Memheap
