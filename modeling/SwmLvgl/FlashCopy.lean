import SwmLvgl.AddressSpace
import SwmLvgl.Loops

/-! The `sfc_copy` command (`src/applications/main.c`): a loop over words, then a loop over the bytes that
are left. The index is unsigned with 32 bits, and the bound of the word loop is tested on `i + 4`. For a
length within 4 of 2^32 the sum wraps around before it passes the length, and the loop never ends. -/

namespace SwmLvgl.Sfc

open Space (Apart Copied copied_zero loadWord storeByte storeWord place place_toNat)

/-- The index of the loops and the memory. -/
structure CopyState where
  i : BitVec 32
  mem : Space

def copyWordStep (src dst len : BitVec 32) (s : CopyState) : CopyState ⊕ CopyState :=
  if s.i + 4 ≤ len then
    let w := loadWord s.mem (src + s.i)
    .inl { i := s.i + 4, mem := storeWord s.mem (dst + s.i) w }
  else .inr s

def copyByteStep (src dst len : BitVec 32) (s : CopyState) : CopyState ⊕ Space :=
  if s.i < len then
    .inl { i := s.i + 1, mem := storeByte s.mem (dst + s.i) (s.mem (src + s.i)) }
  else .inr s.mem

/-- What the command returns. -/
inductive RtErr where
  | eok
  | error
  deriving DecidableEq, Repr

/-- `src`, `dst` and `len`, from what `strtoul` makes of the arguments. -/
structure CopyArgs where
  src : BitVec 32
  dst : BitVec 32
  len : BitVec 32

def copyArgs (argv : List (BitVec 32)) : CopyArgs :=
  ⟨argv[0]?.getD 0x70000000, argv[1]?.getD 0x80200000, argv[2]?.getD 0⟩

/-- The command returns, and leaves this memory. -/
def SfcCopy (mem : Space) (argv : List (BitVec 32)) (ret : RtErr) (mem' : Space) : Prop :=
  let args := copyArgs argv
  if args.len = 0 then ret = .error ∧ mem' = mem
  else ret = .eok ∧ ∃ s, Loop.Exits (copyWordStep args.src args.dst args.len) ⟨0, mem⟩ s ∧
    Loop.Exits (copyByteStep args.src args.dst args.len) s mem'

/-- The command returns, and has copied the range if the two ranges are apart. -/
def CopyExact (mem : Space) (src dst len : BitVec 32) : Prop :=
  ∃ mem', SfcCopy mem [src, dst, len] .eok mem' ∧
    (Apart dst src len.toNat → Copied dst src len.toNat mem mem')

section Loops

variable {src dst len : BitVec 32} {mem : Space}

/-- The bytes before the index are copied. -/
structure CopyInv (src dst len : BitVec 32) (mem : Space) (s : CopyState) : Prop where
  le : s.i.toNat ≤ len.toNat
  copied : Apart dst src len.toNat → Copied dst src s.i.toNat mem s.mem

theorem CopyInv.wordStep {s : CopyState} (h : CopyInv src dst len mem s)
    (hlen : len.toNat < 2 ^ 32 - 4) :
    (∃ s', copyWordStep src dst len s = .inl s' ∧ CopyInv src dst len mem s' ∧
        len.toNat - s'.i.toNat < len.toNat - s.i.toNat) ∨
      ∃ s', copyWordStep src dst len s = .inr s' ∧ CopyInv src dst len mem s' := by
  have hle := h.le
  have hnext : (s.i + 4).toNat = s.i.toNat + 4 := by
    rw [BitVec.toNat_add]
    exact Nat.mod_eq_of_lt (by simp; omega)
  by_cases hi : s.i + 4 ≤ len
  · left
    rw [copyWordStep, if_pos hi]
    rw [BitVec.le_def, hnext] at hi
    refine ⟨_, rfl, ⟨?_, fun hapart => ?_⟩, ?_⟩
    · rw [hnext]
      exact hi
    · have hword := (h.copied hapart).word hapart hi
      rw [place_toNat, place_toNat] at hword
      rwa [hnext]
    · simp only [hnext]
      omega
  · exact Or.inr ⟨s, by rw [copyWordStep, if_neg hi], h⟩

theorem CopyInv.byteStep {s : CopyState} (h : CopyInv src dst len mem s) :
    (∃ s', copyByteStep src dst len s = .inl s' ∧ CopyInv src dst len mem s' ∧
        len.toNat - s'.i.toNat < len.toNat - s.i.toNat) ∨
      ∃ mem', copyByteStep src dst len s = .inr mem' ∧
        (Apart dst src len.toNat → Copied dst src len.toNat mem mem') := by
  have hle := h.le
  have hlt := len.isLt
  by_cases hi : s.i < len
  · left
    rw [copyByteStep, if_pos hi]
    rw [BitVec.lt_def] at hi
    have hnext : (s.i + 1).toNat = s.i.toNat + 1 := by
      rw [BitVec.toNat_add]
      exact Nat.mod_eq_of_lt (by simp; omega)
    refine ⟨_, rfl, ⟨?_, fun hapart => ?_⟩, ?_⟩
    · rw [hnext]
      exact hi
    · have hbyte := (h.copied hapart).byte hapart hi
      rw [place_toNat, place_toNat] at hbyte
      rwa [hnext]
    · simp only [hnext]
      omega
  · right
    refine ⟨s.mem, by rw [copyByteStep, if_neg hi], fun hapart => ?_⟩
    rw [BitVec.lt_def] at hi
    have hend : s.i.toNat = len.toNat := by omega
    rw [← hend]
    exact h.copied hapart

theorem copyInv_start (src dst len : BitVec 32) (mem : Space) : CopyInv src dst len mem ⟨0, mem⟩ :=
  ⟨Nat.zero_le _, fun _ => copied_zero dst src mem⟩

/-- From an index that is a multiple of four the word loop goes on to the next one, if the last multiple
of four in the address space is within the length. -/
theorem copyWordStep_continues (hlen : 2 ^ 32 - 4 ≤ len.toNat) {s : CopyState} (hs : s.i.toNat % 4 = 0) :
    ∃ s', copyWordStep src dst len s = .inl s' ∧ s'.i.toNat % 4 = 0 := by
  have hi := s.i.isLt
  have hnext : (s.i + 4).toNat = (s.i.toNat + 4) % 2 ^ 32 := BitVec.toNat_add _ _
  have hle : s.i + 4 ≤ len := by
    rw [BitVec.le_def, hnext]
    omega
  refine ⟨_, by rw [copyWordStep, if_pos hle], ?_⟩
  rw [hnext]
  omega

theorem wordLoop_not_exits (hlen : 2 ^ 32 - 4 ≤ len.toNat) (t : CopyState) :
    ¬Loop.Exits (copyWordStep src dst len) ⟨0, mem⟩ t := by
  apply Loop.not_exits_of_invariant (I := fun s => s.i.toNat % 4 = 0)
  · intro s hs
    exact copyWordStep_continues hlen hs
  · rfl

end Loops

/-- The command copies whenever its word loop ends, and that is for every length with room for one more
word in the range of the index. -/
theorem sfc_copy_exact_iff (mem : Space) (src dst : BitVec 32) {len : BitVec 32} (hlen : len ≠ 0) :
    CopyExact mem src dst len ↔ len.toNat < 2 ^ 32 - 4 := by
  have hargs : copyArgs [src, dst, len] = ⟨src, dst, len⟩ := rfl
  simp only [CopyExact, SfcCopy, hargs, if_neg hlen, true_and]
  constructor
  · rintro ⟨mem', ⟨s, hword, -⟩, -⟩
    by_contra hge
    exact wordLoop_not_exits (Nat.not_lt.mp hge) s hword
  · intro hlt
    obtain ⟨s, hword, hs⟩ := Loop.exits_of_measure
      (fun s : CopyState => len.toNat - s.i.toNat)
      (fun _ h => CopyInv.wordStep h hlt)
      (copyInv_start src dst len mem)
    obtain ⟨mem', hbyte, hcopied⟩ := Loop.exits_of_measure
      (fun s : CopyState => len.toNat - s.i.toNat) (fun _ h => CopyInv.byteStep h) hs
    exact ⟨mem', ⟨s, hword, hbyte⟩, hcopied⟩

/-- Seven bytes from the flash window to the external memory. -/
theorem sfc_copy_exact_demo : CopyExact (fun _ => 0) 0x70000000 0x80200000 7 :=
  (sfc_copy_exact_iff _ _ _ (by decide)).mpr (by decide)

/-- With a length of 2^32 - 4 the index goes around. -/
theorem sfc_copy_hangs :
    ¬∃ ret mem', SfcCopy (fun _ => 0) [0x70000000, 0x80200000, 0xfffffffc] ret mem' := by
  rintro ⟨ret, mem', -, s, hword, -⟩
  exact wordLoop_not_exits (by decide) s hword

end SwmLvgl.Sfc
