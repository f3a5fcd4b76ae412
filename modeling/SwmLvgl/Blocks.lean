import Mathlib.Algebra.Order.Group.Nat
import Mathlib.Data.List.Chain
import Mathlib.Data.List.Nodup
import Mathlib.Data.List.Perm.Basic
import Mathlib.Tactic.Common

/-! Blocks of memory that follow each other, each a header of `g` bytes and a payload, used or free: the
state of an allocator with headers in its memory. A block is cut in two, and two neighbours are joined. -/

namespace SwmLvgl.Blocks

structure Block where
  addr : Nat
  size : Nat
  used : Bool
  deriving DecidableEq, Repr

/-- The blocks fill the addresses from `a` to `z`. -/
def Tiles (g : Nat) : Nat → List Block → Nat → Prop
  | a, [], z => a = z
  | a, b :: bs, z => b.addr = a ∧ Tiles g (a + g + b.size) bs z

variable {g a z : Nat} {b c : Block} {bs xs ys : List Block}

theorem tiles_append : Tiles g a (xs ++ ys) z ↔ ∃ m, Tiles g a xs m ∧ Tiles g m ys z := by
  induction xs generalizing a with
  | nil =>
      constructor
      · intro h
        exact ⟨a, rfl, h⟩
      · rintro ⟨m, rfl, h⟩
        exact h
  | cons x xs ih =>
      simp only [List.cons_append, Tiles, ih]
      constructor
      · rintro ⟨hx, m, hxs, hys⟩
        exact ⟨m, ⟨hx, hxs⟩, hys⟩
      · rintro ⟨m, ⟨hx, hxs⟩, hys⟩
        exact ⟨hx, m, hxs, hys⟩

theorem Tiles.le (h : Tiles g a bs z) : a ≤ z := by
  induction bs generalizing a with
  | nil => exact Nat.le_of_eq h
  | cons b bs ih =>
      have := ih h.2
      omega

theorem Tiles.mem_le (h : Tiles g a bs z) (hb : b ∈ bs) : a ≤ b.addr ∧ b.addr + g + b.size ≤ z := by
  obtain ⟨xs, ys, rfl⟩ := List.append_of_mem hb
  obtain ⟨m, hxs, rfl, hys⟩ := tiles_append.mp h
  exact ⟨hxs.le, hys.le⟩

/-- Blocks do not overlap. -/
theorem Tiles.pairwise (h : Tiles g a bs z) : bs.Pairwise fun b c => b.addr + g + b.size ≤ c.addr := by
  induction bs generalizing a with
  | nil => exact .nil
  | cons b bs ih =>
      obtain ⟨rfl, htail⟩ := h
      exact .cons (fun c hc => (htail.mem_le hc).1) (ih htail)

/-- Two different blocks lie one behind the other. -/
theorem Tiles.apart (h : Tiles g a bs z) (hb : b ∈ bs) (hc : c ∈ bs) (hne : b ≠ c) :
    b.addr + g + b.size ≤ c.addr ∨ c.addr + g + c.size ≤ b.addr := by
  obtain ⟨xs, ys, rfl⟩ := List.append_of_mem hb
  obtain ⟨-, hright, hleft⟩ := List.pairwise_append.mp h.pairwise
  rcases List.mem_append.mp hc with hc | hc
  · exact .inr (hleft c hc b List.mem_cons_self)
  · rcases List.mem_cons.mp hc with rfl | hc
    · exact absurd rfl hne
    · exact .inl ((List.pairwise_cons.mp hright).1 c hc)

theorem Tiles.nodup (h : Tiles g a bs z) (hg : 0 < g) : (bs.map Block.addr).Nodup := by
  rw [List.Nodup, List.pairwise_map]
  exact h.pairwise.imp fun hle => by omega

/-- A block is given by its address. -/
theorem Tiles.ext (h : Tiles g a bs z) (hg : 0 < g) (hb : b ∈ bs) (hc : c ∈ bs) (heq : b.addr = c.addr) :
    b = c := by
  by_contra hne
  rcases h.apart hb hc hne with hle | hle <;> omega

theorem forall_middle {p : Block → Prop} :
    (∀ c ∈ xs ++ b :: ys, p c) ↔ (∀ c ∈ xs, p c) ∧ p b ∧ ∀ c ∈ ys, p c := by
  rw [List.forall_mem_append, List.forall_mem_cons]

theorem Tiles.ne_of_sides (h : Tiles g a (xs ++ b :: ys) z) (hg : 0 < g) (hc : c ∈ xs ∨ c ∈ ys) :
    c.addr ≠ b.addr := by
  obtain ⟨-, hright, hleft⟩ := List.pairwise_append.mp h.pairwise
  rcases hc with hc | hc
  · have hle := hleft c hc b List.mem_cons_self
    omega
  · have hle := (List.pairwise_cons.mp hright).1 c hc
    omega

/-- What lies behind a block: the next one, or the end. -/
theorem Tiles.head (h : Tiles g a (xs ++ b :: ys) z) :
    (ys.map Block.addr ++ [z]).head (by simp) = b.addr + g + b.size := by
  obtain ⟨m, -, rfl, hys⟩ := tiles_append.mp h
  cases ys with
  | nil => exact hys.symm
  | cons c ys => exact hys.1

theorem Tiles.addr_next (h : Tiles g a (xs ++ b :: c :: ys) z) : c.addr = b.addr + g + b.size :=
  h.head

/-- A block is marked as used, or as free. -/
theorem Tiles.mark (h : Tiles g a (xs ++ b :: ys) z) (u : Bool) :
    Tiles g a (xs ++ { b with used := u } :: ys) z := by
  obtain ⟨m, hxs, hys⟩ := tiles_append.mp h
  exact tiles_append.mpr ⟨m, hxs, hys⟩

/-- A block is cut behind `k` bytes of its payload. -/
theorem Tiles.cut (h : Tiles g a (xs ++ b :: ys) z) {k : Nat} (hk : k + g ≤ b.size) (u v : Bool) :
    Tiles g a (xs ++ ⟨b.addr, k, u⟩ :: ⟨b.addr + g + k, b.size - k - g, v⟩ :: ys) z := by
  obtain ⟨m, hxs, rfl, hys⟩ := tiles_append.mp h
  refine tiles_append.mpr ⟨b.addr, hxs, rfl, rfl, ?_⟩
  have hstop : b.addr + g + k + g + (b.size - k - g) = b.addr + g + b.size := by omega
  show Tiles g (b.addr + g + k + g + (b.size - k - g)) ys z
  rw [hstop]
  exact hys

/-- A block is joined with the next one. -/
theorem Tiles.join (h : Tiles g a (xs ++ b :: c :: ys) z) (u : Bool) :
    Tiles g a (xs ++ ⟨b.addr, b.size + g + c.size, u⟩ :: ys) z := by
  obtain ⟨m, hxs, rfl, hc, hys⟩ := tiles_append.mp h
  refine tiles_append.mpr ⟨b.addr, hxs, rfl, ?_⟩
  have hstop : b.addr + g + (b.size + g + c.size) = b.addr + g + b.size + g + c.size := by omega
  show Tiles g (b.addr + g + (b.size + g + c.size)) ys z
  rw [hstop]
  exact hys

/-- The addresses of the free blocks. -/
def frees (bs : List Block) : List Nat := (bs.filter fun b => !b.used).map Block.addr

/-- The bytes in the payloads of the free blocks. -/
def freeSize : List Block → Nat
  | [] => 0
  | b :: bs => if b.used then freeSize bs else b.size + freeSize bs

@[simp] theorem frees_append : frees (xs ++ ys) = frees xs ++ frees ys := by simp [frees]

@[simp] theorem frees_cons : frees (b :: bs) = if b.used then frees bs else b.addr :: frees bs := by
  cases hb : b.used <;> simp [frees, hb]

@[simp] theorem freeSize_cons :
    freeSize (b :: bs) = if b.used then freeSize bs else b.size + freeSize bs := rfl

@[simp] theorem freeSize_append : freeSize (xs ++ ys) = freeSize xs + freeSize ys := by
  induction xs with
  | nil => exact (Nat.zero_add _).symm
  | cons b xs ih =>
      rw [List.cons_append, freeSize_cons, freeSize_cons, ih]
      split <;> omega

theorem mem_frees {p : Nat} : p ∈ frees bs ↔ ∃ b ∈ bs, b.used = false ∧ b.addr = p := by
  simp [frees, and_assoc]

theorem addr_mem_frees (hb : b ∈ bs) (hfree : b.used = false) : b.addr ∈ frees bs :=
  mem_frees.mpr ⟨b, hb, hfree, rfl⟩

/-- The bytes in the payloads of the used blocks. -/
def usedSize : List Block → Nat
  | [] => 0
  | b :: bs => if b.used then b.size + usedSize bs else usedSize bs

@[simp] theorem usedSize_cons :
    usedSize (b :: bs) = if b.used then b.size + usedSize bs else usedSize bs := rfl

/-- The payloads and a header for each block are the whole. -/
theorem Tiles.span (h : Tiles g a bs z) : a + g * bs.length + freeSize bs + usedSize bs = z := by
  induction bs generalizing a with
  | nil => exact h
  | cons b bs ih =>
      have htail := ih h.2
      rw [freeSize_cons, usedSize_cons, List.length_cons, Nat.mul_succ]
      split <;> omega

/-! ### Free blocks that are joined wherever they can be -/

/-- No free block follows a free block. -/
def Coalesced (bs : List Block) : Prop := bs.IsChain fun b c => b.used ∨ c.used

theorem coalesced_split :
    Coalesced (xs ++ b :: ys) ↔ Coalesced (xs ++ [b]) ∧ Coalesced (b :: ys) := List.isChain_split

theorem Coalesced.of_append (h : Coalesced (xs ++ ys)) : Coalesced xs ∧ Coalesced ys :=
  ⟨(List.isChain_append.mp h).1, (List.isChain_append.mp h).2.1⟩

/-- At the end of a list, only whether a block is used counts. -/
theorem Coalesced.concat (h : Coalesced (xs ++ [b])) (hc : b.used → c.used) : Coalesced (xs ++ [c]) := by
  obtain ⟨hxs, -, hjoin⟩ := List.isChain_append.mp h
  refine List.isChain_append.mpr ⟨hxs, .singleton c, fun x hx y hy => ?_⟩
  have hy' : c = y := by simpa using hy
  subst hy'
  exact (hjoin x hx b rfl).imp_right hc

theorem Coalesced.cons_imp (h : Coalesced (b :: xs)) (hc : b.used → c.used) : Coalesced (c :: xs) := by
  cases xs with
  | nil => exact .singleton c
  | cons x xs =>
      obtain ⟨hjoin, htail⟩ := List.isChain_cons_cons.mp h
      exact List.isChain_cons_cons.mpr ⟨hjoin.imp_left hc, htail⟩

/-- A block in the middle that is used more than the one before. -/
theorem Coalesced.middle (h : Coalesced (xs ++ b :: ys)) (hc : b.used → c.used) :
    Coalesced (xs ++ c :: ys) :=
  have hsplit := coalesced_split.mp h
  coalesced_split.mpr ⟨hsplit.1.concat hc, hsplit.2.cons_imp hc⟩

theorem coalesced_cons_used (hb : b.used) (h : Coalesced xs) : Coalesced (b :: xs) := by
  cases xs with
  | nil => exact .singleton b
  | cons x xs => exact List.isChain_cons_cons.mpr ⟨.inl hb, h⟩

/-- When all blocks are free, there is one. -/
theorem Coalesced.length_le (h : Coalesced bs) (hfree : ∀ b ∈ bs, b.used = false) : bs.length ≤ 1 := by
  match bs, h with
  | [], _ => exact Nat.zero_le 1
  | [b], _ => exact Nat.le_refl 1
  | b :: c :: bs, h =>
      have hjoin := (List.isChain_cons_cons.mp h).1
      simp [hfree b (by simp), hfree c (by simp)] at hjoin

end SwmLvgl.Blocks
