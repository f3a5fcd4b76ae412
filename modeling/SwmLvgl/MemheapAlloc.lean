import SwmLvgl.MemheapSteps

/-! `rt_memheap_alloc`: the search of a free block, and what is taken of it. -/

namespace SwmLvgl.Memheap

open Blocks Rings

variable {s : State} {hp : Nat} {P : Pool} {bs xs ys : List Block} {b : Block} {fs fs₁ fs₂ : List Nat}

/-- The search from an item of the ring on ends at the first one that is large enough, or back at the
header, with the size of an item that is too small. -/
theorem search_spec {r size n k : Nat} (h : Ring s.nextFree s.prevFree r (fs₁ ++ fs₂)) (hk : k < size)
    (hn : fs₂.length + 2 ≤ n) :
    (∃ j, Loop.run (s.searchStep r size) n ((fs₂ ++ [r]).head (by simp), k) = some (r, j) ∧ j < size ∧
        ∀ p ∈ fs₂, s.memitemSize p < size) ∨
      ∃ as p cs, fs₂ = as ++ p :: cs ∧ (∀ a ∈ as, s.memitemSize a < size) ∧ size ≤ s.memitemSize p ∧
        Loop.run (s.searchStep r size) n ((fs₂ ++ [r]).head (by simp), k) = some (p, s.memitemSize p) := by
  induction fs₂ generalizing fs₁ k n with
  | nil =>
      obtain ⟨n, rfl⟩ : ∃ m, n = m + 1 := ⟨n - 1, by omega⟩
      refine .inl ⟨k, Loop.run_succ_of_inr ?_ n, hk, fun p hp => absurd hp (List.not_mem_nil)⟩
      rw [State.searchStep, if_neg (by simp)]
      rfl
  | cons p fs₂ ih =>
      rw [List.length_cons] at hn
      obtain ⟨n, rfl⟩ : ∃ m, n = m + 1 := ⟨n - 1, by omega⟩
      have hlen : fs₂.length + 2 ≤ n := by omega
      have hne : p ≠ r := by
        rintro rfl
        exact h.notMem List.mem_cons_self
      have hnext : s.nextFree p = (fs₂ ++ [r]).head (by simp) := h.next_node
      have hstep : s.searchStep r size (p, k) =
          .inl (if s.memitemSize p < size then s.nextFree p else p, s.memitemSize p) := by
        rw [State.searchStep, if_pos ⟨hne, hk⟩]
      have hrun := Loop.run_succ_of_inl hstep n
      show (∃ j, Loop.run _ _ (p, k) = _ ∧ _) ∨ ∃ as q cs, _ ∧ _ ∧ _ ∧ Loop.run _ _ (p, k) = _
      rw [hrun]
      by_cases hsmall : s.memitemSize p < size
      · rw [if_pos hsmall, hnext]
        rw [List.append_cons] at h
        rcases ih h hsmall hlen with ⟨j, hj, hjsize, hall⟩ |
          ⟨as, q, cs, rfl, has, hq, hfound⟩
        · exact .inl ⟨j, hj, hjsize, List.forall_mem_cons.mpr ⟨hsmall, hall⟩⟩
        · exact .inr ⟨p :: as, q, cs, rfl, List.forall_mem_cons.mpr ⟨hsmall, has⟩, hq, hfound⟩
      · rw [if_neg hsmall]
        obtain ⟨n, rfl⟩ : ∃ m, n = m + 1 := ⟨n - 1, by omega⟩
        refine .inr ⟨[], p, fs₂, rfl, fun a ha => absurd ha (List.not_mem_nil), Nat.le_of_not_lt hsmall, ?_⟩
        apply Loop.run_succ_of_inr
        rw [State.searchStep, if_neg fun hgo => hsmall hgo.2]

theorem freeSize_middle (xs ys : List Block) (hfree : b.used = false) :
    freeSize (xs ++ b :: ys) = freeSize xs + freeSize ys + b.size := by
  rw [freeSize_append, freeSize_cons, hfree, if_neg (by simp)]
  omega

section TakeItem

variable {k : Nat} (h : Holds s hp P (xs ++ b :: ys) (fs₁ ++ b.addr :: fs₂)) (hfree : b.used = false)

include h hfree

theorem frees_perm : (fs₁ ++ fs₂).Perm (frees xs ++ frees ys) := by
  have hperm := h.perm
  rw [frees_append, frees_cons, hfree, if_neg (by simp)] at hperm
  exact (List.perm_middle.symm.trans (hperm.trans List.perm_middle)).cons_inv

/-- The whole block is taken. -/
theorem takeItem_whole (hk : b.size < k + 40) (hkb : k ≤ b.size) :
    Holds (s.takeItem hp b.addr k b.size) hp P (xs ++ { b with used := true } :: ys) (fs₁ ++ fs₂) ∧
      Frame (Touched P (xs ++ b :: ys) (xs ++ { b with used := true } :: ys)) hp s
        (s.takeItem hp b.addr k b.size) := by
  have hb : b ∈ xs ++ b :: ys := by simp
  have haddr := h.items.addr_le hb
  have hsum := freeSize_middle xs ys hfree
  have hpool := h.items.freeSize_le
  have hlt := P.poolSize_lt
  have hcut : ¬u32 ((k : Int) + memheapSize + memheapMinialloc) ≤ b.size := by
    rw [memheapSize_eq, memheapMinialloc_eq, u32_eq (n := k + 40) (by push_cast; omega) (by omega)]
    omega
  have havail : u32 (((s.heap hp).availableSize : Int) - b.size) = freeSize xs + freeSize ys := by
    rw [h.record.available]
    exact u32_eq (by omega) (by omega)
  have h₀ := h.parts (xs ++ { b with used := true } :: ys)
  have h₁ := h₀.setAvailable (a := freeSize xs + freeSize ys) (by omega)
  have h₂ := h₁.unlinkFree.clearFree h.ring.notMem (.inl (footprint_mem hb))
  have h₃ := h₂.mark true
  simp only [State.takeItem, if_neg hcut, havail]
  refine ⟨⟨h₃.items, h₃.ring, ?_, ?_, h.coalesced.middle fun _ => rfl⟩, h₃.frame⟩
  · simpa using h₃.record
  · simpa using frees_perm h hfree

/-- The block is cut, and its first part is taken. -/
theorem takeItem_cut (hk : k + 40 ≤ b.size) (hk8 : 8 ∣ k) (hk16 : 16 ≤ k) :
    Holds (s.takeItem hp b.addr k b.size) hp P (xs ++ ⟨b.addr, k, true⟩ :: restOf b k :: ys)
        ((restOf b k).addr :: (fs₁ ++ fs₂)) ∧
      Frame (Touched P (xs ++ b :: ys) (xs ++ ⟨b.addr, k, true⟩ :: restOf b k :: ys)) hp s
        (s.takeItem hp b.addr k b.size) := by
  have hb : b ∈ xs ++ b :: ys := by simp
  have haddr := h.items.addr_le hb
  have hsum := freeSize_middle xs ys hfree
  have hpool := h.items.freeSize_le
  have hlt := P.poolSize_lt
  have hcut : u32 ((k : Int) + memheapSize + memheapMinialloc) ≤ b.size := by
    rw [memheapSize_eq, memheapMinialloc_eq, u32_eq (n := k + 40) (by push_cast; omega) (by omega)]
    omega
  have havail : u32 (((s.heap hp).availableSize : Int) - k - memheapSize) =
      freeSize xs + freeSize ys + (b.size - k - 24) := by
    rw [h.record.available, memheapSize_eq]
    exact u32_eq (by omega) (by omega)
  have hnew : (restOf b k).addr ∉ P.freeList :: (fs₁ ++ fs₂) := by
    refine h.items.new_notMem hk fun a ha => h.footprint_of_ring ?_
    simp only [List.mem_append, List.mem_cons] at ha ⊢
    tauto
  have h₀ := h.parts (xs ++ ⟨b.addr, k, true⟩ :: restOf b k :: ys)
  have hD : Touched P (xs ++ b :: ys) (xs ++ ⟨b.addr, k, true⟩ :: restOf b k :: ys) (restOf b k).addr :=
    .inr (footprint_mem (by simp))
  have h₁ := h₀.newItem hk hk8 hk16 hD
  have h₂ := h₁.unlinkFree.clearFree h.ring.notMem (.inl (footprint_mem hb))
  have h₃ := h₂.linkFree hnew hD
  have h₄ := h₃.setAvailable (a := freeSize xs + freeSize ys + (b.size - k - 24)) (by omega)
  have h₅ := h₄.mark true
  simp only [State.takeItem, if_pos hcut, State.linkFree_fields, State.setPrevFree_fields,
    State.setNextFree_fields, State.unlinkFree_fields, State.newItem_fields, h.record.freeList, havail]
  refine ⟨⟨h₅.items, h₅.ring, ?_, ?_, ?_⟩, h₅.frame⟩
  · have hrecord := h₅.record
    simpa [Nat.add_assoc, Nat.add_comm, Nat.add_left_comm] using hrecord
  · simpa using ((frees_perm h hfree).cons _).trans List.perm_middle.symm
  · obtain ⟨hxs, hys⟩ := coalesced_split.mp h.coalesced
    refine coalesced_split.mpr ⟨hxs.concat fun _ => rfl, coalesced_cons_used rfl (hys.cons_imp ?_)⟩
    rw [hfree]
    simp

end TakeItem

theorem requestSize_spec (size : Nat) (h : size ≤ 2 ^ 32 - 8) :
    8 ∣ requestSize size ∧ 16 ≤ requestSize size ∧ size ≤ requestSize size ∧
      requestSize size ≤ max 16 (size + 7) := by
  have hround : rtAlign size rtAlignSize = (size + 7) / 8 * 8 := by
    rw [rtAlign, rtAlignSize, u32_eq (n := size + 7) (by push_cast; omega) (by omega)]
  simp only [requestSize, hround, memheapMinialloc_eq]
  split <;> omega

/-- What an allocation gives: a used block in the place of a free one. -/
structure Allocated (size : Nat) (bs bs' : List Block) (b : Block) : Prop where
  used : b.used = true
  size_le : size ≤ b.size
  place : b.addr ∈ frees bs
  fresh : ∀ c ∈ bs, c.used = true → c.addr ≠ b.addr
  blocks : ∀ c : Block, c.used = true → (c ∈ bs' ↔ c ∈ bs ∨ c = b)

theorem takeItem_spec {k : Nat} (h : Holds s hp P bs fs) (hb : b ∈ bs) (hfree : b.used = false)
    (hk8 : 8 ∣ k) (hk16 : 16 ≤ k) (hk : k ≤ b.size) :
    ∃ bs' fs' c, c.addr = b.addr ∧ Allocated k bs bs' c ∧ Holds (s.takeItem hp b.addr k b.size) hp P bs' fs' ∧
      Frame (Touched P bs bs') hp s (s.takeItem hp b.addr k b.size) := by
  have hfresh : ∀ c ∈ bs, c.used = true → c.addr ≠ b.addr := by
    intro c hc hused heq
    rw [h.items.ext hc hb heq, hfree] at hused
    cases hused
  have hplace : b.addr ∈ frees bs := addr_mem_frees hb hfree
  obtain ⟨fs₁, fs₂, rfl⟩ := h.exists_ring hb hfree
  obtain ⟨xs, ys, rfl⟩ := List.append_of_mem hb
  have hne : ∀ c : Block, c.used = true → c ≠ b := by
    rintro c hused rfl
    exact hfresh c hb hused rfl
  by_cases hcut : k + 40 ≤ b.size
  · obtain ⟨hholds, hframe⟩ := takeItem_cut h hfree hcut hk8 hk16
    refine ⟨_, _, ⟨b.addr, k, true⟩, rfl, ⟨rfl, Nat.le_refl k, hplace, hfresh, fun c hused => ?_⟩, hholds, hframe⟩
    have hrest : c ≠ restOf b k := by
      rintro rfl
      cases hused
    simp only [List.mem_append, List.mem_cons, hne c hused, hrest]
    tauto
  · obtain ⟨hholds, hframe⟩ := takeItem_whole h hfree (by omega) hk
    refine ⟨_, _, { b with used := true }, rfl, ⟨rfl, hk, hplace, hfresh, fun c hused => ?_⟩, hholds, hframe⟩
    simp only [List.mem_append, List.mem_cons, hne c hused]
    tauto

/-- A request for `k` bytes can be met: there is a free block that is large enough, and the whole of the
free bytes is larger. -/
def Fits (k : Nat) (bs : List Block) : Prop :=
  k < freeSize bs ∧ ∃ b ∈ bs, b.used = false ∧ k ≤ b.size

/-- `rt_memheap_alloc` gives a block if and only if one fits; it changes nothing when it gives none. -/
theorem rtMemheapAlloc_spec {size : Nat} (h : Holds s hp P bs fs) (hsize : size ≤ 2 ^ 32 - 8) :
    (s.rtMemheapAlloc hp size = .ok (none, s) ∧ ¬Fits (requestSize size) bs) ∨
      ∃ s' bs' fs' b, s.rtMemheapAlloc hp size = .ok (some (b.addr + 24), s') ∧
        Fits (requestSize size) bs ∧ Allocated (requestSize size) bs bs' b ∧ Holds s' hp P bs' fs' ∧
        Frame (Touched P bs bs') hp s s' := by
  obtain ⟨hk8, hk16, -, -⟩ := requestSize_spec size hsize
  have hlen : fs.length + 2 ≤ (s.heap hp).poolSize + 2 := by
    have hperm := h.perm.length_eq
    have hle := h.items.freeSize_le
    have hfilter : (frees bs).length ≤ bs.length := by
      rw [frees, List.length_map]
      exact List.length_filter_le _ bs
    rw [h.record.poolSize]
    omega
  have hhead : s.nextFree P.freeList = (fs ++ [P.freeList]).head (by simp) := h.ring.next_header
  have hsearch := @search_spec s [] fs P.freeList (requestSize size) _ 0 h.ring (by omega) hlen
  by_cases hless : requestSize size < freeSize bs
  · rcases hsearch with ⟨j, hrun, hj, hall⟩ | ⟨as, p, cs, rfl, -, hp', hrun⟩
    · refine .inl ⟨?_, ?_⟩
      · simp only [State.rtMemheapAlloc, h.record.available, if_pos hless, h.record.freeList, hhead, hrun]
        rw [if_neg (Nat.not_le_of_lt hj)]
      · rintro ⟨-, b, hb, hfree, hle⟩
        have hmem : b.addr ∈ fs := h.perm.mem_iff.mpr (addr_mem_frees hb hfree)
        have hsmall := hall b.addr hmem
        rw [h.items.memitemSize_eq hb] at hsmall
        omega
    · obtain ⟨b, hb, hfree, rfl⟩ := h.mem_ring (p := p) (by simp)
      rw [h.items.memitemSize_eq hb] at hp' hrun
      obtain ⟨bs', fs', c, hc, halloc, hholds, hframe⟩ := takeItem_spec h hb hfree hk8 hk16 hp'
      refine .inr ⟨_, bs', fs', c, ?_, ⟨hless, b, hb, hfree, hp'⟩, halloc, hholds, hframe⟩
      simp only [State.rtMemheapAlloc, h.record.available, if_pos hless, h.record.freeList, hhead, hrun]
      rw [if_pos hp', hc, memheapSize_eq]
  · refine .inl ⟨?_, fun hfit => hless hfit.1⟩
    simp only [State.rtMemheapAlloc, h.record.available, if_neg hless]

end SwmLvgl.Memheap
