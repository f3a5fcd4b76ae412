import SwmLvgl.MemheapAlloc
import SwmLvgl.MemheapFree

/-! What `rt_memheap_realloc` does to a block that stays where it is: it grows into the free block behind
it, or gives up its last bytes. -/

namespace SwmLvgl.Memheap

open Blocks Rings

variable {s : State} {hp k : Nat} {P : Pool} {bs xs ys : List Block} {b c : Block} {fs fs₁ fs₂ : List Nat}

/-- A block in the place of another one, with more or less bytes. -/
structure Resized (k : Nat) (bs bs' : List Block) (b b' : Block) : Prop where
  addr : b'.addr = b.addr
  used : b'.used = true
  size_le : k ≤ b'.size
  blocks : ∀ c : Block, c.used = true → (c ∈ bs' ↔ (c ∈ bs ∧ c ≠ b) ∨ c = b')

theorem growItem_spec (h : Holds s hp P (xs ++ b :: c :: ys) (fs₁ ++ c.addr :: fs₂)) (hb : b.used = true)
    (hc : c.used = false) (hk8 : 8 ∣ k) (hbk : b.size < k) (hk : k + 16 < c.size + b.size) :
    Holds (s.growItem hp b.addr b.size k) hp P
        (xs ++ ⟨b.addr, k, true⟩ :: restOf ⟨b.addr, b.size + 24 + c.size, true⟩ k :: ys)
        ((restOf ⟨b.addr, b.size + 24 + c.size, true⟩ k).addr :: (fs₁ ++ fs₂)) ∧
      Frame (Touched P (xs ++ b :: c :: ys)
        (xs ++ ⟨b.addr, k, true⟩ :: restOf ⟨b.addr, b.size + 24 + c.size, true⟩ k :: ys)) hp s
        (s.growItem hp b.addr b.size k) := by
  have hitems : Items s hp P ((xs ++ [b]) ++ c :: ys) := by simpa using h.items
  have hnext : s.next b.addr = c.addr := h.items.next_addr
  have hprev : s.prev c.addr = b.addr := h.items.prev_addr
  have hfar : Footprint P (xs ++ b :: c :: ys) (s.next c.addr) := by simpa using hitems.next_footprint
  have hfarne : c.addr ≠ s.next c.addr := by
    rw [hitems.next_eq]
    omega
  have hsize := h.items.sizes b (by simp)
  have hpool := h.items.freeSize_le
  have hlt := P.poolSize_lt
  have hsum : freeSize (xs ++ b :: c :: ys) = freeSize xs + freeSize ys + c.size := by
    simp only [freeSize_append, freeSize_cons, hb, hc, if_true, Bool.false_eq_true, if_false]
    omega
  have havail : u32 (((s.heap hp).availableSize : Int) - ((k : Int) - b.size)) =
      freeSize xs + freeSize ys + (b.size + c.size - k) := by
    rw [h.record.available]
    exact u32_eq (by omega) (by omega)
  have hperm : (fs₁ ++ fs₂).Perm (frees xs ++ frees ys) := by
    have hperm := h.perm
    simp only [frees_append, frees_cons, hb, hc, if_true, Bool.false_eq_true, if_false] at hperm
    exact (List.perm_middle.symm.trans (hperm.trans List.perm_middle)).cons_inv
  have h₀ := h.parts (xs ++ ⟨b.addr, k, true⟩ :: restOf ⟨b.addr, b.size + 24 + c.size, true⟩ k :: ys)
  have h₁ := (h₀.setAvailable (a := freeSize xs + freeSize ys + (b.size + c.size - k)) (by omega)).unlinkFree
  generalize ht : (s.setAvailable hp (freeSize xs + freeSize ys + (b.size + c.size - k))).unlinkFree c.addr = t
    at h₁
  have htnext : t.next = s.next := by simp [← ht]
  have htprev : t.prev = s.prev := by simp [← ht]
  have h₂ := h₁.join (t := (t.setPrev (s.next c.addr) b.addr).setNext b.addr (s.next c.addr))
    rfl rfl (by simp [htnext, htprev, hprev]) (by simp [htnext, htprev, hprev]) rfl rfl rfl
    ((Frame.setPrev (h₁.inside _ hfar)).trans (Frame.setNext (h₁.inside _ (footprint_mem (b := b) (by simp)))))
  rw [hb] at h₂
  have hroom : k + 24 + 16 ≤ b.size + 24 + c.size := by omega
  have hD : Touched P (xs ++ b :: c :: ys)
      (xs ++ ⟨b.addr, k, true⟩ :: restOf ⟨b.addr, b.size + 24 + c.size, true⟩ k :: ys)
      (restOf ⟨b.addr, b.size + 24 + c.size, true⟩ k).addr := .inr (footprint_mem (by simp))
  have h₃ := h₂.newItem hroom hk8 (by omega) hD
  have hnew : (restOf ⟨b.addr, b.size + 24 + c.size, true⟩ k).addr ∉ P.freeList :: (fs₁ ++ fs₂) := by
    refine h₂.items.new_notMem hroom fun a ha => ?_
    have hmem : a ∈ frees (xs ++ ⟨b.addr, b.size + 24 + c.size, true⟩ :: ys) := by
      simpa using hperm.mem_iff.mp ha
    obtain ⟨d, hd, -, heq⟩ := mem_frees.mp hmem
    exact .inr (.inr ⟨d, hd, heq⟩)
  have h₄ := h₃.linkFree hnew hD
  have hgrow : s.growItem hp b.addr b.size k =
      (((t.setPrev (s.next c.addr) b.addr).setNext b.addr (s.next c.addr)).newItem hp b.addr k).linkFree
        P.freeList (b.addr + k + memheapSize) := by
    have hfreeList := h₃.record.freeList
    simp only [State.growItem, havail, State.setAvailable_fields, hnext, ht, htnext, htprev, hprev,
      State.setPrev_fields, Function.update_of_ne hfarne, State.setNext_fields, State.newItem_fields]
      at hfreeList ⊢
    rw [hfreeList]
  have hsum' : freeSize (xs ++ ⟨b.addr, k, true⟩ :: restOf ⟨b.addr, b.size + 24 + c.size, true⟩ k :: ys) =
      freeSize xs + freeSize ys + (b.size + c.size - k) := by
    simp only [freeSize_append, freeSize_cons, restOf_used, restOf_size, if_true, Bool.false_eq_true, if_false]
    omega
  obtain ⟨hxs, hys⟩ := coalesced_split.mp h.coalesced
  rw [hgrow]
  rw [← hsum'] at h₄
  refine ⟨h₄.holds (Nat.le_refl _) ?_ ?_, h₄.frame⟩
  · simpa using (hperm.cons _).trans List.perm_middle.symm
  · refine coalesced_split.mpr ⟨hxs.concat fun _ => rfl, coalesced_cons_used rfl ?_⟩
    refine Coalesced.cons_imp (b := c) hys.tail ?_
    rw [hc]
    simp

/-- A block grows when the one behind it is free and large enough. -/
theorem growItem_resized (h : Holds s hp P bs fs) (hb : b ∈ bs) (hused : b.used = true) (hk8 : 8 ∣ k)
    (hksize : k ≤ 2 ^ 32 - 24) (hgrow : b.size < k)
    (hroom : ¬s.isUsed (s.next b.addr) ∧
      u32 ((k : Int) + memheapMinialloc) < u32 ((s.memitemSize (s.next b.addr) : Int) + b.size)) :
    ∃ bs' fs' b', Resized k bs bs' b b' ∧ Holds (s.growItem hp b.addr b.size k) hp P bs' fs' ∧
      Frame (Touched P bs bs') hp s (s.growItem hp b.addr b.size k) := by
  obtain ⟨hfree, hsum⟩ := hroom
  obtain ⟨xs, ys, rfl⟩ := List.append_of_mem hb
  rcases h.items.next_cases with ⟨c, zs, rfl, hnext⟩ | ⟨-, hnext⟩
  · have hc : c ∈ xs ++ b :: c :: zs := by simp
    have hcaddr := h.items.addr_le hc
    have hbc := h.items.tiles.addr_next
    have hcfree : c.used = false := by
      rw [hnext, h.items.isUsed_iff hc] at hfree
      simpa using hfree
    rw [memheapSize_eq] at hbc
    rw [hnext, h.items.memitemSize_eq hc, memheapMinialloc_eq, u32_eq (n := k + 16) (by push_cast; rfl)
      (by omega), u32_eq (n := c.size + b.size) (by push_cast; rfl) (by omega)] at hsum
    obtain ⟨fs₁, fs₂, rfl⟩ := h.exists_ring hc hcfree
    obtain ⟨hholds, hframe⟩ := growItem_spec h hused hcfree hk8 hgrow hsum
    refine ⟨_, _, ⟨b.addr, k, true⟩, ⟨rfl, rfl, Nat.le_refl k, fun e he => ?_⟩, hholds, hframe⟩
    have hec : e ≠ c := by
      rintro rfl
      rw [hcfree] at he
      cases he
    have her : e ≠ restOf ⟨b.addr, b.size + 24 + c.size, true⟩ k := by
      rintro rfl
      cases he
    have heb : e ∈ xs ∨ e ∈ c :: zs → e ≠ b := by
      rintro hside rfl
      exact h.items.ne_of_sides hside rfl
    simp only [List.mem_append, List.mem_cons, hec, her] at heb ⊢
    tauto
  · rw [hnext] at hfree
    exact absurd h.items.isUsed_tail hfree

/-- A free block that is not in the ring takes in the free block behind it, which is; the bytes of the
latter are not available then. -/
theorem absorbNext_spec {D : Nat → Prop} {s₀ : State} {low : Nat}
    (h : Parts D s₀ s hp P (xs ++ b :: ys) fs (freeSize xs + freeSize ys) low) (hb : b.used = false)
    (hperm : fs.Perm (frees xs ++ frees ys)) (hxs : Coalesced (xs ++ [b])) (hys : Coalesced ys) :
    ∃ d zs fs', d.addr = b.addr ∧
      Parts D s₀ (s.absorbNext hp b.addr) hp P (xs ++ d :: zs) fs' (freeSize xs + freeSize zs) low ∧
      d.used = false ∧ fs'.Perm (frees xs ++ frees zs) ∧ Coalesced (xs ++ d :: zs) ∧
      freeSize ys + b.size ≤ freeSize zs + d.size ∧ ∀ e : Block, e.used = true → (e ∈ zs ↔ e ∈ ys) := by
  rcases h.items.next_cases with ⟨c, zs, rfl, hnext⟩ | ⟨rfl, hnext⟩
  · have hitems : Items s hp P ((xs ++ [b]) ++ c :: zs) := by simpa using h.items
    have hused := h.items.isUsed_iff (b := c) (by simp)
    by_cases hcu : c.used = true
    · have hsame : s.absorbNext hp b.addr = s := by
        rw [State.absorbNext, if_pos (by rw [hnext]; exact hused.mpr hcu)]
      rw [hsame]
      exact ⟨b, c :: zs, fs, rfl, h, hb, hperm,
        coalesced_split.mpr ⟨hxs, List.isChain_cons_cons.mpr ⟨.inr hcu, hys⟩⟩, Nat.le_refl _, fun e _ => Iff.rfl⟩
    · have hcf : c.used = false := by simpa using hcu
      have hprev : s.prev c.addr = b.addr := h.items.prev_addr
      have hsize : s.memitemSize c.addr = c.size := h.items.memitemSize_eq (by simp)
      have hfar : Footprint P (xs ++ b :: c :: zs) (s.next c.addr) := by
        simpa using hitems.next_footprint
      have hfrees : frees xs ++ frees (c :: zs) = frees xs ++ c.addr :: frees zs := by simp [hcf]
      have hsum : freeSize (c :: zs) = c.size + freeSize zs := by simp [hcf]
      have hpool := h.items.freeSize_le
      have hlt := P.poolSize_lt
      rw [freeSize_append, freeSize_cons, hb, if_neg (by simp)] at hpool
      rw [hfrees] at hperm
      have hmem : c.addr ∈ fs := hperm.mem_iff.mpr (by simp)
      obtain ⟨fs₁, fs₂, rfl⟩ := List.append_of_mem hmem
      have h₁ := h.addAvailable (a := freeSize xs + freeSize zs) (n := -(s.memitemSize c.addr : Int))
        (by rw [hsize, hsum]; push_cast; omega) (by omega)
      have h₂ := h₁.join (t := ((s.addAvailable hp (-(s.memitemSize c.addr : Int))).setPrev (s.next c.addr)
        b.addr).setNext b.addr (s.next c.addr)) rfl rfl (by simp [hprev]) (by simp [hprev]) rfl rfl rfl
        ((Frame.setPrev (h.inside _ hfar)).trans (Frame.setNext (h.inside _ (footprint_mem (b := b) (by simp)))))
      have habsorb : s.absorbNext hp b.addr = State.unlinkFree (((s.addAvailable hp
          (-(s.memitemSize c.addr : Int))).setPrev (s.next c.addr) b.addr).setNext b.addr (s.next c.addr))
          c.addr := by
        rw [State.absorbNext, if_neg (by rw [hnext]; exact mt hused.mp hcu)]
        simp only [hnext, State.addAvailable_fields, State.setPrev_fields]
      rw [habsorb]
      refine ⟨⟨b.addr, b.size + 24 + c.size, b.used⟩, zs, fs₁ ++ fs₂, rfl, h₂.unlinkFree, hb, ?_,
        coalesced_split.mpr ⟨hxs.concat fun hu => hu, hys.cons_imp fun hu => absurd hu hcu⟩, ?_, fun e he => ?_⟩
      · exact (List.perm_middle.symm.trans (hperm.trans List.perm_middle)).cons_inv
      · rw [hsum]
        show c.size + freeSize zs + b.size ≤ freeSize zs + (b.size + 24 + c.size)
        omega
      · have hec : e ≠ c := by
          rintro rfl
          exact hcu he
        simp [hec]
  · have hsame : s.absorbNext hp b.addr = s := by
      rw [State.absorbNext, if_pos (by rw [hnext]; exact h.items.isUsed_tail)]
    rw [hsame]
    exact ⟨b, [], fs, rfl, h, hb, hperm, hxs, Nat.le_refl _, fun e _ => Iff.rfl⟩

theorem shrinkItem_spec (h : Holds s hp P bs fs) (hb : b ∈ bs) (hused : b.used = true) (hk8 : 8 ∣ k)
    (hk16 : 16 ≤ k) (hk : k + 40 ≤ b.size) :
    ∃ bs' fs' b', Resized k bs bs' b b' ∧ Holds (s.shrinkItem hp b.addr k) hp P bs' fs' ∧
      Frame (Touched P bs bs') hp s (s.shrinkItem hp b.addr k) := by
  have hlt := P.poolSize_lt
  obtain ⟨xs, ys, rfl⟩ := List.append_of_mem hb
  have hperm : fs.Perm (frees xs ++ frees ys) := by simpa [hused] using h.perm
  have hsum : freeSize (xs ++ b :: ys) = freeSize xs + freeSize ys := by simp [hused]
  obtain ⟨hxs, hys⟩ := coalesced_split.mp h.coalesced
  -- the new item is in no list of blocks yet
  have h₀ : Parts (fun a => Touched P (xs ++ b :: ys) (xs ++ b :: ys) a ∨ a = (restOf b k).addr) s s hp P
      (xs ++ b :: ys) fs (freeSize xs + freeSize ys) (freeSize xs + freeSize ys) := by
    rw [← hsum]
    have hparts := h.parts (xs ++ b :: ys)
    exact { hparts with
      frame := .refl
      inside := fun a ha => .inl (hparts.inside a ha)
      ring_inside := fun a ha => .inl (hparts.ring_inside a ha) }
  have hcut : xs ++ ⟨b.addr, k, b.used⟩ :: restOf b k :: ys =
      (xs ++ [⟨b.addr, k, b.used⟩]) ++ restOf b k :: ys := List.append_cons _ _ _
  have hfrees : frees (xs ++ [⟨b.addr, k, b.used⟩]) = frees xs := by simp [hused, frees]
  have hfreeSize : freeSize (xs ++ [⟨b.addr, k, b.used⟩]) = freeSize xs := by simp [hused, freeSize]
  have hxs' : Coalesced ((xs ++ [⟨b.addr, k, b.used⟩]) ++ [restOf b k]) := by
    rw [List.append_assoc]
    exact coalesced_split.mpr ⟨hxs.concat fun hu => hu, coalesced_cons_used hused (.singleton _)⟩
  have hys' : Coalesced ys := hys.tail
  have h₁ := h₀.newItem hk hk8 hk16 (.inr rfl)
  rw [hcut] at h₁
  obtain ⟨d, zs, fs', hd, h₂, hdfree, hperm', hcoalesced, hle, hzs⟩ := absorbNext_spec
    (by rw [hfreeSize]; exact h₁) rfl (by rw [hfrees]; exact hperm) hxs' hys'
  rw [hfrees] at hperm'
  rw [hfreeSize] at h₂
  have hmem : ∀ a ∈ fs', a ∈ frees ((xs ++ [⟨b.addr, k, b.used⟩]) ++ zs) := by
    intro a ha
    simpa [hused] using hperm'.mem_iff.mp ha
  have hnew : (restOf b k).addr ∉ P.freeList :: fs' := by
    rw [List.mem_cons, ← hd]
    rintro (heq | hin)
    · exact h₂.items.ne_freeList (by simp) heq
    · obtain ⟨e, he, -, heq⟩ := mem_frees.mp (hmem _ hin)
      exact h₂.items.ne_of_sides (List.mem_append.mp he) heq
  have h₃ := h₂.linkFree hnew (.inr rfl)
  have hdsize : (((s.newItem hp b.addr k).absorbNext hp (restOf b k).addr).linkFree P.freeList
      (restOf b k).addr).memitemSize (restOf b k).addr = d.size := by
    have hd' := h₃.items.memitemSize_eq (b := d) (by simp)
    rwa [hd] at hd'
  have hsum' : freeSize ((xs ++ [⟨b.addr, k, b.used⟩]) ++ d :: zs) = freeSize xs + freeSize zs + d.size := by
    rw [freeSize_append, hfreeSize, freeSize_cons, hdfree, if_neg (by simp)]
    omega
  have hpool := h₃.items.freeSize_le
  have h₄ := h₃.addAvailable (a := freeSize xs + freeSize zs + d.size) (n := (d.size : Int))
    (by push_cast; rfl) (by omega)
  have hshrink : s.shrinkItem hp b.addr k = State.addAvailable (((s.newItem hp b.addr k).absorbNext hp
      (restOf b k).addr).linkFree P.freeList (restOf b k).addr) hp d.size := by
    have hfreeList := h₂.record.freeList
    rw [restOf_addr] at hfreeList hdsize ⊢
    simp only [State.shrinkItem, hfreeList, hdsize]
  have hb' : (⟨b.addr, k, b.used⟩ : Block) = ⟨b.addr, k, true⟩ := by rw [hused]
  rw [hb'] at h₄ hsum' hcoalesced
  rw [hshrink]
  refine ⟨(xs ++ [⟨b.addr, k, true⟩]) ++ d :: zs, (restOf b k).addr :: fs', ⟨b.addr, k, true⟩,
    ⟨rfl, rfl, Nat.le_refl k, fun e he => ?_⟩, ?_, ?_⟩
  · have hed : e ≠ d := by
      rintro rfl
      rw [hdfree] at he
      cases he
    have heb : e ∈ xs ∨ e ∈ ys → e ≠ b := by
      rintro hside rfl
      exact h.items.ne_of_sides hside rfl
    simp only [List.mem_append, List.mem_cons, List.not_mem_nil, hzs e he, hed]
    tauto
  · rw [← hsum'] at h₄
    refine h₄.holds ?_ ?_ hcoalesced
    · rw [hsum']
      omega
    · simpa [hdfree, hd] using (hperm'.cons _).trans List.perm_middle.symm
  · refine h₄.frame.mono fun a ha => ?_
    rcases ha with ha | rfl
    · exact .inl (ha.elim id id)
    · rw [← hd]
      exact .inr (footprint_mem (by simp))

end SwmLvgl.Memheap
