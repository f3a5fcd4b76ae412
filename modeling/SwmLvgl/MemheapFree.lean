import SwmLvgl.MemheapSteps

/-! `rt_memheap_free`: the block is joined with its free neighbours. -/

namespace SwmLvgl.Memheap

open Blocks Rings

variable {D : Nat → Prop} {s₀ s : State} {hp low : Nat} {P : Pool} {bs xs ys : List Block} {b c : Block}
  {fs : List Nat}

theorem freeSize_join (hb : b.used = false) (hc : c.used = false) :
    freeSize (xs ++ ⟨b.addr, b.size + 24 + c.size, b.used⟩ :: ys) = freeSize (xs ++ b :: c :: ys) + 24 := by
  simp only [freeSize_append, freeSize_cons, hb, hc, if_neg, Bool.false_eq_true, not_false_eq_true]
  omega

/-- The bytes of a header become available. -/
theorem Parts.addHeader (h : Parts D s₀ s hp P bs fs (freeSize bs) low) :
    Parts D s₀ (s.addAvailable hp memheapSize) hp P bs fs (freeSize bs + 24) low := by
  have hle := h.items.freeSize_le
  have hlt := P.poolSize_lt
  exact h.addAvailable (by rw [memheapSize_eq]; push_cast; rfl) (by omega)

/-- A free block is joined with the free block before it. -/
theorem mergePrev_join (h : Parts D s₀ s hp P (xs ++ c :: b :: ys) fs (freeSize (xs ++ c :: b :: ys)) low)
    (hb : b.used = false) (hc : c.used = false) :
    ∃ s', s.mergePrev hp b.addr = (c.addr, false, s') ∧
      Parts D s₀ s' hp P (xs ++ ⟨c.addr, c.size + 24 + b.size, c.used⟩ :: ys) fs
        (freeSize (xs ++ ⟨c.addr, c.size + 24 + b.size, c.used⟩ :: ys)) low := by
  have hitems : Items s hp P ((xs ++ [c]) ++ b :: ys) := by simpa using h.items
  have hprev : s.prev b.addr = c.addr := h.items.prev_addr
  have hbc : b.addr ≠ c.addr := h.items.ne_of_sides (.inr (by simp))
  have hbnext : b.addr ≠ s.next b.addr := by
    rw [hitems.next_eq]
    omega
  have hused : ¬s.isUsed c.addr := by
    rw [h.items.isUsed_iff (by simp), hc]
    simp
  have hnext : Footprint P (xs ++ c :: b :: ys) (s.next b.addr) := by simpa using hitems.next_footprint
  have h₁ := h.addHeader
  rw [freeSize_join hc hb]
  refine ⟨_, ?_, h₁.join (t := ((s.addAvailable hp memheapSize).setNext c.addr (s.next b.addr)).setPrev
    (s.next b.addr) c.addr) rfl rfl ?_ ?_ rfl rfl rfl ?_⟩
  · rw [State.mergePrev, hprev, if_neg hused]
    simp only [State.addAvailable_fields, State.setNext_fields, State.setPrev_fields, hprev,
      Function.update_of_ne hbc, Function.update_of_ne hbnext]
  · simp [hprev]
  · simp [hprev]
  · exact (Frame.setNext (h.inside _ (footprint_mem (by simp)))).trans (Frame.setPrev (h.inside _ hnext))

/-- The block that is freed, after the merge with the one before: it is in the ring if and only if there
was a merge. -/
theorem mergePrev_spec (h : Parts D s₀ s hp P (xs ++ b :: ys) fs (freeSize (xs ++ b :: ys)) low)
    (hfree : b.used = false) (hperm : fs.Perm (frees xs ++ frees ys)) (hxs : Coalesced xs) :
    ∃ ws c ins s', s.mergePrev hp b.addr = (c.addr, ins, s') ∧
      Parts D s₀ s' hp P (ws ++ c :: ys) fs (freeSize (ws ++ c :: ys)) low ∧ c.used = false ∧
      fs.Perm ((if ins then [] else [c.addr]) ++ (frees ws ++ frees ys)) ∧ Coalesced (ws ++ [c]) ∧
      freeSize (xs ++ b :: ys) ≤ freeSize (ws ++ c :: ys) ∧ ∀ d : Block, d.used = true → (d ∈ ws ↔ d ∈ xs) := by
  rcases h.items.prev_cases with ⟨ws, c, rfl, hprev⟩ | ⟨rfl, hprev⟩
  · have hused := h.items.isUsed_iff (b := c) (by simp)
    by_cases hcu : c.used = true
    · refine ⟨ws ++ [c], b, true, s, ?_, h, hfree, by simpa using hperm, ?_, Nat.le_refl _, fun d _ => Iff.rfl⟩
      · rw [State.mergePrev, if_pos (by rw [hprev]; exact hused.mpr hcu)]
      · rw [List.append_assoc]
        exact coalesced_split.mpr ⟨hxs, coalesced_cons_used hcu (.singleton b)⟩
    · have hcf : c.used = false := by simpa using hcu
      rw [List.append_assoc, List.singleton_append] at h ⊢
      obtain ⟨s', hmerge, hparts⟩ := mergePrev_join h hfree hcf
      refine ⟨ws, ⟨c.addr, c.size + 24 + b.size, c.used⟩, false, s', hmerge, hparts, hcf, ?_,
        hxs.concat fun hu => hu, ?_, fun d hd => ?_⟩
      · refine hperm.trans ?_
        have hfrees : frees (ws ++ [c]) ++ frees ys = frees ws ++ c.addr :: frees ys := by
          simp [hcf, frees]
        rw [hfrees]
        exact List.perm_middle
      · rw [freeSize_join hcf hfree]
        omega
      · have hdc : d ≠ c := by
          rintro rfl
          exact hcu hd
        simp [hdc]
  · refine ⟨[], b, true, s, ?_, h, hfree, by simpa using hperm, .singleton b,
      Nat.le_refl _, fun d _ => Iff.rfl⟩
    rw [State.mergePrev, if_pos (by rw [hprev]; exact h.items.isUsed_tail)]

/-- A free block is joined with the free block behind it. -/
theorem mergeNext_join {fs₁ fs₂ : List Nat}
    (h : Parts D s₀ s hp P (xs ++ b :: c :: ys) (fs₁ ++ c.addr :: fs₂) (freeSize (xs ++ b :: c :: ys)) low)
    (hb : b.used = false) (hc : c.used = false) :
    Parts D s₀ (s.mergeNext hp b.addr) hp P (xs ++ ⟨b.addr, b.size + 24 + c.size, b.used⟩ :: ys) (fs₁ ++ fs₂)
      (freeSize (xs ++ ⟨b.addr, b.size + 24 + c.size, b.used⟩ :: ys)) low := by
  have hitems : Items s hp P ((xs ++ [b]) ++ c :: ys) := by simpa using h.items
  have hnext : s.next b.addr = c.addr := h.items.next_addr
  have hprev : s.prev c.addr = b.addr := h.items.prev_addr
  have hused : ¬s.isUsed (s.next b.addr) := by
    rw [hnext, h.items.isUsed_iff (by simp), hc]
    simp
  have hfar : Footprint P (xs ++ b :: c :: ys) (s.next c.addr) := by simpa using hitems.next_footprint
  have h₁ := h.addHeader
  have h₂ := h₁.join (t := ((s.addAvailable hp memheapSize).setPrev (s.next c.addr) b.addr).setNext b.addr
    (s.next c.addr)) rfl rfl (by simp [hprev]) (by simp [hprev]) rfl rfl rfl
    ((Frame.setPrev (h.inside _ hfar)).trans (Frame.setNext (h.inside _ (footprint_mem (by simp)))))
  rw [freeSize_join hb hc, State.mergeNext, if_neg hused]
  simp only [State.addAvailable_fields, State.setPrev_fields, hnext]
  exact h₂.unlinkFree

theorem mergeNext_spec {q : List Nat} (h : Parts D s₀ s hp P (xs ++ b :: ys) fs (freeSize (xs ++ b :: ys)) low)
    (hfree : b.used = false) (hperm : fs.Perm (q ++ (frees xs ++ frees ys))) (hxs : Coalesced (xs ++ [b]))
    (hys : Coalesced ys) :
    ∃ c zs fs', c.addr = b.addr ∧
      Parts D s₀ (s.mergeNext hp b.addr) hp P (xs ++ c :: zs) fs' (freeSize (xs ++ c :: zs)) low ∧
      c.used = false ∧ fs'.Perm (q ++ (frees xs ++ frees zs)) ∧ Coalesced (xs ++ c :: zs) ∧
      freeSize (xs ++ b :: ys) ≤ freeSize (xs ++ c :: zs) ∧ ∀ d : Block, d.used = true → (d ∈ zs ↔ d ∈ ys) := by
  rcases h.items.next_cases with ⟨c, zs, rfl, hnext⟩ | ⟨rfl, hnext⟩
  · have hused := h.items.isUsed_iff (b := c) (by simp)
    by_cases hcu : c.used = true
    · have hsame : s.mergeNext hp b.addr = s := by
        rw [State.mergeNext, if_pos (by rw [hnext]; exact hused.mpr hcu)]
      rw [hsame]
      exact ⟨b, c :: zs, fs, rfl, h, hfree, hperm,
        coalesced_split.mpr ⟨hxs, List.isChain_cons_cons.mpr ⟨.inr hcu, hys⟩⟩, Nat.le_refl _,
        fun d _ => Iff.rfl⟩
    · have hcf : c.used = false := by simpa using hcu
      have hfrees : frees xs ++ frees (c :: zs) = frees xs ++ c.addr :: frees zs := by simp [hcf]
      rw [hfrees, ← List.append_assoc] at hperm
      have hmem : c.addr ∈ fs := hperm.mem_iff.mpr (by simp)
      obtain ⟨fs₁, fs₂, rfl⟩ := List.append_of_mem hmem
      refine ⟨⟨b.addr, b.size + 24 + c.size, b.used⟩, zs, fs₁ ++ fs₂, rfl, mergeNext_join h hfree hcf, hfree,
        ?_, coalesced_split.mpr ⟨hxs.concat fun hu => hu, hys.cons_imp fun hu => absurd hu hcu⟩, ?_,
        fun d hd => ?_⟩
      · rw [← List.append_assoc]
        exact (List.perm_middle.symm.trans (hperm.trans List.perm_middle)).cons_inv
      · rw [freeSize_join hfree hcf]
        omega
      · have hdc : d ≠ c := by
          rintro rfl
          exact hcu hd
        simp [hdc]
  · have hsame : s.mergeNext hp b.addr = s := by
      rw [State.mergeNext, if_pos (by rw [hnext]; exact h.items.isUsed_tail)]
    rw [hsame]
    exact ⟨b, [], fs, rfl, h, hfree, hperm, hxs, Nat.le_refl _, fun d _ => Iff.rfl⟩

/-- What a release gives: the used blocks without the one released. -/
def Released (bs bs' : List Block) (b : Block) : Prop :=
  ∀ c : Block, c.used = true → (c ∈ bs' ↔ c ∈ bs ∧ c ≠ b)

/-- `rt_memheap_free` of a used block succeeds. -/
theorem rtMemheapFree_spec (h : Holds s hp P bs fs) (hb : b ∈ bs) (hused : b.used = true) :
    ∃ s' bs' fs', s.rtMemheapFree (some (b.addr + 24)) = .ok s' ∧ Holds s' hp P bs' fs' ∧
      Released bs bs' b ∧ Frame (Touched P bs bs') hp s s' := by
  have haddr := h.items.addr_le hb
  have hlt := P.poolSize_lt
  have hp' : u32 (((b.addr + 24 : Nat) : Int) - memheapSize) = b.addr := by
    rw [memheapSize_eq]
    exact u32_eq (by push_cast; omega) (by omega)
  have hmagic : s.magic b.addr = memheapMagic ||| memheapUsed := by
    rw [h.items.magic b hb, hused, flag_true]
  obtain ⟨xs, ys, rfl⟩ := List.append_of_mem hb
  have hnextMagic : s.magic (s.next b.addr) &&& memheapMask = memheapMagic := by
    rcases h.items.next_cases with ⟨c, zs, rfl, hnext⟩ | ⟨-, hnext⟩ <;> rw [hnext]
    · rw [h.items.magic c (by simp)]
      exact magic_mask _
    · rw [h.items.magic_tail]
      exact magic_mask _
  have hperm : fs.Perm (frees xs ++ frees ys) := by simpa [hused] using h.perm
  obtain ⟨hxs, hys⟩ := h.coalesced.of_append
  have hsum : freeSize (xs ++ { b with used := false } :: ys) = freeSize (xs ++ b :: ys) + b.size := by
    simp only [freeSize_append, freeSize_cons, hused, if_true, Bool.false_eq_true, if_false]
    omega
  have h₁ : Parts _ s (s.setMagic b.addr (memheapMagic ||| memheapFreed)) hp P
      (xs ++ { b with used := false } :: ys) fs _ _ := (h.parts (xs ++ b :: ys)).mark false
  have hsize : (s.setMagic b.addr (memheapMagic ||| memheapFreed)).memitemSize b.addr = b.size :=
    h₁.items.memitemSize_eq (b := { b with used := false }) (by simp)
  have hpool := h₁.items.freeSize_le
  have h₂ := h₁.addAvailable (a := freeSize (xs ++ { b with used := false } :: ys)) (n := b.size)
    (by rw [hsum]; push_cast; rfl) (by omega)
  obtain ⟨ws, c, ins, s₃, hmerge, h₃, hc, hperm₃, hws, hle₃, hwsUsed⟩ := mergePrev_spec h₂ rfl hperm hxs
  obtain ⟨d, zs, fs', hd, h₄, hdfree, hperm₄, hcoalesced, hle₄, hzsUsed⟩ :=
    mergeNext_spec h₃ hc hperm₃ hws hys.tail
  have hreleased : Released (xs ++ b :: ys) (ws ++ d :: zs) b := by
    intro e he
    have hed : e ≠ d := by
      rintro rfl
      rw [hdfree] at he
      cases he
    have heb : e ∈ xs ∨ e ∈ ys → e ≠ b := by
      rintro hmem rfl
      exact h.items.ne_of_sides hmem rfl
    simp only [List.mem_append, List.mem_cons, hwsUsed e he, hzsUsed e he, hed]
    tauto
  have hframe : ∀ {t}, Frame (Touched P (xs ++ b :: ys) (xs ++ b :: ys)) hp s t →
      Frame (Touched P (xs ++ b :: ys) (ws ++ d :: zs)) hp s t :=
    fun hframe => hframe.mono fun a ha => .inl (ha.elim id id)
  have hmerge' : ((s.setMagic b.addr (memheapMagic ||| memheapFreed)).addAvailable hp b.size).mergePrev hp
      b.addr = (c.addr, ins, s₃) := hmerge
  have hfree : s.rtMemheapFree (some (b.addr + 24)) = .ok (if ins then
      (s₃.mergeNext hp c.addr).insertFree P.freeList c.addr else s₃.mergeNext hp c.addr) := by
    simp only [State.rtMemheapFree, hp', hmagic, hnextMagic, h.items.poolPtr b (by simp), hsize, hmerge',
      h₄.record.freeList]
    simp
  have hfrees : (c.addr :: (frees ws ++ frees zs)).Perm (frees (ws ++ d :: zs)) := by
    simp only [frees_append, frees_cons, hdfree, hd]
    exact List.perm_middle.symm
  have hlow : freeSize (xs ++ b :: ys) ≤ freeSize (ws ++ d :: zs) := by omega
  rw [hfree]
  cases ins with
  | false =>
      exact ⟨_, _, _, rfl, h₄.holds hlow (hperm₄.trans hfrees) hcoalesced, hreleased,
        hframe h₄.frame⟩
  | true =>
      have hnew : c.addr ∉ P.freeList :: fs' := by
        rw [List.mem_cons, hperm₄.mem_iff, ← hd]
        rintro (heq | hmem)
        · exact h₄.items.ne_freeList (by simp) heq
        · have hmem' : d.addr ∈ frees ws ∨ d.addr ∈ frees zs := by simpa using hmem
          simp only [mem_frees] at hmem'
          rcases hmem' with ⟨e, he, -, heq⟩ | ⟨e, he, -, heq⟩
          · exact h₄.items.ne_of_sides (.inl he) heq
          · exact h₄.items.ne_of_sides (.inr he) heq
      have h₅ := h₄.insertFree hnew (hd ▸ h₄.blocks_inside d (by simp))
      exact ⟨_, _, _, rfl, h₅.holds hlow ((hperm₄.cons c.addr).trans hfrees) hcoalesced,
        hreleased, hframe h₅.frame⟩

end SwmLvgl.Memheap
