import SwmLvgl.MemheapInvariant

/-! The steps of the operations on a heap. Between them the parts of the invariant hold each for itself:
the items, the ring of the free ones, and the record. -/

namespace SwmLvgl.Memheap

open Blocks Rings

/-- On the way from `s₀` to `s` only the items in `D` have changed; the heap has the blocks `bs`, the ring
`fs`, and `free` bytes available, never less than `low`. -/
structure Parts (D : Nat → Prop) (s₀ s : State) (hp : Nat) (P : Pool) (bs : List Block) (fs : List Nat)
    (free low : Nat) : Prop where
  items : Items s hp P bs
  ring : Ring s.nextFree s.prevFree P.freeList fs
  record : Record (s.heap hp) P free low
  frame : Frame D hp s₀ s
  inside : ∀ a, Footprint P bs a → D a
  ring_inside : ∀ a ∈ fs, D a

variable {D : Nat → Prop} {s₀ s : State} {hp free low : Nat} {P : Pool} {bs xs ys : List Block} {b c : Block}
  {fs fs₁ fs₂ : List Nat} {p : Nat}

theorem Holds.parts (h : Holds s hp P bs fs) (bs' : List Block) :
    Parts (Touched P bs bs') s s hp P bs fs (freeSize bs) (freeSize bs) where
  items := h.items
  ring := h.ring
  record := h.record
  frame := .refl
  inside _ := Or.inl
  ring_inside _ ha := .inl (h.footprint_of_ring ha)

namespace Parts

theorem holds (h : Parts D s₀ s hp P bs fs (freeSize bs) low) (hlow : low ≤ freeSize bs) (hperm : fs.Perm (frees bs))
    (hcoalesced : Coalesced bs) : Holds s hp P bs fs :=
  ⟨h.items, h.ring, h.record.mono hlow, hperm, hcoalesced⟩

theorem header_inside (h : Parts D s₀ s hp P bs fs free low) : D P.freeList := h.inside _ footprint_freeList

theorem mem_inside (h : Parts D s₀ s hp P bs fs free low) {a : Nat} (ha : a ∈ P.freeList :: fs) : D a := by
  rcases List.mem_cons.mp ha with rfl | ha
  · exact h.header_inside
  · exact h.ring_inside a ha

/-- Where the items are, with other blocks. -/
theorem inside_of (h : Parts D s₀ s hp P bs fs free low) {bs' : List Block} {a : Nat}
    (ha : Footprint P bs' a) (hbs' : ∀ b ∈ bs', D b.addr) : D a := by
  rcases ha with rfl | rfl | ⟨b, hb, rfl⟩
  · exact h.header_inside
  · exact h.inside _ footprint_tail
  · exact hbs' b hb

theorem blocks_inside (h : Parts D s₀ s hp P bs fs free low) : ∀ b ∈ bs, D b.addr :=
  fun _ hb => h.inside _ (footprint_mem hb)

theorem unlinkFree (h : Parts D s₀ s hp P bs (fs₁ ++ p :: fs₂) free low) :
    Parts D s₀ (s.unlinkFree p) hp P bs (fs₁ ++ fs₂) free low where
  items := h.items.congr_fields (by simp) (by simp) (by simp) (by simp)
  ring := State.ring_unlinkFree h.ring
  record := by
    rw [State.unlinkFree_fields.2.1]
    exact h.record
  frame := by
    have hsub : ∀ a ∈ P.freeList :: (fs₁ ++ fs₂), D a := by
      intro a ha
      refine h.mem_inside ?_
      simp only [List.mem_cons, List.mem_append] at ha ⊢
      tauto
    exact h.frame.trans (State.frame_unlinkFree (hsub _ h.ring.mem_of_next) (hsub _ h.ring.mem_of_prev)
      h.ring.next_ne)
  inside := h.inside
  ring_inside a ha := by
    refine h.ring_inside a ?_
    simp only [List.mem_cons, List.mem_append] at ha ⊢
    tauto

theorem clearFree (h : Parts D s₀ s hp P bs fs free low) (hp' : p ∉ P.freeList :: fs) (hD : D p) :
    Parts D s₀ ((s.setNextFree p 0).setPrevFree p 0) hp P bs fs free low where
  items := h.items.congr_fields (by simp) (by simp) (by simp) (by simp)
  ring := State.ring_clearFree h.ring hp'
  record := h.record
  frame := h.frame.trans (State.frame_clearFree hD)
  inside := h.inside
  ring_inside := h.ring_inside

theorem linkFree (h : Parts D s₀ s hp P bs fs free low) (hp' : p ∉ P.freeList :: fs) (hD : D p) :
    Parts D s₀ (s.linkFree P.freeList p) hp P bs (p :: fs) free low where
  items := h.items.congr_fields (by simp) (by simp) (by simp) (by simp)
  ring := State.ring_linkFree h.ring hp'
  record := by
    rw [State.linkFree_fields.2.1]
    exact h.record
  frame := h.frame.trans (State.frame_linkFree h.header_inside hD (h.mem_inside h.ring.mem_of_next_header)
    fun heq => hp' (heq ▸ List.mem_cons_self))
  inside := h.inside
  ring_inside := List.forall_mem_cons.mpr ⟨hD, h.ring_inside⟩

theorem insertFree (h : Parts D s₀ s hp P bs fs free low) (hp' : p ∉ P.freeList :: fs) (hD : D p) :
    Parts D s₀ (s.insertFree P.freeList p) hp P bs (p :: fs) free low where
  items := h.items.congr_fields (by simp) (by simp) (by simp) (by simp)
  ring := State.ring_insertFree h.ring hp'
  record := by
    rw [State.insertFree_fields.2.1]
    exact h.record
  frame := h.frame.trans (State.frame_insertFree h.ring hp' h.header_inside hD
    (h.mem_inside h.ring.mem_of_next_header))
  inside := h.inside
  ring_inside := List.forall_mem_cons.mpr ⟨hD, h.ring_inside⟩

theorem setAvailable (h : Parts D s₀ s hp P bs fs free low) {a : Nat} (ha : a ≤ P.poolSize) :
    Parts D s₀ (s.setAvailable hp a) hp P bs fs a a where
  items := h.items.congr_fields (by simp) (by simp) (by simp) (by simp)
  ring := h.ring
  record := h.record.setAvailable ha
  frame := h.frame.trans (State.frame_setAvailable a)
  inside := h.inside
  ring_inside := h.ring_inside

theorem addAvailable (h : Parts D s₀ s hp P bs fs free low) {a : Nat} {n : Int} (ha : (free : Int) + n = a)
    (hlt : a < 2 ^ 32) : Parts D s₀ (s.addAvailable hp n) hp P bs fs a low where
  items := h.items.congr_fields (by simp) (by simp) (by simp) (by simp)
  ring := h.ring
  record := h.record.addAvailable ha hlt
  frame := h.frame.trans (State.frame_addAvailable n)
  inside := h.inside
  ring_inside := h.ring_inside

theorem mark (h : Parts D s₀ s hp P (xs ++ b :: ys) fs free low) (u : Bool) :
    Parts D s₀ (s.setMagic b.addr (memheapMagic ||| flag u)) hp P (xs ++ { b with used := u } :: ys) fs
      free low where
  items := h.items.mark u
  ring := h.ring
  record := h.record
  frame := h.frame.trans (Frame.setMagic (h.inside _ (footprint_mem (by simp))) _)
  inside _ ha := by
    obtain ⟨hxs, hb, hys⟩ := forall_middle.mp h.blocks_inside
    exact h.inside_of ha (forall_middle.mpr ⟨hxs, hb, hys⟩)
  ring_inside := h.ring_inside

/-- A free item is made in the payload of a block. -/
theorem newItem (h : Parts D s₀ s hp P (xs ++ b :: ys) fs free low) {k : Nat} (hk : k + 24 + 16 ≤ b.size)
    (hk8 : 8 ∣ k) (hk16 : 16 ≤ k) (hD : D (restOf b k).addr) :
    Parts D s₀ (s.newItem hp b.addr k) hp P (xs ++ ⟨b.addr, k, b.used⟩ :: restOf b k :: ys) fs free low where
  items := h.items.cut hk hk8 hk16
  ring := by
    rw [State.newItem_fields.2.2.2.2.1, State.newItem_fields.2.2.2.2.2]
    exact h.ring
  record := by
    rw [State.newItem_fields.2.1]
    exact h.record
  frame := by
    have hb : Footprint P (xs ++ b :: ys) b.addr := footprint_mem (by simp)
    refine h.frame.trans (((Frame.setMagic hD _).trans (Frame.setPoolPtr hD)).trans
      (State.frame_linkNext (h.inside _ hb) hD (h.inside _ h.items.next_footprint) (h.items.cut_ne hk hb)))
  inside _ ha := by
    obtain ⟨hxs, hb, hys⟩ := forall_middle.mp h.blocks_inside
    exact h.inside_of ha (forall_middle.mpr ⟨hxs, hb, List.forall_mem_cons.mpr ⟨hD, hys⟩⟩)
  ring_inside := h.ring_inside

/-- The item behind a block is unlinked. -/
theorem join {t : State} (h : Parts D s₀ s hp P (xs ++ b :: c :: ys) fs free low) (hmagic : t.magic = s.magic)
    (hpoolPtr : t.poolPtr = s.poolPtr)
    (hnext : t.next = Function.update s.next (s.prev c.addr) (s.next c.addr))
    (hprev : t.prev = Function.update s.prev (s.next c.addr) (s.prev c.addr))
    (hnextFree : t.nextFree = s.nextFree) (hprevFree : t.prevFree = s.prevFree) (hheap : t.heap = s.heap)
    (hframe : Frame D hp s t) :
    Parts D s₀ t hp P (xs ++ ⟨b.addr, b.size + 24 + c.size, b.used⟩ :: ys) fs free low where
  items := h.items.join hmagic hpoolPtr hnext hprev
  ring := by
    rw [hnextFree, hprevFree]
    exact h.ring
  record := by
    rw [hheap]
    exact h.record
  frame := h.frame.trans hframe
  inside _ ha := by
    obtain ⟨hxs, hb, hys⟩ := forall_middle.mp h.blocks_inside
    exact h.inside_of ha (forall_middle.mpr ⟨hxs, hb, (List.forall_mem_cons.mp hys).2⟩)
  ring_inside := h.ring_inside

end Parts

/-- A new item in the payload of a block is not in the ring. -/
theorem Items.new_notMem (h : Items s hp P (xs ++ b :: ys)) {k : Nat} (hk : k + 24 + 16 ≤ b.size)
    (hfs : ∀ a ∈ fs, Footprint P (xs ++ b :: ys) a) : (restOf b k).addr ∉ P.freeList :: fs := by
  intro hmem
  refine h.cut_ne hk ?_ rfl
  rcases List.mem_cons.mp hmem with heq | hmem
  · exact .inl heq
  · exact hfs _ hmem

end SwmLvgl.Memheap
