import SwmLvgl.MemheapRealloc

/-! Several heaps apart from each other, as `rt_malloc` sees them: the used blocks of all of them, and how
an operation changes these. -/

namespace SwmLvgl.Memheap

open Blocks Rings

/-- The items of two pools are apart. -/
def Pool.Apart (P Q : Pool) : Prop := ∀ a b, P.Owns a → Q.Owns b → a + 24 ≤ b ∨ b + 24 ≤ a

theorem Pool.Apart.symm {P Q : Pool} (h : P.Apart Q) : Q.Apart P := fun a b ha hb => (h b a hb ha).symm

/-- The heaps, in the order of the object list, each with its pool. -/
structure Heaps where
  list : List (Nat × Pool)
  nodup : (list.map Prod.fst).Nodup
  apart : list.Pairwise fun v w => v.2.Apart w.2

theorem Heaps.apart_of_ne (W : Heaps) {v w : Nat × Pool} (hv : v ∈ W.list) (hw : w ∈ W.list)
    (hne : v.1 ≠ w.1) : v.2.Apart w.2 := by
  obtain ⟨xs, ys, hsplit⟩ := List.append_of_mem hv
  have hapart := W.apart
  rw [hsplit, List.pairwise_append, List.pairwise_cons] at hapart
  rw [hsplit, List.mem_append, List.mem_cons] at hw
  rcases hw with hw | rfl | hw
  · exact (hapart.2.2 w hw v List.mem_cons_self).symm
  · exact absurd rfl hne
  · exact hapart.2.1.1 w hw

theorem Heaps.eq_of_fst (W : Heaps) {v w : Nat × Pool} (hv : v ∈ W.list) (hw : w ∈ W.list)
    (heq : v.1 = w.1) : v = w := List.inj_on_of_nodup_map W.nodup hv hw heq

/-- The heaps have the blocks `B`. -/
structure Valid (W : Heaps) (s : State) (B : Nat → List Block) : Prop where
  objects : s.objects = W.list.map Prod.fst
  holds : ∀ w ∈ W.list, ∃ fs, Holds s w.1 w.2 (B w.1) fs

/-- A used block of some heap. -/
def UsedBlock (W : Heaps) (B : Nat → List Block) (c : Block) : Prop :=
  c.used = true ∧ ∃ w ∈ W.list, c ∈ B w.1

variable {W : Heaps} {s s' : State} {B B' : Nat → List Block} {b c : Block} {bs' : List Block}
  {fs' : List Nat} {v w : Nat × Pool}

/-- A heap apart from the one that changes. -/
theorem Holds.other {hp : Nat} {P Q : Pool} {bs : List Block} {fs : List Nat} (h : Holds s hp P bs fs)
    (hframe : Frame Q.Owns w.1 s s') (hne : hp ≠ w.1) (hapart : P.Apart Q) : Holds s' hp P bs fs := by
  have hout : ∀ a, Footprint P bs a → ¬Q.Owns a := by
    intro a ha hQ
    rcases hapart a a (h.items.owns ha) hQ with hlt | hlt <;> omega
  have hring : ∀ a ∈ P.freeList :: fs, Footprint P bs a := by
    intro a ha
    rcases List.mem_cons.mp ha with rfl | ha
    · exact footprint_freeList
    · exact h.footprint_of_ring ha
  refine ⟨h.items.congr ?_ ?_ ?_ ?_, h.ring.congr ?_ ?_, ?_, h.perm, h.coalesced⟩
  · exact fun a ha => hframe.magic a (hout a ha)
  · exact fun a ha => hframe.poolPtr a (hout a ha)
  · exact fun a ha => hframe.next a (hout a ha)
  · exact fun a ha => hframe.prev a (hout a ha)
  · exact fun a ha => hframe.nextFree a (hout a (hring a ha))
  · exact fun a ha => hframe.prevFree a (hout a (hring a ha))
  · rw [hframe.heap hp hne]
    exact h.record

namespace Valid

theorem update (h : Valid W s B) (hw : w ∈ W.list) (hframe : Frame w.2.Owns w.1 s s')
    (h' : Holds s' w.1 w.2 bs' fs') : Valid W s' (Function.update B w.1 bs') where
  objects := hframe.objects.trans h.objects
  holds v hv := by
    by_cases hvw : v.1 = w.1
    · rw [hvw, Function.update_self, W.eq_of_fst hv hw hvw]
      exact ⟨fs', h'⟩
    · obtain ⟨fs, hholds⟩ := h.holds v hv
      rw [Function.update_of_ne hvw]
      exact ⟨fs, hholds.other hframe hvw (W.apart_of_ne hv hw hvw)⟩

theorem items (h : Valid W s B) (hw : w ∈ W.list) : Items s w.1 w.2 (B w.1) :=
  let ⟨_, hholds⟩ := h.holds w hw
  hholds.items

/-- The addresses of a block belong to the pool. -/
theorem owns (h : Valid W s B) (hw : w ∈ W.list) (hc : c ∈ B w.1) {x : Nat} (hx : c.addr ≤ x)
    (hx' : x < c.addr + 24 + c.size) : w.2.Owns x := by
  have hle := (h.items hw).mem_le hc
  have htail := w.2.tail_eq
  exact .inr (by omega)

/-- A block belongs to one heap. -/
theorem heap_unique (h : Valid W s B) (hv : v ∈ W.list) (hw : w ∈ W.list) (hb : b ∈ B v.1) (hc : c ∈ B w.1)
    (heq : b.addr = c.addr) : v = w := by
  by_contra hne
  have hvw : v.1 ≠ w.1 := fun h => hne (W.eq_of_fst hv hw h)
  have hbx := h.owns hv hb (Nat.le_refl _) (by omega)
  have hcx := h.owns hw hc (Nat.le_refl _) (by omega)
  rcases W.apart_of_ne hv hw hvw _ _ hbx hcx with hle | hle <;> omega

/-- Two different blocks lie one behind the other. -/
theorem apart (h : Valid W s B) (hv : v ∈ W.list) (hw : w ∈ W.list) (hb : b ∈ B v.1) (hc : c ∈ B w.1)
    (hne : b ≠ c) : b.addr + 24 + b.size ≤ c.addr ∨ c.addr + 24 + c.size ≤ b.addr := by
  by_cases hvw : v.1 = w.1
  · rw [hvw] at hb
    exact (h.items hw).apart hb hc hne
  · have hapart := W.apart_of_ne hv hw hvw
    by_contra hover
    -- the larger of the two addresses is in both blocks
    have hbx := h.owns hv hb (x := max b.addr c.addr) (by omega) (by omega)
    have hcx := h.owns hw hc (x := max b.addr c.addr) (by omega) (by omega)
    rcases hapart _ _ hbx hcx with hle | hle <;> omega

theorem used_ext (h : Valid W s B) (hb : UsedBlock W B b) (hc : UsedBlock W B c) (heq : b.addr = c.addr) :
    b = c := by
  obtain ⟨-, v, hv, hbv⟩ := hb
  obtain ⟨-, w, hw, hcw⟩ := hc
  obtain rfl := h.heap_unique hv hw hbv hcw heq
  exact (h.items hv).ext hbv hcw heq

theorem used_apart (h : Valid W s B) (hb : UsedBlock W B b) (hc : UsedBlock W B c) (hne : b ≠ c) :
    b.addr + 24 + b.size ≤ c.addr ∨ c.addr + 24 + c.size ≤ b.addr := by
  obtain ⟨-, v, hv, hbv⟩ := hb
  obtain ⟨-, w, hw, hcw⟩ := hc
  exact h.apart hv hw hbv hcw hne

end Valid

/-- The used blocks change from those of `B` to those of `B'`: `old` is used no more, and `new` is used
then. The others keep their bytes. -/
structure Change (W : Heaps) (B B' : Nat → List Block) (old new : Option Block) (s s' : State) : Prop where
  valid : Valid W s' B'
  used : ∀ d, UsedBlock W B' d ↔ (UsedBlock W B d ∧ some d ≠ old) ∨ some d = new
  fresh : ∀ c, new = some c → ∀ d, UsedBlock W B d → some d ≠ old → d.addr ≠ c.addr
  kept : ∀ d, UsedBlock W B d → some d ≠ old → ∀ i < d.size,
    s'.byte (d.addr + 24 + i) = s.byte (d.addr + 24 + i)

/-- A change of one heap is a change of the heaps. -/
theorem Valid.change {old new : Option Block} (h : Valid W s B) (hw : w ∈ W.list)
    (h' : Holds s' w.1 w.2 bs' fs') (hframe : Frame (Touched w.2 (B w.1) bs') w.1 s s')
    (hold : ∀ c, old = some c → c ∈ B w.1) (hnew : ∀ c, new = some c → c.used = true)
    (hfresh : ∀ c, new = some c → ∀ d ∈ B w.1, d.used = true → some d ≠ old → d.addr ≠ c.addr)
    (hblocks : ∀ d : Block, d.used = true → (d ∈ bs' ↔ (d ∈ B w.1 ∧ some d ≠ old) ∨ some d = new)) :
    Change W B (Function.update B w.1 bs') old new s s' := by
  have howns := hframe.mono fun _ => touched_owns (h.items hw) h'.items
  have hvalid := h.update hw howns h'
  have hother : ∀ v ∈ W.list, v.1 ≠ w.1 → ∀ d ∈ B v.1, some d ≠ old := by
    intro v hv hvw d hd heq
    exact hvw (congrArg Prod.fst (h.heap_unique hv hw hd (hold d heq.symm) rfl))
  have hself : Function.update B w.1 bs' w.1 = bs' := Function.update_self w.1 bs' B
  have hnewMem : ∀ c, new = some c → c ∈ bs' := fun c hc => (hblocks c (hnew c hc)).mpr (.inr hc.symm)
  have hused : ∀ d, UsedBlock W (Function.update B w.1 bs') d ↔
      (UsedBlock W B d ∧ some d ≠ old) ∨ some d = new := by
    intro d
    constructor
    · rintro ⟨hdu, v, hv, hd⟩
      by_cases hvw : v.1 = w.1
      · rw [hvw, hself, hblocks d hdu] at hd
        exact hd.imp_left fun hd => ⟨⟨hdu, w, hw, hd.1⟩, hd.2⟩
      · rw [Function.update_of_ne hvw] at hd
        exact .inl ⟨⟨hdu, v, hv, hd⟩, hother v hv hvw d hd⟩
    · rintro (⟨⟨hdu, v, hv, hd⟩, hne⟩ | heq)
      · by_cases hvw : v.1 = w.1
        · refine ⟨hdu, w, hw, ?_⟩
          rw [hvw] at hd
          rw [hself, hblocks d hdu]
          exact .inl ⟨hd, hne⟩
        · refine ⟨hdu, v, hv, ?_⟩
          rwa [Function.update_of_ne hvw]
      · refine ⟨hnew d heq.symm, w, hw, ?_⟩
        rw [hself]
        exact hnewMem d heq.symm
  refine ⟨hvalid, hused, ?_, ?_⟩
  · rintro c hc d ⟨hdu, v, hv, hd⟩ hne heq
    have hcw : c ∈ Function.update B w.1 bs' w.1 := by
      rw [hself]
      exact hnewMem c hc
    by_cases hvw : v.1 = w.1
    · rw [hvw] at hd
      exact hfresh c hc d hd hdu hne heq
    · have hdv : d ∈ Function.update B w.1 bs' v.1 := by rwa [Function.update_of_ne hvw]
      exact hvw (congrArg Prod.fst (hvalid.heap_unique hv hw hdv hcw heq))
  · rintro d ⟨hdu, v, hv, hd⟩ hne i hi
    by_cases hvw : v.1 = w.1
    · rw [hvw] at hd
      have hd' : d ∈ bs' := (hblocks d hdu).mpr (.inl ⟨hd, hne⟩)
      exact hframe.payload (h.items hw) h'.items hd hd' (by omega) (by omega)
    · refine howns.byte _ fun a ha => ?_
      have hx := h.owns hv hd (x := d.addr + 24 + i) (by omega) (by omega)
      rw [sizeofItem]
      rcases W.apart_of_ne hv hw hvw _ _ hx ha with hle | hle <;> omega

/-- `rt_memheap_alloc`, among the heaps. -/
theorem alloc_change {size : Nat} (h : Valid W s B) (hw : w ∈ W.list) (hsize : size ≤ 2 ^ 32 - 8) :
    (s.rtMemheapAlloc w.1 size = .ok (none, s) ∧ ¬Fits (requestSize size) (B w.1)) ∨
      ∃ s' B' c, s.rtMemheapAlloc w.1 size = .ok (some (c.addr + 24), s') ∧ Fits (requestSize size) (B w.1) ∧
        requestSize size ≤ c.size ∧ Change W B B' none (some c) s s' := by
  obtain ⟨fs, hholds⟩ := h.holds w hw
  rcases rtMemheapAlloc_spec hholds hsize with hnone | ⟨s', bs', fs', c, halloc, hfits, hallocated, h', hframe⟩
  · exact .inl hnone
  · refine .inr ⟨s', _, c, halloc, hfits, hallocated.size_le, h.change hw h' hframe ?_ ?_ ?_ ?_⟩
    · rintro c ⟨⟩
    · rintro c ⟨⟩
      exact hallocated.used
    · rintro c ⟨⟩ d hd hdu -
      exact hallocated.fresh d hd hdu
    · intro d hdu
      simpa using hallocated.blocks d hdu

/-- `rt_memheap_free`, among the heaps. -/
theorem free_change (h : Valid W s B) (hc : UsedBlock W B c) :
    ∃ s' B', s.rtMemheapFree (some (c.addr + 24)) = .ok s' ∧ Change W B B' (some c) none s s' := by
  obtain ⟨hused, w, hw, hcw⟩ := hc
  obtain ⟨fs, hholds⟩ := h.holds w hw
  obtain ⟨s', bs', fs', hfree, h', hreleased, hframe⟩ := rtMemheapFree_spec hholds hcw hused
  refine ⟨s', _, hfree, h.change hw h' hframe ?_ ?_ ?_ ?_⟩
  · rintro c ⟨⟩
    exact hcw
  · rintro c ⟨⟩
  · rintro c ⟨⟩
  · intro d hdu
    simpa using hreleased d hdu

/-- A block that stays where it is with another size. -/
theorem resize_change {k : Nat} (h : Valid W s B) (hw : w ∈ W.list) (hb : b ∈ B w.1)
    (hresized : Resized k (B w.1) bs' b c) (h' : Holds s' w.1 w.2 bs' fs')
    (hframe : Frame (Touched w.2 (B w.1) bs') w.1 s s') :
    Change W B (Function.update B w.1 bs') (some b) (some c) s s' ∧
      ∀ i < b.size, i < c.size → s'.byte (c.addr + 24 + i) = s.byte (b.addr + 24 + i) := by
  constructor
  · refine h.change hw h' hframe ?_ ?_ ?_ ?_
    · rintro c ⟨⟩
      exact hb
    · rintro c ⟨⟩
      exact hresized.used
    · rintro c ⟨⟩ d hd - hne heq
      exact hne (congrArg some ((h.items hw).ext hd hb (heq.trans hresized.addr)))
    · intro d hdu
      simpa using hresized.blocks d hdu
  · intro i hi hi'
    have hc : c ∈ bs' := (hresized.blocks c hresized.used).mpr (.inr rfl)
    have haddr := hresized.addr
    rw [haddr]
    exact hframe.payload (h.items hw) h'.items hb hc (by omega) (by omega)

theorem Valid.bytes (h : Valid W s B) (m : Nat → BitVec 8) : Valid W { s with byte := m } B where
  objects := h.objects
  holds w hw := by
    obtain ⟨fs, hholds⟩ := h.holds w hw
    exact ⟨fs, hholds.items.congr_fields rfl rfl rfl rfl, hholds.ring, hholds.record, hholds.perm,
      hholds.coalesced⟩

/-- Stores to the payload of the new block are no more of a change. -/
theorem Change.bytes {old : Option Block} {m : Nat → BitVec 8} (h : Change W B B' old (some b) s s')
    (hm : ∀ x, x < b.addr + 24 ∨ b.addr + 24 + b.size ≤ x → m x = s'.byte x) :
    Change W B B' old (some b) s { s' with byte := m } where
  valid := h.valid.bytes m
  used := h.used
  fresh := h.fresh
  kept d hd hne i hi := by
    have hd' : UsedBlock W B' d := (h.used d).mpr (.inl ⟨hd, hne⟩)
    have hb' : UsedBlock W B' b := (h.used b).mpr (.inr rfl)
    have hdb : d ≠ b := by
      rintro rfl
      exact h.fresh d rfl d hd hne rfl
    have hapart := h.valid.used_apart hd' hb' hdb
    rw [← h.kept d hd hne i hi]
    exact hm _ (by omega)

/-- A block that moves: its bytes are copied to the new one, and it is freed. -/
theorem copy_free_change {s₁ : State} {B₁ : Nat → List Block} (hb : UsedBlock W B b)
    (halloc : Change W B B₁ none (some c) s s₁) {n : Nat} (hn : n ≤ b.size) (hnc : n ≤ c.size) :
    ∃ s' B', (s₁.rtMemcpy (c.addr + 24) (b.addr + 24) n).rtMemheapFree (some (b.addr + 24)) = .ok s' ∧
      Change W B B' (some b) (some c) s s' ∧
      ∀ i < n, s'.byte (c.addr + 24 + i) = s.byte (b.addr + 24 + i) := by
  have hb₁ : UsedBlock W B₁ b := (halloc.used b).mpr (.inl ⟨hb, nofun⟩)
  have hc₁ : UsedBlock W B₁ c := (halloc.used c).mpr (.inr rfl)
  have hbc : b ≠ c := fun heq => halloc.fresh c rfl b hb nofun (heq ▸ rfl)
  obtain ⟨s', B', hfree, hchange⟩ := free_change (s := s₁.rtMemcpy (c.addr + 24) (b.addr + 24) n)
    (halloc.valid.bytes _) hb₁
  have hused : ∀ d, UsedBlock W B' d ↔ (UsedBlock W B d ∧ some d ≠ some b) ∨ some d = some c := by
    intro d
    rw [hchange.used, halloc.used]
    have hdc : d = c → d ≠ b := by
      rintro rfl
      exact hbc.symm
    simp only [ne_eq, Option.some.injEq, reduceCtorEq, not_false_eq_true, and_true, or_false]
    tauto
  have hcb : some c ≠ some b := fun heq => hbc (Option.some.inj heq).symm
  refine ⟨s', B', hfree, ⟨hchange.valid, hused, ?_, ?_⟩, ?_⟩
  · rintro c ⟨⟩ d hd -
    exact halloc.fresh c rfl d hd nofun
  · intro d hd hne i hi
    have hd₁ : UsedBlock W B₁ d := (halloc.used d).mpr (.inl ⟨hd, nofun⟩)
    have hdc : d ≠ c := by
      rintro rfl
      exact halloc.fresh d rfl d hd nofun rfl
    have hapart := halloc.valid.used_apart hd₁ hc₁ hdc
    rw [hchange.kept d hd₁ hne i hi, ← halloc.kept d hd nofun i hi]
    exact if_neg (by omega)
  · intro i hi
    rw [hchange.kept c hc₁ hcb i (by omega), ← halloc.kept b hb nofun i (by omega)]
    have hoffset : b.addr + 24 + (c.addr + 24 + i - (c.addr + 24)) = b.addr + 24 + i := by omega
    show (if _ then s₁.byte (b.addr + 24 + (c.addr + 24 + i - (c.addr + 24))) else _) = _
    rw [if_pos (by omega), hoffset]

end SwmLvgl.Memheap
