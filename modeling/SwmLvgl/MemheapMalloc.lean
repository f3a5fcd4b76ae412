import SwmLvgl.MemheapHeaps

/-! `rt_memheap_realloc`, and the functions behind `rt_malloc` and `rt_realloc`: they try the heap given,
and then the others. -/

namespace SwmLvgl.Memheap

open Blocks

variable {W : Heaps} {s : State} {B : Nat → List Block} {b : Block} {w : Nat × Pool} {size : Nat}

theorem requestSize_self {k : Nat} (h8 : 8 ∣ k) (h16 : 16 ≤ k) (h : k ≤ 2 ^ 32 - 8) :
    requestSize k = k := by
  have hround : rtAlign k rtAlignSize = k := by
    rw [rtAlign, rtAlignSize, u32_eq (n := k + 7) (by push_cast; omega) (by omega)]
    omega
  simp only [requestSize, hround, memheapMinialloc_eq, if_neg (Nat.not_lt.mpr h16)]

/-- `rt_memheap_realloc` of a used block. When it gives no block, it changes nothing; the request is for
more bytes than the block has, and the heap has no block for it. -/
theorem rtMemheapRealloc_change (h : Valid W s B) (hw : w ∈ W.list) (hb : b ∈ B w.1) (hused : b.used = true)
    (hpos : 0 < size) (hsize : size ≤ 2 ^ 32 - 24) :
    (s.rtMemheapRealloc w.1 (some (b.addr + 24)) size = .ok (none, s) ∧ b.size < requestSize size ∧
        ¬Fits (requestSize size) (B w.1)) ∨
      ∃ s' B' c, s.rtMemheapRealloc w.1 (some (b.addr + 24)) size = .ok (some (c.addr + 24), s') ∧
        requestSize size ≤ c.size ∧ Change W B B' (some b) (some c) s s' ∧
        ∀ i < b.size, i < c.size → s'.byte (c.addr + 24 + i) = s.byte (b.addr + 24 + i) := by
  obtain ⟨hk8, hk16, -, hkle⟩ := requestSize_spec size (by omega)
  generalize hk : requestSize size = k at *
  have hself := requestSize_self hk8 hk16 (by omega)
  obtain ⟨fs, hholds⟩ := h.holds w hw
  have haddr := hholds.items.addr_le hb
  have hp : u32 (((b.addr + 24 : Nat) : Int) - memheapSize) = b.addr := by
    rw [memheapSize_eq]
    exact u32_eq (by push_cast; omega) (by omega)
  have hold : s.memitemSize b.addr = b.size := hholds.items.memitemSize_eq hb
  have hnextle : ¬s.next b.addr ≤ b.addr := by
    obtain ⟨xs, ys, hsplit⟩ := List.append_of_mem hb
    have hitems := hholds.items
    rw [hsplit] at hitems
    rw [hitems.next_eq]
    omega
  simp only [State.rtMemheapRealloc, if_neg (Nat.ne_of_gt hpos), hk, hp, hold, if_neg hnextle]
  by_cases hgrow : b.size < k
  · simp only [if_pos hgrow]
    by_cases hroom : ¬s.isUsed (s.next b.addr) ∧ u32 ((k : Int) + memheapMinialloc) <
        u32 ((s.memitemSize (s.next b.addr) : Int) + b.size)
    · -- the free block behind is large enough
      rw [if_pos hroom]
      obtain ⟨bs', fs', c, hresized, h', hframe⟩ := growItem_resized hholds hb hused hk8 (by omega) hgrow hroom
      obtain ⟨hchange, hbytes⟩ := resize_change h hw hb hresized h' hframe
      exact .inr ⟨_, _, c, by rw [hresized.addr], hresized.size_le, hchange, hbytes⟩
    · -- the block moves, if there is another one
      rw [if_neg hroom]
      have halloc := alloc_change h hw (show k ≤ 2 ^ 32 - 8 by omega)
      rw [hself] at halloc
      rcases halloc with ⟨halloc, hfits⟩ | ⟨s₁, B₁, c, halloc, -, hkc, hchange₁⟩
      · rw [halloc]
        exact .inl ⟨rfl, hgrow, hfits⟩
      · obtain ⟨s', B', hfree, hchange, hbytes⟩ :=
          copy_free_change ⟨hused, w, hw, hb⟩ hchange₁ (Nat.le_refl b.size) (by omega)
        right
        simp only [halloc, hfree]
        exact ⟨s', B', c, rfl, hkc, hchange, fun i hi _ => hbytes i hi⟩
  · simp only [if_neg hgrow]
    right
    by_cases hshrink : b.size ≤ u32 ((k : Int) + memheapSize + memheapMinialloc)
    · rw [if_pos hshrink]
      have hresized : Resized k (B w.1) (B w.1) b b := by
        refine ⟨rfl, hused, by omega, fun e _ => ?_⟩
        by_cases heb : e = b
        · rw [heb]
          simp [hb]
        · simp [heb]
      obtain ⟨hchange, hbytes⟩ := resize_change h hw hb hresized hholds .refl
      exact ⟨s, _, b, rfl, by omega, hchange, hbytes⟩
    · rw [if_neg hshrink]
      rw [memheapSize_eq, memheapMinialloc_eq, u32_eq (n := k + 40) (by push_cast; omega) (by omega)] at hshrink
      obtain ⟨bs', fs', c, hresized, h', hframe⟩ := shrinkItem_spec hholds hb hused hk8 hk16 (by omega)
      obtain ⟨hchange, hbytes⟩ := resize_change h hw hb hresized h' hframe
      exact ⟨_, _, c, by rw [hresized.addr], hresized.size_le, hchange, hbytes⟩

/-- The search of the other heaps. -/
theorem allocOther_change (hp : Nat) {L : List (Nat × Pool)} (h : Valid W s B) (hL : ∀ v ∈ L, v ∈ W.list)
    (hsize : size ≤ 2 ^ 32 - 8) :
    (s.allocOther hp size (L.map Prod.fst) = .ok (none, s) ∧
        ∀ v ∈ L, v.1 ≠ hp → ¬Fits (requestSize size) (B v.1)) ∨
      ∃ s' B' c, s.allocOther hp size (L.map Prod.fst) = .ok (some (c.addr + 24), s') ∧
        (∃ v ∈ W.list, Fits (requestSize size) (B v.1)) ∧ requestSize size ≤ c.size ∧
        Change W B B' none (some c) s s' := by
  induction L with
  | nil => exact .inl ⟨rfl, fun v hv => absurd hv List.not_mem_nil⟩
  | cons v L ih =>
      obtain ⟨hv, hL⟩ := List.forall_mem_cons.mp hL
      rw [List.map_cons, State.allocOther]
      by_cases hpv : hp = v.1
      · rw [if_pos hpv]
        refine (ih hL).imp_left fun ⟨hnone, hfits⟩ => ⟨hnone, List.forall_mem_cons.mpr ⟨?_, hfits⟩⟩
        exact fun hne => absurd hpv.symm hne
      · rw [if_neg hpv]
        rcases alloc_change h hv hsize with ⟨halloc, hfits⟩ | ⟨s', B', c, halloc, hfits, hkc, hchange⟩
        · rw [halloc]
          exact (ih hL).imp_left fun ⟨hnone, hrest⟩ =>
            ⟨hnone, List.forall_mem_cons.mpr ⟨fun _ => hfits, hrest⟩⟩
        · rw [halloc]
          exact .inr ⟨s', B', c, rfl, ⟨v, hv, hfits⟩, hkc, hchange⟩

/-- `_memheap_alloc` gives a block if and only if one fits in some heap. -/
theorem memheapAlloc_change (h : Valid W s B) (hw : w ∈ W.list) (hsize : size ≤ 2 ^ 32 - 8) :
    (s.memheapAlloc w.1 size = .ok (none, s) ∧ ∀ v ∈ W.list, ¬Fits (requestSize size) (B v.1)) ∨
      ∃ s' B' c, s.memheapAlloc w.1 size = .ok (some (c.addr + 24), s') ∧
        (∃ v ∈ W.list, Fits (requestSize size) (B v.1)) ∧ requestSize size ≤ c.size ∧
        Change W B B' none (some c) s s' := by
  rw [State.memheapAlloc]
  rcases alloc_change h hw hsize with ⟨halloc, hfits⟩ | ⟨s', B', c, halloc, hfits, hkc, hchange⟩
  · rw [halloc, h.objects]
    refine (allocOther_change w.1 h (fun v hv => hv) hsize).imp_left fun ⟨hnone, hrest⟩ =>
      ⟨hnone, fun v hv => ?_⟩
    by_cases hvw : v.1 = w.1
    · rw [hvw]
      exact hfits
    · exact hrest v hv hvw
  · rw [halloc]
    exact .inr ⟨s', B', c, rfl, ⟨w, hw, hfits⟩, hkc, hchange⟩

/-- `_memheap_realloc` of a used block: in its heap, or by a move to another one. -/
theorem memheapRealloc_change (h : Valid W s B) (hw : w ∈ W.list) (hb : UsedBlock W B b) (hpos : 0 < size)
    (hsize : size ≤ 2 ^ 32 - 24) :
    (s.memheapRealloc w.1 (some (b.addr + 24)) size = .ok (none, s) ∧
        ∀ v ∈ W.list, ¬Fits (requestSize size) (B v.1)) ∨
      ∃ s' B' c, s.memheapRealloc w.1 (some (b.addr + 24)) size = .ok (some (c.addr + 24), s') ∧
        requestSize size ≤ c.size ∧ Change W B B' (some b) (some c) s s' ∧
        ∀ i < b.size, i < size → s'.byte (c.addr + 24 + i) = s.byte (b.addr + 24 + i) := by
  obtain ⟨hused, v, hv, hbv⟩ := hb
  obtain ⟨hk8, hk16, hksize, hkle⟩ := requestSize_spec size (by omega)
  have haddr := (h.items hv).addr_le hbv
  have hsizes := (h.items hv).sizes b hbv
  have hp : u32 (((b.addr + 24 : Nat) : Int) - memheapSize) = b.addr := by
    rw [memheapSize_eq]
    exact u32_eq (by push_cast; omega) (by omega)
  have hold : s.memitemSize b.addr = b.size := (h.items hv).memitemSize_eq hbv
  simp only [State.memheapRealloc, if_neg (Nat.ne_of_gt hpos), hp, (h.items hv).poolPtr b hbv]
  rcases rtMemheapRealloc_change h hv hbv hused hpos hsize with
    ⟨hnone, hgrow, -⟩ | ⟨s', B', c, hsome, hkc, hchange, hbytes⟩
  · -- a request for more bytes than the block has is larger by eight at least
    have hmin : b.size < size := by omega
    simp only [hnone]
    rcases memheapAlloc_change h hw (show size ≤ 2 ^ 32 - 8 by omega) with
      ⟨halloc, hfits⟩ | ⟨s₁, B₁, c, halloc, -, hkc, hchange₁⟩
    · simp only [halloc]
      exact .inl ⟨trivial, hfits⟩
    · have hold₁ : s₁.memitemSize b.addr = b.size := by
        obtain ⟨hbu, u, hu, hbu'⟩ := (hchange₁.used b).mpr (.inl ⟨⟨hused, v, hv, hbv⟩, nofun⟩)
        exact (hchange₁.valid.items hu).memitemSize_eq hbu'
      obtain ⟨s', B', hfree, hchange, hbytes⟩ :=
        copy_free_change ⟨hused, v, hv, hbv⟩ hchange₁ (Nat.le_refl b.size) (by omega)
      right
      simp only [halloc, hold₁, if_pos hmin, hfree]
      exact ⟨s', B', c, rfl, hkc, hchange, fun i hi _ => hbytes i hi⟩
  · right
    simp only [hsome]
    exact ⟨s', B', c, rfl, hkc, hchange, fun i hi hi' => hbytes i hi (by omega)⟩

end SwmLvgl.Memheap
