import SwmLvgl.MemheapClient

/-! What the users of the heaps get, in every run after the initialization: allocations apart from each
other whose contents stay, a block whenever one is large enough, and the whole memory again when nothing is
held. -/

namespace SwmLvgl.Memheap

open Blocks

namespace State

variable (s : State)

/-- The blocks from an item on, by the links, with the tail as the end. -/
def blocksFrom (tail : Nat) : Nat → Nat → List Block
  | 0, _ => []
  | n + 1, a =>
      if a = tail then []
      else ⟨a, s.memitemSize a, decide (s.isUsed a)⟩ :: blocksFrom tail n (s.next a)

/-- The blocks of a heap. -/
def blocksOf (hp : Nat) : List Block :=
  let h := s.heap hp
  s.blocksFrom (h.startAddr + h.poolSize - memheapSize) h.poolSize h.startAddr

end State

variable {W : Heaps} {B : Nat → List Block} {c : Client} {s : State} {hp : Nat} {P : Pool} {bs : List Block}
  {fs : List Nat}

theorem blocksFrom_eq (h : Items s hp P bs) (xs : List Block) {ys : List Block} (hsplit : bs = xs ++ ys)
    {n : Nat} (hn : ys.length < n) :
    s.blocksFrom P.tail n ((ys.map Block.addr ++ [P.tail]).head (by simp)) = ys := by
  induction ys generalizing xs n with
  | nil =>
      obtain ⟨n, rfl⟩ : ∃ m, n = m + 1 := ⟨n - 1, by omega⟩
      exact if_pos rfl
  | cons b ys ih =>
      obtain ⟨n, rfl⟩ : ∃ m, n = m + 1 := ⟨n - 1, by omega⟩
      subst hsplit
      have hb : b ∈ xs ++ b :: ys := by simp
      have hring := h.ring
      rw [List.map_append, List.map_cons] at hring
      have htail := ih (xs ++ [b]) (n := n) (by simp) (by simpa using hn)
      rw [← hring.next_node] at htail
      have hused : decide (s.isUsed b.addr) = b.used := by
        rw [Bool.eq_iff_iff, decide_eq_true_iff]
        exact h.isUsed_iff hb
      show (if b.addr = P.tail then [] else
        ⟨b.addr, s.memitemSize b.addr, decide (s.isUsed b.addr)⟩ :: s.blocksFrom P.tail n (s.next b.addr)) = _
      rw [if_neg (h.tail_ne hb), htail, h.memitemSize_eq hb, hused]

/-- The blocks of the invariant are those in memory. -/
theorem blocksOf_eq (h : Holds s hp P bs fs) : s.blocksOf hp = bs := by
  have hlen := h.items.freeSize_le
  have hwalk := blocksFrom_eq h.items [] rfl (n := P.poolSize) (by omega)
  have hfirst : (bs.map Block.addr ++ [P.tail]).head (by simp) = P.startAddr := by
    cases bs with
    | nil => exact h.items.tiles.symm
    | cons b bs => exact h.items.tiles.1
  rw [hfirst] at hwalk
  rw [State.blocksOf, h.record.startAddr, h.record.poolSize]
  exact hwalk

/-- Free blocks are joined, so that a pool without a used one is a single block. -/
theorem Holds.whole_of_free (h : Holds s hp P bs fs) (hfree : ∀ b ∈ bs, b.used = false) : bs = [P.whole] := by
  have hlen := h.coalesced.length_le hfree
  have htiles := h.items.tiles
  have htail := P.tail_eq
  have hroom := P.room
  match bs, htiles, hfree with
  | [], hend, _ =>
      have hend : P.startAddr = P.tail := hend
      omega
  | [⟨a, size, used⟩], ⟨hstart, hend⟩, hfree =>
      have hstart : a = P.startAddr := hstart
      have hend : P.startAddr + memheapSize + size = P.tail := hend
      have hused : used = false := hfree ⟨a, size, used⟩ (by simp)
      rw [memheapSize_eq] at hend
      rw [hstart, hused, Pool.whole, show size = P.poolSize - 48 by omega]
  | b :: d :: bs, _, _ => simp at hlen

/-- The allocations do not overlap, headers and saved pointers included; each is in the pool of a heap, and
aligned. -/
structure Apart (W : Heaps) (c : Client) : Prop where
  pairwise : c.held.Pairwise fun g h => g.ptr + g.size + 24 ≤ h.base ∨ h.ptr + h.size + 24 ≤ g.base
  inside : ∀ h ∈ c.held, ∃ v ∈ W.list, v.2.startAddr + 24 ≤ h.base ∧ h.ptr + h.size ≤ v.2.tail
  aligned : ∀ h ∈ c.held, 8 ∣ h.base ∧ h.base ≤ h.ptr ∧ h.align ∣ h.ptr

theorem Inv.apart (hinv : Inv W B c) : Apart W c := by
  refine ⟨?_, fun h hh => ?_, fun h hh => ?_⟩
  · have hnodup := hinv.nodup
    rw [List.Nodup, List.pairwise_map] at hnodup
    refine hnodup.imp_of_mem fun {g h} hg hh hne => ?_
    obtain ⟨b, hb, hbg⟩ := hinv.fit g hg
    obtain ⟨d, hd, hdh⟩ := hinv.fit h hh
    have hbase := hbg.base
    have hbase' := hdh.base
    have hstop := hbg.stop
    have hstop' := hdh.stop
    have hbd : b ≠ d := by
      rintro rfl
      exact hne (hbase.symm.trans hbase')
    have hapart := hinv.valid.used_apart hb hd hbd
    omega
  · obtain ⟨b, hb, hbh⟩ := hinv.fit h hh
    obtain ⟨-, v, hv, hbv⟩ := hb
    have hle := (hinv.valid.items hv).mem_le hbv
    have hbase := hbh.base
    have hstop := hbh.stop
    exact ⟨v, hv, by omega, by omega⟩
  · obtain ⟨b, hb, hbh⟩ := hinv.fit h hh
    have hdvd := hinv.valid.aligned hb
    have hptr := hbh.ptr
    rw [hbh.base] at hdvd
    exact ⟨hdvd, by omega, hbh.align⟩

/-! ### Runs -/

/-- The system heap, in the internal RAM. -/
def systemHeap : Nat × Pool :=
  (0x20000100, ⟨0x20000400, 0xF000, 0x20000140, by decide, by decide, by decide, by decide, by decide,
    by decide⟩)

/-- The heap in the SDRAM. -/
def sdramHeap : Nat × Pool :=
  (0x20000200, ⟨0x80000000, 0x800000, 0x20000240, by decide, by decide, by decide, by decide, by decide,
    by decide⟩)

/-- The two heaps; the one in the SDRAM is initialized last. -/
def boardHeaps : Heaps where
  list := [sdramHeap, systemHeap]
  nodup := by decide
  apart := by
    refine List.pairwise_cons.mpr ⟨fun v hv a b ha hb => ?_, List.pairwise_singleton _ _⟩
    obtain rfl := List.mem_singleton.mp hv
    simp only [Pool.Owns, sdramHeap, systemHeap] at ha hb
    omega

/-- A memory of zeros. -/
def blank : State :=
  ⟨[], fun _ => ⟨0, 0, 0, 0, 0, 0⟩, fun _ => 0, fun _ => 0, fun _ => 0, fun _ => 0, fun _ => 0, fun _ => 0,
    fun _ => 0⟩

/-- A user that makes three allocations, moves the first one to the SDRAM and frees the second. -/
def heldEvents : List Event :=
  [.malloc 100, .mallocAlign 40 64, .calloc 3 10, .store 2 7 0xA5, .realloc 2 70000, .free 1]

/-- The same user, who then gives the other two back. -/
def boardEvents : List Event := heldEvents ++ [.realloc 0 0, .free 0]

theorem heldEvents_ok : ∀ e ∈ heldEvents, e.Ok := by
  simp only [heldEvents, List.forall_mem_cons, Event.Ok]
  exact ⟨by decide, ⟨by decide, 6, rfl⟩, by decide, trivial, by decide, trivial, nofun⟩

theorem boardEvents_ok : ∀ e ∈ boardEvents, e.Ok := by
  intro e he
  rcases List.mem_append.mp he with he | he
  · exact heldEvents_ok e he
  · simp only [List.mem_cons, List.not_mem_nil, or_false] at he
    rcases he with rfl | rfl
    · exact Nat.zero_le _
    · trivial

/-- The places and sizes of what is held, with the byte 7 of each. -/
def Client.glance (c : Client) : List (Nat × Nat × BitVec 8) := c.held.map fun h => (h.ptr, h.size, h.data 7)

theorem heldEvents_glance {c : Client}
    (hrun : Run.run (perform systemHeap.1) ⟨boot boardHeaps.list blank, []⟩ heldEvents = .ok c) :
    c.glance = [(0x20000518, 30, 0), (0x80000018, 70000, 0xA5)] := by
  have hmap : (Run.run (perform systemHeap.1) ⟨boot boardHeaps.list blank, []⟩ heldEvents).map Client.glance =
      .ok [(0x20000518, 30, 0), (0x80000018, 70000, 0xA5)] := by decide +kernel
  rw [hrun] at hmap
  exact Except.ok.inj hmap

theorem boardEvents_held {c : Client}
    (hrun : Run.run (perform systemHeap.1) ⟨boot boardHeaps.list blank, []⟩ boardEvents = .ok c) :
    c.held = [] := by
  have hmap : (Run.run (perform systemHeap.1) ⟨boot boardHeaps.list blank, []⟩ boardEvents).map Client.glance =
      .ok [] := by decide +kernel
  rw [hrun] at hmap
  exact List.map_eq_nil_iff.mp (Except.ok.inj hmap)

theorem systemHeap_mem : systemHeap ∈ boardHeaps.list := List.mem_cons_of_mem _ List.mem_cons_self

section Runs

variable {w : Nat × Pool} (hw : w ∈ W.list) (s : State) {es : List Event} (hes : ∀ e ∈ es, e.Ok)

include hw hes

theorem run_boot : ∃ c B, Run.run (perform w.1) ⟨boot W.list s, []⟩ es = .ok c ∧ Inv W B c := by
  obtain ⟨B, hinv⟩ := boot_inv W s
  exact run_inv hw hinv hes

end Runs

end SwmLvgl.Memheap
