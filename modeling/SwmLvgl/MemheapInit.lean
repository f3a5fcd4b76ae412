import SwmLvgl.MemheapHeaps

/-! `rt_memheap_init`: a heap with one free block. -/

namespace SwmLvgl.Memheap

open Blocks Rings

variable {s : State} {hp : Nat} {P : Pool} {size : Nat}

/-- The block of a heap after its initialization. -/
def Pool.whole (P : Pool) : Block := ⟨P.startAddr, P.poolSize - 48, false⟩

theorem Pool.tail_start (P : Pool) : P.startAddr + (P.poolSize - 48) + memheapSize = P.tail := by
  have hroom := P.room
  have htail := P.tail_eq
  rw [memheapSize_eq]
  omega

theorem available_init (P : Pool) : u32 ((P.poolSize : Int) - 2 * memheapSize) = P.poolSize - 48 := by
  have hroom := P.room
  have hlt := P.poolSize_lt
  rw [memheapSize_eq]
  exact u32_eq (by omega) (by omega)

theorem Pool.freeList_ne (P : Pool) : P.freeList ≠ P.startAddr ∧ P.freeList ≠ P.tail ∧ P.startAddr ≠ P.tail := by
  have hheader := P.header
  have hroom := P.room
  have htail := P.tail_eq
  omega

theorem rtMemheapInit_frame (hsize : rtAlignDown size rtAlignSize = P.poolSize) :
    Frame P.Owns hp { s with objects := hp :: s.objects } (s.rtMemheapInit hp P.freeList P.startAddr size) := by
  have hroom := P.room
  have htail := P.tail_eq
  have hF : P.Owns P.freeList := .inl rfl
  have ha : P.Owns P.startAddr := .inr (by omega)
  have ht : P.Owns P.tail := .inr (by omega)
  obtain ⟨hFa, -, -⟩ := P.freeList_ne
  simp only [State.rtMemheapInit, hsize, available_init, P.tail_start]
  refine (((((State.frame_initItem hF _ _ _ _ _ _).trans (Frame.setHeap _)).trans
    (State.frame_initItem ha _ _ _ _ _ _)).trans (Frame.setNext ha)).trans (Frame.setPrev ha)).trans
    ((State.frame_linkFree hF ha ?_ hFa).trans (State.frame_initItem ht _ _ _ _ _ _))
  simp [Function.update_of_ne hFa, hF]

theorem rtMemheapInit_items (hsize : rtAlignDown size rtAlignSize = P.poolSize) :
    Items (s.rtMemheapInit hp P.freeList P.startAddr size) hp P [P.whole] := by
  obtain ⟨hFa, hFt, hat⟩ := P.freeList_ne
  have hsizeDvd := P.size_dvd
  have hroom := P.room
  simp only [State.rtMemheapInit, hsize, available_init, P.tail_start]
  refine ⟨⟨rfl, ?_⟩, ⟨?_, ?_⟩, ?_, ?_, ?_, ?_⟩
  · show P.startAddr + memheapSize + (P.poolSize - 48) = P.tail
    rw [← P.tail_start]
    omega
  · simp [Links, Pool.whole, Function.update_of_ne hat]
  · simpa [Pool.whole] using hat.symm
  · simp [Pool.whole, Function.update_of_ne hat]
  · simp
  · simp [Pool.whole, Function.update_of_ne hat]
  · rintro b hb
    obtain rfl := List.mem_singleton.mp hb
    show 8 ∣ P.poolSize - 48 ∧ 16 ≤ P.poolSize - 48
    omega

/-- After `rt_memheap_init` the heap has one free block, which is the whole pool. -/
theorem rtMemheapInit_holds (hsize : rtAlignDown size rtAlignSize = P.poolSize) :
    Holds (s.rtMemheapInit hp P.freeList P.startAddr size) hp P [P.whole] [P.startAddr] := by
  obtain ⟨hFa, hFt, hat⟩ := P.freeList_ne
  have hroom := P.room
  have hlt := P.poolSize_lt
  have hfree : freeSize [P.whole] = P.poolSize - 48 := by simp [freeSize, Pool.whole]
  have hused : u32 ((P.poolSize : Int) - ((P.poolSize - 48 : Nat) : Int)) = 48 := u32_eq (by omega) (by omega)
  refine ⟨rtMemheapInit_items hsize, ?_, ?_, by simp [frees, Pool.whole], .singleton _⟩
  · simp only [State.rtMemheapInit, hsize, available_init, P.tail_start]
    refine State.ring_initItem (State.ring_linkFree (⟨?_, ?_⟩ : Ring _ _ _ []) ?_) ?_
    · simp [Links, Function.update_of_ne hFa]
    · simp
    · simpa using hFa.symm
    · simpa using ⟨hFt.symm, hat.symm⟩
  · rw [hfree]
    simp only [State.rtMemheapInit, hsize, available_init, P.tail_start, State.initItem_fields,
      State.linkFree_fields, State.setPrev_fields, State.setNext_fields, State.setHeap_fields,
      Function.update_self, hused]
    refine ⟨rfl, rfl, rfl, rfl, ?_⟩
    show P.poolSize ≤ 48 + (P.poolSize - 48)
    omega

end SwmLvgl.Memheap
