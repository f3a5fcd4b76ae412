import SwmLvgl.MemheapModel
import SwmLvgl.Rings

/-! What the stores to the items change, and the two rings under the operations on the links. A `Frame`
says to which items an operation stores. -/

namespace SwmLvgl.Memheap

open Rings

namespace State

variable (s : State)

@[simp] theorem setHeap_fields (hp : Nat) (h : RtMemheap) :
    (s.setHeap hp h).objects = s.objects ∧ (s.setHeap hp h).heap = Function.update s.heap hp h ∧
      (s.setHeap hp h).magic = s.magic ∧ (s.setHeap hp h).poolPtr = s.poolPtr ∧
      (s.setHeap hp h).next = s.next ∧ (s.setHeap hp h).prev = s.prev ∧
      (s.setHeap hp h).nextFree = s.nextFree ∧ (s.setHeap hp h).prevFree = s.prevFree :=
  ⟨rfl, rfl, rfl, rfl, rfl, rfl, rfl, rfl⟩

@[simp] theorem setMagic_fields (p : Nat) (w : BitVec 32) :
    (s.setMagic p w).objects = s.objects ∧ (s.setMagic p w).heap = s.heap ∧
      (s.setMagic p w).magic = Function.update s.magic p w ∧ (s.setMagic p w).poolPtr = s.poolPtr ∧
      (s.setMagic p w).next = s.next ∧ (s.setMagic p w).prev = s.prev ∧
      (s.setMagic p w).nextFree = s.nextFree ∧ (s.setMagic p w).prevFree = s.prevFree :=
  ⟨rfl, rfl, rfl, rfl, rfl, rfl, rfl, rfl⟩

@[simp] theorem setPoolPtr_fields (p v : Nat) :
    (s.setPoolPtr p v).objects = s.objects ∧ (s.setPoolPtr p v).heap = s.heap ∧
      (s.setPoolPtr p v).magic = s.magic ∧ (s.setPoolPtr p v).poolPtr = Function.update s.poolPtr p v ∧
      (s.setPoolPtr p v).next = s.next ∧ (s.setPoolPtr p v).prev = s.prev ∧
      (s.setPoolPtr p v).nextFree = s.nextFree ∧ (s.setPoolPtr p v).prevFree = s.prevFree :=
  ⟨rfl, rfl, rfl, rfl, rfl, rfl, rfl, rfl⟩

@[simp] theorem setNext_fields (p v : Nat) :
    (s.setNext p v).objects = s.objects ∧ (s.setNext p v).heap = s.heap ∧
      (s.setNext p v).magic = s.magic ∧ (s.setNext p v).poolPtr = s.poolPtr ∧
      (s.setNext p v).next = Function.update s.next p v ∧ (s.setNext p v).prev = s.prev ∧
      (s.setNext p v).nextFree = s.nextFree ∧ (s.setNext p v).prevFree = s.prevFree :=
  ⟨rfl, rfl, rfl, rfl, rfl, rfl, rfl, rfl⟩

@[simp] theorem setPrev_fields (p v : Nat) :
    (s.setPrev p v).objects = s.objects ∧ (s.setPrev p v).heap = s.heap ∧
      (s.setPrev p v).magic = s.magic ∧ (s.setPrev p v).poolPtr = s.poolPtr ∧
      (s.setPrev p v).next = s.next ∧ (s.setPrev p v).prev = Function.update s.prev p v ∧
      (s.setPrev p v).nextFree = s.nextFree ∧ (s.setPrev p v).prevFree = s.prevFree :=
  ⟨rfl, rfl, rfl, rfl, rfl, rfl, rfl, rfl⟩

@[simp] theorem setNextFree_fields (p v : Nat) :
    (s.setNextFree p v).objects = s.objects ∧ (s.setNextFree p v).heap = s.heap ∧
      (s.setNextFree p v).magic = s.magic ∧ (s.setNextFree p v).poolPtr = s.poolPtr ∧
      (s.setNextFree p v).next = s.next ∧ (s.setNextFree p v).prev = s.prev ∧
      (s.setNextFree p v).nextFree = Function.update s.nextFree p v ∧
      (s.setNextFree p v).prevFree = s.prevFree :=
  ⟨rfl, rfl, rfl, rfl, rfl, rfl, rfl, rfl⟩

@[simp] theorem setPrevFree_fields (p v : Nat) :
    (s.setPrevFree p v).objects = s.objects ∧ (s.setPrevFree p v).heap = s.heap ∧
      (s.setPrevFree p v).magic = s.magic ∧ (s.setPrevFree p v).poolPtr = s.poolPtr ∧
      (s.setPrevFree p v).next = s.next ∧ (s.setPrevFree p v).prev = s.prev ∧
      (s.setPrevFree p v).nextFree = s.nextFree ∧
      (s.setPrevFree p v).prevFree = Function.update s.prevFree p v :=
  ⟨rfl, rfl, rfl, rfl, rfl, rfl, rfl, rfl⟩

end State

/-- Nothing changes but the items at the addresses in `D` and the record of the heap `hp`. -/
structure Frame (D : Nat → Prop) (hp : Nat) (s s' : State) : Prop where
  objects : s'.objects = s.objects
  heap : ∀ hq, hq ≠ hp → s'.heap hq = s.heap hq
  magic : ∀ a, ¬D a → s'.magic a = s.magic a
  poolPtr : ∀ a, ¬D a → s'.poolPtr a = s.poolPtr a
  next : ∀ a, ¬D a → s'.next a = s.next a
  prev : ∀ a, ¬D a → s'.prev a = s.prev a
  nextFree : ∀ a, ¬D a → s'.nextFree a = s.nextFree a
  prevFree : ∀ a, ¬D a → s'.prevFree a = s.prevFree a
  byte : ∀ x, (∀ a, D a → x < a ∨ a + sizeofItem ≤ x) → s'.byte x = s.byte x

namespace Frame

variable {D : Nat → Prop} {hp p v : Nat} {s s' s'' : State}

theorem refl : Frame D hp s s :=
  ⟨rfl, fun _ _ => rfl, fun _ _ => rfl, fun _ _ => rfl, fun _ _ => rfl, fun _ _ => rfl, fun _ _ => rfl,
    fun _ _ => rfl, fun _ _ => rfl⟩

theorem trans (h : Frame D hp s s') (h' : Frame D hp s' s'') : Frame D hp s s'' where
  objects := h'.objects.trans h.objects
  heap hq hne := (h'.heap hq hne).trans (h.heap hq hne)
  magic a ha := (h'.magic a ha).trans (h.magic a ha)
  poolPtr a ha := (h'.poolPtr a ha).trans (h.poolPtr a ha)
  next a ha := (h'.next a ha).trans (h.next a ha)
  prev a ha := (h'.prev a ha).trans (h.prev a ha)
  nextFree a ha := (h'.nextFree a ha).trans (h.nextFree a ha)
  prevFree a ha := (h'.prevFree a ha).trans (h.prevFree a ha)
  byte x hx := (h'.byte x hx).trans (h.byte x hx)

theorem mono {E : Nat → Prop} (h : Frame D hp s s') (hDE : ∀ a, D a → E a) : Frame E hp s s' where
  objects := h.objects
  heap := h.heap
  magic a ha := h.magic a (mt (hDE a) ha)
  poolPtr a ha := h.poolPtr a (mt (hDE a) ha)
  next a ha := h.next a (mt (hDE a) ha)
  prev a ha := h.prev a (mt (hDE a) ha)
  nextFree a ha := h.nextFree a (mt (hDE a) ha)
  prevFree a ha := h.prevFree a (mt (hDE a) ha)
  byte x hx := h.byte x fun a ha => hx a (hDE a ha)

theorem update_of_mem {α : Type*} {f : Nat → α} {w : α} {a : Nat} (h : D p) (ha : ¬D a) :
    Function.update f p w a = f a := by
  apply Function.update_of_ne
  rintro rfl
  exact ha h

theorem storeWord_of_mem {m : Nat → BitVec 8} {w : BitVec 32} {x k : Nat} (h : D p) (hk : k ≤ 20)
    (hx : ∀ a, D a → x < a ∨ a + sizeofItem ≤ x) : storeWord m (p + k) w x = m x := by
  have hout := hx p h
  rw [sizeofItem] at hout
  exact if_neg (by omega)

theorem setHeap (h : RtMemheap) : Frame D hp s (s.setHeap hp h) :=
  { (refl : Frame D hp s s) with
    heap := fun hq hne => by rw [(s.setHeap_fields hp h).2.1, Function.update_of_ne hne] }

theorem setMagic (h : D p) (w : BitVec 32) : Frame D hp s (s.setMagic p w) :=
  { refl (s := s) with
    magic := fun _ ha => update_of_mem h ha
    byte := fun _ hx => storeWord_of_mem h (Nat.zero_le 20) hx }

theorem setPoolPtr (h : D p) : Frame D hp s (s.setPoolPtr p v) :=
  { refl (s := s) with
    poolPtr := fun _ ha => update_of_mem h ha
    byte := fun _ hx => storeWord_of_mem h (by decide) hx }

theorem setNext (h : D p) : Frame D hp s (s.setNext p v) :=
  { refl (s := s) with
    next := fun _ ha => update_of_mem h ha
    byte := fun _ hx => storeWord_of_mem h (by decide) hx }

theorem setPrev (h : D p) : Frame D hp s (s.setPrev p v) :=
  { refl (s := s) with
    prev := fun _ ha => update_of_mem h ha
    byte := fun _ hx => storeWord_of_mem h (by decide) hx }

theorem setNextFree (h : D p) : Frame D hp s (s.setNextFree p v) :=
  { refl (s := s) with
    nextFree := fun _ ha => update_of_mem h ha
    byte := fun _ hx => storeWord_of_mem h (by decide) hx }

theorem setPrevFree (h : D p) : Frame D hp s (s.setPrevFree p v) :=
  { refl (s := s) with
    prevFree := fun _ ha => update_of_mem h ha
    byte := fun _ hx => storeWord_of_mem h (Nat.le_refl 20) hx }

end Frame

namespace State

variable {s : State} {r p n hp size : Nat} {xs ys : List Nat} {D : Nat → Prop}

@[simp] theorem initItem_fields (w : BitVec 32) (a b c d e : Nat) :
    (s.initItem p w a b c d e).objects = s.objects ∧ (s.initItem p w a b c d e).heap = s.heap ∧
      (s.initItem p w a b c d e).magic = Function.update s.magic p w ∧
      (s.initItem p w a b c d e).poolPtr = Function.update s.poolPtr p a ∧
      (s.initItem p w a b c d e).next = Function.update s.next p b ∧
      (s.initItem p w a b c d e).prev = Function.update s.prev p c ∧
      (s.initItem p w a b c d e).nextFree = Function.update s.nextFree p d ∧
      (s.initItem p w a b c d e).prevFree = Function.update s.prevFree p e := by
  simp [initItem]

theorem frame_initItem (h : D p) (w : BitVec 32) (a b c d e : Nat) :
    Frame D hp s (s.initItem p w a b c d e) :=
  ((((Frame.setMagic h w).trans (Frame.setPoolPtr h)).trans (Frame.setNext h)).trans (Frame.setPrev h)).trans
    ((Frame.setNextFree h).trans (Frame.setPrevFree h))

@[simp] theorem linkNext_fields :
    (s.linkNext p n).objects = s.objects ∧ (s.linkNext p n).heap = s.heap ∧
      (s.linkNext p n).magic = s.magic ∧ (s.linkNext p n).poolPtr = s.poolPtr ∧
      (s.linkNext p n).nextFree = s.nextFree ∧ (s.linkNext p n).prevFree = s.prevFree := by
  simp [linkNext]

theorem ring_linkNext (h : Ring s.next s.prev r (xs ++ p :: ys)) (hn : n ∉ r :: (xs ++ p :: ys)) :
    Ring (s.linkNext p n).next (s.linkNext p n).prev r (xs ++ p :: n :: ys) := by
  have hpn : p ≠ n := by
    rintro rfl
    exact hn (by simp)
  have hring := h.link_node hn
  simp only [linkNext, setNext_fields, setPrev_fields, Function.update_of_ne hpn]
  exact hring

theorem frame_linkNext (hp' : D p) (hn : D n) (hnext : D (s.next p)) (hpn : p ≠ n) :
    Frame D hp s (s.linkNext p n) := by
  refine ((Frame.setPrev hn).trans (Frame.setNext hn)).trans ((Frame.setPrev ?_).trans (Frame.setNext hp'))
  rw [(setNext_fields _ _ _).2.2.2.2.1, (setPrev_fields _ _ _).2.2.2.2.1, Function.update_of_ne hpn]
  exact hnext

@[simp] theorem newItem_fields :
    (s.newItem hp p size).objects = s.objects ∧ (s.newItem hp p size).heap = s.heap ∧
      (s.newItem hp p size).magic =
        Function.update s.magic (p + size + memheapSize) (memheapMagic ||| memheapFreed) ∧
      (s.newItem hp p size).poolPtr = Function.update s.poolPtr (p + size + memheapSize) hp ∧
      (s.newItem hp p size).nextFree = s.nextFree ∧ (s.newItem hp p size).prevFree = s.prevFree := by
  simp [newItem]

/-! ### The ring of the free items -/

@[simp] theorem unlinkFree_fields :
    (s.unlinkFree p).objects = s.objects ∧ (s.unlinkFree p).heap = s.heap ∧
      (s.unlinkFree p).magic = s.magic ∧ (s.unlinkFree p).poolPtr = s.poolPtr ∧
      (s.unlinkFree p).next = s.next ∧ (s.unlinkFree p).prev = s.prev := by
  simp [unlinkFree]

theorem ring_unlinkFree (h : Ring s.nextFree s.prevFree r (xs ++ p :: ys)) :
    Ring (s.unlinkFree p).nextFree (s.unlinkFree p).prevFree r (xs ++ ys) := by
  have hring := h.unlink
  simp only [unlinkFree, setNextFree_fields, setPrevFree_fields, Function.update_of_ne h.next_ne.symm]
  exact hring

theorem frame_unlinkFree (hnext : D (s.nextFree p)) (hprev : D (s.prevFree p))
    (hne : s.nextFree p ≠ p) : Frame D hp s (s.unlinkFree p) := by
  refine (Frame.setPrevFree hnext).trans (Frame.setNextFree ?_)
  rw [(setPrevFree_fields _ _ _).2.2.2.2.2.2.2, Function.update_of_ne hne.symm]
  exact hprev

@[simp] theorem linkFree_fields :
    (s.linkFree r p).objects = s.objects ∧ (s.linkFree r p).heap = s.heap ∧
      (s.linkFree r p).magic = s.magic ∧ (s.linkFree r p).poolPtr = s.poolPtr ∧
      (s.linkFree r p).next = s.next ∧ (s.linkFree r p).prev = s.prev := by
  simp [linkFree]

theorem ring_linkFree (h : Ring s.nextFree s.prevFree r xs) (hp : p ∉ r :: xs) :
    Ring (s.linkFree r p).nextFree (s.linkFree r p).prevFree r (p :: xs) := by
  have hrp : r ≠ p := by
    rintro rfl
    exact hp List.mem_cons_self
  have hring := h.link_header hp
  simp only [linkFree, setNextFree_fields, setPrevFree_fields, Function.update_of_ne hrp]
  exact hring

theorem frame_linkFree (hr : D r) (hp' : D p) (hnext : D (s.nextFree r)) (hrp : r ≠ p) :
    Frame D hp s (s.linkFree r p) := by
  refine ((Frame.setNextFree hp').trans (Frame.setPrevFree hp')).trans
    ((Frame.setPrevFree ?_).trans (Frame.setNextFree hr))
  rw [(setPrevFree_fields _ _ _).2.2.2.2.2.2.1, (setNextFree_fields _ _ _).2.2.2.2.2.2.1,
    Function.update_of_ne hrp]
  exact hnext

@[simp] theorem insertFree_fields :
    (s.insertFree r p).objects = s.objects ∧ (s.insertFree r p).heap = s.heap ∧
      (s.insertFree r p).magic = s.magic ∧ (s.insertFree r p).poolPtr = s.poolPtr ∧
      (s.insertFree r p).next = s.next ∧ (s.insertFree r p).prev = s.prev := by
  simp [insertFree]

theorem ring_insertFree (h : Ring s.nextFree s.prevFree r xs) (hp : p ∉ r :: xs) :
    Ring (s.insertFree r p).nextFree (s.insertFree r p).prevFree r (p :: xs) := by
  have hback : s.prevFree (s.nextFree r) = r := h.prev_next List.mem_cons_self
  have hne : s.nextFree r ≠ p := fun heq => hp (heq ▸ h.mem_of_next_header)
  have hring := h.link_header hp
  simp only [insertFree, setNextFree_fields, setPrevFree_fields, Function.update_of_ne hne, hback]
  exact hring

theorem frame_insertFree (h : Ring s.nextFree s.prevFree r xs) (hp' : p ∉ r :: xs) (hr : D r) (hD : D p)
    (hnext : D (s.nextFree r)) : Frame D hp s (s.insertFree r p) := by
  have hback : s.prevFree (s.nextFree r) = r := h.prev_next List.mem_cons_self
  have hne : s.nextFree r ≠ p := fun heq => hp' (heq ▸ h.mem_of_next_header)
  refine ((Frame.setNextFree hD).trans (Frame.setPrevFree hD)).trans
    ((Frame.setNextFree ?_).trans (Frame.setPrevFree hnext))
  rw [(setPrevFree_fields _ _ _).2.2.2.2.2.2.2, (setNextFree_fields _ _ _).2.2.2.2.2.2.2,
    Function.update_of_ne hne, hback]
  exact hr

/-- The links of an item that is not in the ring do not count. -/
theorem ring_clearFree (h : Ring s.nextFree s.prevFree r xs) (hp : p ∉ r :: xs) :
    Ring ((s.setNextFree p 0).setPrevFree p 0).nextFree ((s.setNextFree p 0).setPrevFree p 0).prevFree r
      xs := by
  have hne : ∀ a ∈ r :: xs, a ≠ p := fun a ha heq => hp (heq ▸ ha)
  apply h.congr
  · intro a ha
    simp [Function.update_of_ne (hne a ha)]
  · intro a ha
    simp [Function.update_of_ne (hne a ha)]

theorem ring_initItem (h : Ring s.nextFree s.prevFree r xs) {w : BitVec 32} {a b c d e : Nat}
    (hp : p ∉ r :: xs) :
    Ring (s.initItem p w a b c d e).nextFree (s.initItem p w a b c d e).prevFree r xs := by
  have hne : ∀ a ∈ r :: xs, a ≠ p := fun a ha heq => hp (heq ▸ ha)
  apply h.congr
  · intro a ha
    simp [Function.update_of_ne (hne a ha)]
  · intro a ha
    simp [Function.update_of_ne (hne a ha)]

theorem frame_clearFree (hp' : D p) : Frame D hp s ((s.setNextFree p 0).setPrevFree p 0) :=
  (Frame.setNextFree hp').trans (Frame.setPrevFree hp')

@[simp] theorem setAvailable_fields (a : Nat) :
    (s.setAvailable hp a).objects = s.objects ∧ (s.setAvailable hp a).magic = s.magic ∧
      (s.setAvailable hp a).poolPtr = s.poolPtr ∧ (s.setAvailable hp a).next = s.next ∧
      (s.setAvailable hp a).prev = s.prev ∧ (s.setAvailable hp a).nextFree = s.nextFree ∧
      (s.setAvailable hp a).prevFree = s.prevFree :=
  ⟨rfl, rfl, rfl, rfl, rfl, rfl, rfl⟩

@[simp] theorem addAvailable_fields (a : Int) :
    (s.addAvailable hp a).objects = s.objects ∧ (s.addAvailable hp a).magic = s.magic ∧
      (s.addAvailable hp a).poolPtr = s.poolPtr ∧ (s.addAvailable hp a).next = s.next ∧
      (s.addAvailable hp a).prev = s.prev ∧ (s.addAvailable hp a).nextFree = s.nextFree ∧
      (s.addAvailable hp a).prevFree = s.prevFree :=
  ⟨rfl, rfl, rfl, rfl, rfl, rfl, rfl⟩

theorem frame_addAvailable (a : Int) : Frame D hp s (s.addAvailable hp a) := Frame.setHeap _

theorem frame_setAvailable (a : Nat) : Frame D hp s (s.setAvailable hp a) := Frame.setHeap _

end State

end SwmLvgl.Memheap
