import Mathlib.Logic.Function.Basic
import SwmLvgl.LeWords
import SwmLvgl.Loops

/-! The memory heaps of RT-Thread (`memheap.c`), from which `rt_malloc` allocates: the heap in the
internal RAM and the one in the SDRAM. A heap is a pool of items that follow each other, each a header
of 24 bytes and its payload; the items are linked in the order of their addresses, and the free ones in
a ring around a header in `struct rt_memheap`. The memory is seen twice: by the fields of the items at
their addresses, and by its bytes. A failed assertion is a fault. -/

namespace SwmLvgl.Memheap

open Memory (byte)

/-- `RT_MEMHEAP_MAGIC` -/
def memheapMagic : BitVec 32 := 0x1ea01ea0

/-- `RT_MEMHEAP_MASK` -/
def memheapMask : BitVec 32 := 0xFFFFFFFE

/-- `RT_MEMHEAP_USED` -/
def memheapUsed : BitVec 32 := 0x01

/-- `RT_MEMHEAP_FREED` -/
def memheapFreed : BitVec 32 := 0x00

/-- `RT_ALIGN_SIZE` -/
def rtAlignSize : Nat := 8

/-- A 32-bit result. -/
def u32 (z : Int) : Nat := (z % 2 ^ 32).toNat

/-- `RT_ALIGN`, for a power of two. -/
def rtAlign (size align : Nat) : Nat := u32 (size + align - 1) / align * align

/-- `RT_ALIGN_DOWN`, for a power of two. -/
def rtAlignDown (size align : Nat) : Nat := size / align * align

/-- `sizeof(struct rt_memheap_item)` -/
def sizeofItem : Nat := 24

/-- `RT_MEMHEAP_SIZE` -/
def memheapSize : Nat := rtAlign sizeofItem rtAlignSize

/-- `RT_MEMHEAP_MINIALLOC` -/
def memheapMinialloc : Nat := rtAlign 12 rtAlignSize

/-- The size that is allocated for a request. -/
def requestSize (size : Nat) : Nat :=
  let size := rtAlign size rtAlignSize
  if size < memheapMinialloc then memheapMinialloc else size

/-- `struct rt_memheap`; the ring of the free items goes around the item `freeList`. -/
structure RtMemheap where
  startAddr : Nat
  poolSize : Nat
  availableSize : Nat
  maxUsedSize : Nat
  blockList : Nat
  freeList : Nat
  deriving DecidableEq, Repr

inductive Fault where
  | assertion
  | search
  deriving DecidableEq, Repr

/-- The heaps by their addresses, in the order of the object list; the fields of the items by the
addresses of the items; and the bytes. -/
structure State where
  objects : List Nat
  heap : Nat → RtMemheap
  magic : Nat → BitVec 32
  poolPtr : Nat → Nat
  next : Nat → Nat
  prev : Nat → Nat
  nextFree : Nat → Nat
  prevFree : Nat → Nat
  byte : Nat → BitVec 8

/-- The bytes after the store of a word. -/
def storeWord (m : Nat → BitVec 8) (a : Nat) (w : BitVec 32) : Nat → BitVec 8 := fun x =>
  if a ≤ x ∧ x < a + 4 then Memory.byte w (x - a) else m x

namespace State

variable (s : State)

def setHeap (hp : Nat) (h : RtMemheap) : State := { s with heap := Function.update s.heap hp h }

def setMagic (p : Nat) (w : BitVec 32) : State :=
  { s with
    magic := Function.update s.magic p w
    byte := storeWord s.byte p w }

def setPoolPtr (p v : Nat) : State :=
  { s with
    poolPtr := Function.update s.poolPtr p v
    byte := storeWord s.byte (p + 4) (.ofNat 32 v) }

def setNext (p v : Nat) : State :=
  { s with
    next := Function.update s.next p v
    byte := storeWord s.byte (p + 8) (.ofNat 32 v) }

def setPrev (p v : Nat) : State :=
  { s with
    prev := Function.update s.prev p v
    byte := storeWord s.byte (p + 12) (.ofNat 32 v) }

def setNextFree (p v : Nat) : State :=
  { s with
    nextFree := Function.update s.nextFree p v
    byte := storeWord s.byte (p + 16) (.ofNat 32 v) }

def setPrevFree (p v : Nat) : State :=
  { s with
    prevFree := Function.update s.prevFree p v
    byte := storeWord s.byte (p + 20) (.ofNat 32 v) }

/-- `RT_MEMHEAP_IS_USED` -/
def isUsed (p : Nat) : Prop := s.magic p &&& memheapUsed ≠ 0

instance (p : Nat) : Decidable (s.isUsed p) := inferInstanceAs (Decidable (_ ≠ _))

/-- `MEMITEM_SIZE` -/
def memitemSize (p : Nat) : Nat := u32 ((s.next p : Int) - p - memheapSize)

/-- An item is put behind another one. -/
def linkNext (p n : Nat) : State :=
  let s := s.setPrev n p
  let s := s.setNext n (s.next p)
  let s := s.setPrev (s.next p) n
  s.setNext p n

/-- An item is taken out of the ring of the free ones. -/
def unlinkFree (p : Nat) : State :=
  let s := s.setPrevFree (s.nextFree p) (s.prevFree p)
  s.setNextFree (s.prevFree p) (s.nextFree p)

/-- An item is put behind the header of the ring of the free ones. -/
def linkFree (freeList p : Nat) : State :=
  let s := s.setNextFree p (s.nextFree freeList)
  let s := s.setPrevFree p freeList
  let s := s.setPrevFree (s.nextFree freeList) p
  s.setNextFree freeList p

/-- The new value of `available_size`, and of `max_used_size`. -/
def setAvailable (hp available : Nat) : State :=
  let h := s.heap hp
  let used := u32 ((h.poolSize : Int) - available)
  s.setHeap hp
    { h with
      availableSize := available
      maxUsedSize := if h.maxUsedSize < used then used else h.maxUsedSize }

/-- `available_size += n` -/
def addAvailable (hp : Nat) (n : Int) : State :=
  let h := s.heap hp
  s.setHeap hp { h with availableSize := u32 (h.availableSize + n) }

/-- The stores that initialize an item. -/
def initItem (p : Nat) (magic : BitVec 32) (poolPtr next prev nextFree prevFree : Nat) : State :=
  let s := s.setMagic p magic
  let s := s.setPoolPtr p poolPtr
  let s := s.setNext p next
  let s := s.setPrev p prev
  let s := s.setNextFree p nextFree
  s.setPrevFree p prevFree

/-- `rt_memheap_init` -/
def rtMemheapInit (hp freeHeader startAddr size : Nat) : State :=
  let poolSize := rtAlignDown size rtAlignSize
  let available := u32 ((poolSize : Int) - 2 * memheapSize)
  let s := { s with objects := hp :: s.objects }
  -- the header of the free items
  let s := s.initItem freeHeader (memheapMagic ||| memheapFreed) hp 0 0 freeHeader freeHeader
  let s := s.setHeap hp
    { startAddr := startAddr
      poolSize := poolSize
      availableSize := available
      maxUsedSize := u32 ((poolSize : Int) - available)
      blockList := startAddr
      freeList := freeHeader }
  -- the free item
  let tail := startAddr + available + memheapSize
  let s := s.initItem startAddr (memheapMagic ||| memheapFreed) hp 0 0 startAddr startAddr
  let s := s.setNext startAddr tail
  let s := s.setPrev startAddr (s.next startAddr)
  let s := s.linkFree freeHeader startAddr
  -- the tailer
  s.initItem tail (memheapMagic ||| memheapUsed) hp startAddr startAddr 0 0

/-- The loop over the free items, on `header_ptr` and `free_size`. -/
def searchStep (freeList size : Nat) : Nat × Nat → (Nat × Nat) ⊕ (Nat × Nat)
  | (p, freeSize) =>
      if p ≠ freeList ∧ freeSize < size then
        let freeSize := s.memitemSize p
        .inl (if freeSize < size then s.nextFree p else p, freeSize)
      else .inr (p, freeSize)

/-- A new free item in a payload, `size` bytes behind the header of `p`. -/
def newItem (hp p size : Nat) : State :=
  let n := p + size + memheapSize
  let s := s.setMagic n (memheapMagic ||| memheapFreed)
  let s := s.setPoolPtr n hp
  s.linkNext p n

/-- What `rt_memheap_alloc` does with the free item found. -/
def takeItem (hp p size freeSize : Nat) : State :=
  let s :=
    if u32 (size + memheapSize + memheapMinialloc) ≤ freeSize then
      let s := s.newItem hp p size
      let s := s.unlinkFree p
      let s := s.setNextFree p 0
      let s := s.setPrevFree p 0
      let s := s.linkFree (s.heap hp).freeList (p + size + memheapSize)
      s.setAvailable hp (u32 ((s.heap hp).availableSize - size - memheapSize))
    else
      let s := s.setAvailable hp (u32 ((s.heap hp).availableSize - freeSize))
      let s := s.unlinkFree p
      let s := s.setNextFree p 0
      s.setPrevFree p 0
  s.setMagic p (memheapMagic ||| memheapUsed)

/-- `rt_memheap_alloc` -/
def rtMemheapAlloc (hp size : Nat) : Except Fault (Option Nat × State) :=
  let size := requestSize size
  let h := s.heap hp
  if size < h.availableSize then
    match Loop.run (s.searchStep h.freeList size) (h.poolSize + 2) (s.nextFree h.freeList, 0) with
    | none => .error .search
    | some (p, freeSize) =>
        if size ≤ freeSize then .ok (some (p + memheapSize), s.takeItem hp p size freeSize)
        else .ok (none, s)
  else .ok (none, s)

/-- The merge with the item before, and whether there was none to merge with. -/
def mergePrev (hp p : Nat) : Nat × Bool × State :=
  if s.isUsed (s.prev p) then (p, true, s)
  else
    let s := s.addAvailable hp memheapSize
    let s := s.setNext (s.prev p) (s.next p)
    let s := s.setPrev (s.next p) (s.prev p)
    (s.prev p, false, s)

/-- The merge with the item behind. -/
def mergeNext (hp p : Nat) : State :=
  if s.isUsed (s.next p) then s
  else
    let s := s.addAvailable hp memheapSize
    let n := s.next p
    let s := s.setPrev (s.next n) p
    let s := s.setNext p (s.next n)
    s.unlinkFree n

/-- The insertion in the ring of the free items. -/
def insertFree (freeList p : Nat) : State :=
  let n := s.nextFree freeList
  let s := s.setNextFree p n
  let s := s.setPrevFree p (s.prevFree n)
  let s := s.setNextFree (s.prevFree n) p
  s.setPrevFree n p

/-- `rt_memheap_free` -/
def rtMemheapFree : Option Nat → Except Fault State
  | none => .ok s
  | some ptr =>
      let p := u32 ((ptr : Int) - memheapSize)
      if s.magic p ≠ memheapMagic ||| memheapUsed ∨ s.magic (s.next p) &&& memheapMask ≠ memheapMagic then
        .error .assertion
      else
        let hp := s.poolPtr p
        let s := s.setMagic p (memheapMagic ||| memheapFreed)
        let s := s.addAvailable hp (s.memitemSize p)
        let (p, insertHeader, s) := s.mergePrev hp p
        let s := s.mergeNext hp p
        .ok (if insertHeader then s.insertFree (s.heap hp).freeList p else s)

/-- `rt_memcpy` -/
def rtMemcpy (dst src n : Nat) : State :=
  { s with byte := fun x => if dst ≤ x ∧ x < dst + n then s.byte (src + (x - dst)) else s.byte x }

/-- The item behind is free and gives the payload of `p` the bytes it lacks. -/
def growItem (hp p oldsize newsize : Nat) : State :=
  let s := s.setAvailable hp (u32 ((s.heap hp).availableSize - ((newsize : Int) - oldsize)))
  let n := s.next p
  -- `_remove_next_ptr`
  let s := s.unlinkFree n
  let s := s.setPrev (s.next n) (s.prev n)
  let s := s.setNext (s.prev n) (s.next n)
  let s := s.newItem hp p newsize
  s.linkFree (s.heap hp).freeList (p + newsize + memheapSize)

/-- The free item `n` takes in the one behind it. -/
def absorbNext (hp n : Nat) : State :=
  if s.isUsed (s.next n) then s
  else
    let f := s.next n
    let s := s.addAvailable hp (-s.memitemSize f)
    let s := s.setPrev (s.next f) n
    let s := s.setNext n (s.next f)
    s.unlinkFree f

/-- The payload of `p` gives up the bytes behind `newsize`. -/
def shrinkItem (hp p newsize : Nat) : State :=
  let s := s.newItem hp p newsize
  let n := p + newsize + memheapSize
  let s := s.absorbNext hp n
  let s := s.linkFree (s.heap hp).freeList n
  s.addAvailable hp (s.memitemSize n)

/-- `rt_memheap_realloc` -/
def rtMemheapRealloc (hp : Nat) (ptr : Option Nat) (newsize : Nat) : Except Fault (Option Nat × State) :=
  if newsize = 0 then (s.rtMemheapFree ptr).map fun s => (none, s)
  else
    let newsize := requestSize newsize
    match ptr with
    | none => s.rtMemheapAlloc hp newsize
    | some ptr =>
        let p := u32 ((ptr : Int) - memheapSize)
        let oldsize := s.memitemSize p
        if oldsize < newsize then
          let n := s.next p
          if n ≤ p then .error .assertion
          else if ¬s.isUsed n ∧ u32 (newsize + memheapMinialloc) < u32 (s.memitemSize n + oldsize) then
            .ok (some ptr, s.growItem hp p oldsize newsize)
          else
            match s.rtMemheapAlloc hp newsize with
            | .error e => .error e
            | .ok (none, s) => .ok (none, s)
            | .ok (some new, s) =>
                let s := s.rtMemcpy new ptr (if oldsize < newsize then oldsize else newsize)
                (s.rtMemheapFree (some ptr)).map fun s => (some new, s)
        else if oldsize ≤ u32 (newsize + memheapSize + memheapMinialloc) then .ok (some ptr, s)
        else .ok (some ptr, s.shrinkItem hp p newsize)

/-! ### The heaps together -/

/-- The loop of `_memheap_alloc` over the other heaps. -/
def allocOther (hp size : Nat) : List Nat → Except Fault (Option Nat × State)
  | [] => .ok (none, s)
  | hq :: rest =>
      if hp = hq then allocOther hp size rest
      else
        match s.rtMemheapAlloc hq size with
        | .error e => .error e
        | .ok (some ptr, s) => .ok (some ptr, s)
        | .ok (none, _) => allocOther hp size rest

/-- `_memheap_alloc` -/
def memheapAlloc (hp size : Nat) : Except Fault (Option Nat × State) :=
  match s.rtMemheapAlloc hp size with
  | .error e => .error e
  | .ok (some ptr, s) => .ok (some ptr, s)
  | .ok (none, _) => s.allocOther hp size s.objects

/-- `_memheap_realloc` -/
def memheapRealloc (hp : Nat) (rmem : Option Nat) (newsize : Nat) : Except Fault (Option Nat × State) :=
  match rmem with
  | none => s.memheapAlloc hp newsize
  | some ptr =>
      if newsize = 0 then (s.rtMemheapFree (some ptr)).map fun s => (none, s)
      else
        let p := u32 ((ptr : Int) - memheapSize)
        match s.rtMemheapRealloc (s.poolPtr p) (some ptr) newsize with
        | .error e => .error e
        | .ok (some new, s) => .ok (some new, s)
        | .ok (none, s) =>
            match s.memheapAlloc hp newsize with
            | .error e => .error e
            | .ok (none, s) => .ok (none, s)
            | .ok (some new, s) =>
                let oldsize := s.memitemSize p
                let s := s.rtMemcpy new ptr (if oldsize < newsize then oldsize else newsize)
                (s.rtMemheapFree (some ptr)).map fun s => (some new, s)

/-- `rt_memheap_info`: the total, the used and the maximal used size. -/
def rtMemheapInfo (hp : Nat) : Nat × Nat × Nat :=
  let h := s.heap hp
  (h.poolSize, u32 ((h.poolSize : Int) - h.availableSize), h.maxUsedSize)

/-- `rt_memset` -/
def rtMemset (p : Nat) (v : BitVec 8) (n : Nat) : State :=
  { s with byte := fun x => if p ≤ x ∧ x < p + n then v else s.byte x }

/-- `rt_calloc` -/
def rtCalloc (hp count size : Nat) : Except Fault (Option Nat × State) :=
  match s.memheapAlloc hp (u32 (count * size)) with
  | .error e => .error e
  | .ok (none, s) => .ok (none, s)
  | .ok (some p, s) => .ok (some p, s.rtMemset p 0 (u32 (count * size)))

/-- The multiple of `align` behind an address, in `rt_malloc_align`. -/
def alignPtr (ptr align : Nat) : Nat :=
  let mask := BitVec.ofNat 32 align - 1
  if BitVec.ofNat 32 ptr &&& mask = 0 then u32 (ptr + align)
  else ((BitVec.ofNat 32 ptr + mask) &&& ~~~mask).toNat

/-- `rt_malloc_align`; the real pointer is saved before the aligned one. -/
def rtMallocAlign (hp size align : Nat) : Except Fault (Option Nat × State) :=
  let align := rtAlign align 4
  let alignSize := u32 (rtAlign size 4 + align)
  match s.memheapAlloc hp alignSize with
  | .error e => .error e
  | .ok (none, s) => .ok (none, s)
  | .ok (some ptr, s) =>
      let p := alignPtr ptr align
      .ok (some p, { s with byte := storeWord s.byte (u32 (p - 4)) (.ofNat 32 ptr) })

/-- The pointer saved before an aligned one. -/
def savedPtr (p : Nat) : Nat := (Memory.ofBytes fun k => s.byte (u32 (p - 4) + k)).toNat

/-- `rt_free_align` -/
def rtFreeAlign : Option Nat → Except Fault State
  | none => .ok s
  | some p => s.rtMemheapFree (some (s.savedPtr p))

end State

end SwmLvgl.Memheap
