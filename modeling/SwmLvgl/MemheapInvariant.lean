import SwmLvgl.Blocks
import SwmLvgl.MemheapLinks

/-! The invariant of a heap: its items are blocks that tile the pool, linked in the order of their
addresses, and the free ones are those in the ring around the header. -/

namespace SwmLvgl.Memheap

open Blocks Rings

theorem memheapSize_eq : memheapSize = 24 := by decide

theorem memheapMinialloc_eq : memheapMinialloc = 16 := by decide

theorem u32_eq {z : Int} {n : Nat} (hz : z = n) (hn : n < 2 ^ 32) : u32 z = n := by
  rw [u32]
  omega

theorem u32_sub {m n : Nat} (hm : m ≤ n) (hn : n < 2 ^ 32) : u32 ((n : Int) - m) = n - m :=
  u32_eq (by omega) (by omega)

/-- Where a heap lies: in a pool of addresses, with the header of its free items outside of it. -/
structure Pool where
  startAddr : Nat
  poolSize : Nat
  freeList : Nat
  start_pos : 0 < startAddr
  start_dvd : 8 ∣ startAddr
  size_dvd : 8 ∣ poolSize
  room : 64 ≤ poolSize
  stop_le : startAddr + poolSize ≤ 2 ^ 32
  header : freeList + 24 ≤ startAddr ∨ startAddr + poolSize ≤ freeList

/-- The item at the end of the pool. -/
def Pool.tail (P : Pool) : Nat := P.startAddr + P.poolSize - memheapSize

theorem Pool.tail_eq (P : Pool) : P.tail + 24 = P.startAddr + P.poolSize := by
  have hroom := P.room
  rw [tail, memheapSize_eq]
  omega

theorem Pool.poolSize_lt (P : Pool) : P.poolSize < 2 ^ 32 := by
  have hstart := P.start_pos
  have hstop := P.stop_le
  omega

/-- The flag of a block in its magic word. -/
def flag (u : Bool) : BitVec 32 := if u then memheapUsed else memheapFreed

@[simp] theorem flag_true : flag true = memheapUsed := rfl

@[simp] theorem flag_false : flag false = memheapFreed := rfl

theorem magic_mask (u : Bool) : (memheapMagic ||| flag u) &&& memheapMask = memheapMagic := by
  cases u <;> decide

theorem magic_used (u : Bool) : (memheapMagic ||| flag u) &&& memheapUsed ≠ 0 ↔ u = true := by
  cases u <;> decide

/-- The free block behind `k` bytes of the payload of a block. -/
def restOf (b : Block) (k : Nat) : Block := ⟨b.addr + k + memheapSize, b.size - k - 24, false⟩

@[simp] theorem restOf_addr (b : Block) (k : Nat) : (restOf b k).addr = b.addr + k + memheapSize := rfl

@[simp] theorem restOf_size (b : Block) (k : Nat) : (restOf b k).size = b.size - k - 24 := rfl

@[simp] theorem restOf_used (b : Block) (k : Nat) : (restOf b k).used = false := rfl

/-- The items of the heap `hp` are the blocks `bs`, and the tail. -/
structure Items (s : State) (hp : Nat) (P : Pool) (bs : List Block) : Prop where
  tiles : Tiles memheapSize P.startAddr bs P.tail
  ring : Ring s.next s.prev P.tail (bs.map Block.addr)
  magic : ∀ b ∈ bs, s.magic b.addr = memheapMagic ||| flag b.used
  magic_tail : s.magic P.tail = memheapMagic ||| flag true
  poolPtr : ∀ b ∈ bs, s.poolPtr b.addr = hp
  sizes : ∀ b ∈ bs, 8 ∣ b.size ∧ 16 ≤ b.size

/-- The addresses of the items. -/
def Footprint (P : Pool) (bs : List Block) (a : Nat) : Prop :=
  a = P.freeList ∨ a = P.tail ∨ ∃ b ∈ bs, b.addr = a

/-- Where an item of the pool can be. -/
def Pool.Owns (P : Pool) (a : Nat) : Prop :=
  a = P.freeList ∨ P.startAddr ≤ a ∧ a + 24 ≤ P.startAddr + P.poolSize

variable {s s' : State} {hp : Nat} {P : Pool} {bs xs ys : List Block} {b c : Block} {fs : List Nat}

theorem footprint_freeList : Footprint P bs P.freeList := .inl rfl

theorem footprint_tail : Footprint P bs P.tail := .inr (.inl rfl)

theorem footprint_mem (hb : b ∈ bs) : Footprint P bs b.addr := .inr (.inr ⟨b, hb, rfl⟩)

theorem footprint_ring {a : Nat} (ha : a ∈ P.tail :: bs.map Block.addr) : Footprint P bs a := by
  rcases List.mem_cons.mp ha with rfl | ha
  · exact footprint_tail
  · obtain ⟨b, hb, rfl⟩ := List.mem_map.mp ha
    exact footprint_mem hb

namespace Items

theorem mem_le (h : Items s hp P bs) (hb : b ∈ bs) :
    P.startAddr ≤ b.addr ∧ b.addr + 24 + b.size ≤ P.tail := by
  have hle := h.tiles.mem_le hb
  rwa [memheapSize_eq] at hle

theorem addr_le (h : Items s hp P bs) (hb : b ∈ bs) : b.addr + 48 + b.size ≤ 2 ^ 32 := by
  have hle := h.mem_le hb
  have htail := P.tail_eq
  have hstop := P.stop_le
  omega

theorem apart (h : Items s hp P bs) (hb : b ∈ bs) (hc : c ∈ bs) (hne : b ≠ c) :
    b.addr + 24 + b.size ≤ c.addr ∨ c.addr + 24 + c.size ≤ b.addr := by
  have hle := h.tiles.apart hb hc hne
  rwa [memheapSize_eq] at hle

theorem ext (h : Items s hp P bs) (hb : b ∈ bs) (hc : c ∈ bs) (heq : b.addr = c.addr) : b = c :=
  h.tiles.ext (by decide) hb hc heq

theorem ne_freeList (h : Items s hp P bs) (hb : b ∈ bs) : b.addr ≠ P.freeList := by
  have hle := h.mem_le hb
  have htail := P.tail_eq
  have hheader := P.header
  omega

/-- The payload of a block is apart from all items. -/
theorem payload_apart (h : Items s hp P bs) (hb : b ∈ bs) {x : Nat} (hx : b.addr + 24 ≤ x)
    (hx' : x < b.addr + 24 + b.size) {a : Nat} (ha : Footprint P bs a) : x < a ∨ a + 24 ≤ x := by
  have hle := h.mem_le hb
  have htail := P.tail_eq
  have hheader := P.header
  rcases ha with rfl | rfl | ⟨c, hc, rfl⟩
  · omega
  · omega
  · by_cases hbc : b = c
    · subst hbc
      exact .inr hx
    · rcases h.apart hb hc hbc with hapart | hapart <;> omega

/-- The items start at multiples of eight. -/
theorem addr_dvd (h : Items s hp P bs) (hb : b ∈ bs) : 8 ∣ b.addr := by
  have hstart := P.start_dvd
  have hdvd : ∀ {a : Nat} {cs : List Block} {z : Nat}, Tiles memheapSize a cs z → 8 ∣ a →
      (∀ c ∈ cs, 8 ∣ c.size) → ∀ c ∈ cs, 8 ∣ c.addr := by
    intro a cs
    induction cs generalizing a with
    | nil =>
        intro z _ _ _ c hc
        cases hc
    | cons d cs ih =>
        rintro z ⟨rfl, htiles⟩ ha hsizes c hc
        rcases List.mem_cons.mp hc with rfl | hc
        · exact ha
        · have hd := hsizes d List.mem_cons_self
          rw [memheapSize_eq] at htiles ih
          refine ih htiles ?_ (fun c hc => hsizes c (List.mem_cons_of_mem d hc)) c hc
          omega
  exact hdvd h.tiles hstart (fun c hc => (h.sizes c hc).1) b hb

theorem next_eq (h : Items s hp P (xs ++ b :: ys)) : s.next b.addr = b.addr + 24 + b.size := by
  have hring := h.ring
  rw [List.map_append, List.map_cons] at hring
  rw [hring.next_node, h.tiles.head, memheapSize_eq]

theorem memitemSize_eq (h : Items s hp P bs) (hb : b ∈ bs) : s.memitemSize b.addr = b.size := by
  have haddr := h.addr_le hb
  obtain ⟨xs, ys, rfl⟩ := List.append_of_mem hb
  rw [State.memitemSize, h.next_eq, memheapSize_eq]
  exact u32_eq (by omega) (by omega)

theorem next_addr (h : Items s hp P (xs ++ b :: c :: ys)) : s.next b.addr = c.addr := by
  rw [h.next_eq, h.tiles.addr_next, memheapSize_eq]

theorem prev_addr (h : Items s hp P (xs ++ b :: c :: ys)) : s.prev c.addr = b.addr := by
  have hring := h.ring
  rw [← h.next_addr]
  exact hring.prev_next (by simp)

theorem isUsed_iff (h : Items s hp P bs) (hb : b ∈ bs) : s.isUsed b.addr ↔ b.used = true := by
  rw [State.isUsed, h.magic b hb]
  exact magic_used b.used

theorem isUsed_tail (h : Items s hp P bs) : s.isUsed P.tail := by
  rw [State.isUsed, h.magic_tail]
  exact (magic_used true).mpr rfl

/-- What lies behind a block: a block, or the tail. -/
theorem next_cases (h : Items s hp P (xs ++ b :: ys)) :
    (∃ c zs, ys = c :: zs ∧ s.next b.addr = c.addr) ∨ ys = [] ∧ s.next b.addr = P.tail := by
  cases ys with
  | nil =>
      refine .inr ⟨rfl, ?_⟩
      have hring := h.ring
      rw [List.map_append, List.map_cons] at hring
      rw [hring.next_node]
      rfl
  | cons c zs => exact .inl ⟨c, zs, rfl, h.next_addr⟩

/-- What lies before a block: a block, or the tail, when it is the first. -/
theorem prev_cases (h : Items s hp P (xs ++ b :: ys)) :
    (∃ ws c, xs = ws ++ [c] ∧ s.prev b.addr = c.addr) ∨ xs = [] ∧ s.prev b.addr = P.tail := by
  rcases List.eq_nil_or_concat xs with rfl | ⟨ws, c, rfl⟩
  · refine .inr ⟨rfl, ?_⟩
    have hring : Ring s.next s.prev P.tail ([] ++ b.addr :: ys.map Block.addr) := h.ring
    rw [hring.prev_node]
    rfl
  · rw [List.concat_eq_append] at h ⊢
    refine .inl ⟨ws, c, rfl, ?_⟩
    rw [List.append_assoc] at h
    exact h.prev_addr

theorem next_footprint (h : Items s hp P (xs ++ b :: ys)) :
    Footprint P (xs ++ b :: ys) (s.next b.addr) := by
  rcases h.next_cases with ⟨c, zs, rfl, heq⟩ | ⟨-, heq⟩ <;> rw [heq]
  · exact footprint_mem (by simp)
  · exact footprint_tail

/-- Only the fields of the items count. -/
theorem congr (h : Items s hp P bs) (hmagic : ∀ a, Footprint P bs a → s'.magic a = s.magic a)
    (hpoolPtr : ∀ a, Footprint P bs a → s'.poolPtr a = s.poolPtr a)
    (hnext : ∀ a, Footprint P bs a → s'.next a = s.next a)
    (hprev : ∀ a, Footprint P bs a → s'.prev a = s.prev a) : Items s' hp P bs where
  tiles := h.tiles
  ring := h.ring.congr (fun a ha => hnext a (footprint_ring ha)) fun a ha => hprev a (footprint_ring ha)
  magic b hb := (hmagic _ (footprint_mem hb)).trans (h.magic b hb)
  magic_tail := (hmagic _ footprint_tail).trans h.magic_tail
  poolPtr b hb := (hpoolPtr _ (footprint_mem hb)).trans (h.poolPtr b hb)
  sizes := h.sizes

theorem congr_fields (h : Items s hp P bs) (hmagic : s'.magic = s.magic) (hpoolPtr : s'.poolPtr = s.poolPtr)
    (hnext : s'.next = s.next) (hprev : s'.prev = s.prev) : Items s' hp P bs :=
  h.congr (fun a _ => congrFun hmagic a) (fun a _ => congrFun hpoolPtr a) (fun a _ => congrFun hnext a)
    fun a _ => congrFun hprev a

theorem tail_ne (h : Items s hp P bs) (hb : b ∈ bs) : b.addr ≠ P.tail := by
  have hle := h.mem_le hb
  omega

theorem ne_of_sides (h : Items s hp P (xs ++ b :: ys)) (hc : c ∈ xs ∨ c ∈ ys) : c.addr ≠ b.addr :=
  h.tiles.ne_of_sides (by decide) hc

theorem freeSize_le (h : Items s hp P bs) : 24 * bs.length + freeSize bs + 24 ≤ P.poolSize := by
  have hspan := h.tiles.span
  have htail := P.tail_eq
  rw [memheapSize_eq] at hspan
  omega

/-- A block is marked as used, or as free. -/
theorem mark (h : Items s hp P (xs ++ b :: ys)) (u : Bool) :
    Items (s.setMagic b.addr (memheapMagic ||| flag u)) hp P (xs ++ { b with used := u } :: ys) where
  tiles := h.tiles.mark u
  ring := by
    have hring := h.ring
    simp only [List.map_append, List.map_cons] at hring ⊢
    exact hring
  magic := by
    obtain ⟨hxs, -, hys⟩ := forall_middle.mp h.magic
    simp only [State.setMagic_fields]
    refine forall_middle.mpr ⟨fun c hc => ?_, ?_, fun c hc => ?_⟩
    · rw [Function.update_of_ne (h.ne_of_sides (.inl hc)), hxs c hc]
    · rw [Function.update_self]
    · rw [Function.update_of_ne (h.ne_of_sides (.inr hc)), hys c hc]
  magic_tail := by
    simp only [State.setMagic_fields]
    rw [Function.update_of_ne (h.tail_ne (by simp)).symm, h.magic_tail]
  poolPtr := by
    obtain ⟨hxs, hb, hys⟩ := forall_middle.mp h.poolPtr
    exact forall_middle.mpr ⟨hxs, hb, hys⟩
  sizes := by
    obtain ⟨hxs, hb, hys⟩ := forall_middle.mp h.sizes
    exact forall_middle.mpr ⟨hxs, hb, hys⟩

/-- The address of a new item in the payload of a block is not that of an item. -/
theorem cut_ne (h : Items s hp P (xs ++ b :: ys)) {k : Nat} (hk : k + 24 + 16 ≤ b.size) {a : Nat}
    (ha : Footprint P (xs ++ b :: ys) a) : a ≠ b.addr + k + memheapSize := by
  have hb : b ∈ xs ++ b :: ys := by simp
  rw [memheapSize_eq]
  rintro rfl
  rcases h.payload_apart hb (x := b.addr + k + 24) (by omega) (by omega) ha with hlt | hle <;> omega

/-- A free item is made behind `k` bytes of the payload of a block. -/
theorem cut (h : Items s hp P (xs ++ b :: ys)) {k : Nat} (hk : k + 24 + 16 ≤ b.size) (hk8 : 8 ∣ k)
    (hk16 : 16 ≤ k) :
    Items (s.newItem hp b.addr k) hp P (xs ++ ⟨b.addr, k, b.used⟩ :: restOf b k :: ys) where
  tiles := by
    have htiles := h.tiles.cut (k := k) (by rw [memheapSize_eq]; omega) b.used false
    rw [Nat.add_right_comm b.addr] at htiles
    exact htiles
  ring := by
    have hring := h.ring
    rw [List.map_append, List.map_cons] at hring ⊢
    refine State.ring_linkNext (s := (s.setMagic _ _).setPoolPtr _ _) hring fun hmem => ?_
    refine h.cut_ne hk (footprint_ring ?_) rfl
    rw [List.map_append, List.map_cons]
    exact hmem
  magic := by
    obtain ⟨hxs, hb, hys⟩ := forall_middle.mp h.magic
    have hold : ∀ c ∈ xs ++ b :: ys, (s.newItem hp b.addr k).magic c.addr = s.magic c.addr := by
      intro c hc
      rw [State.newItem_fields.2.2.1, Function.update_of_ne (h.cut_ne hk (footprint_mem hc))]
    obtain ⟨hxs', hb', hys'⟩ := forall_middle.mp hold
    refine forall_middle.mpr ⟨fun c hc => ?_, ?_, List.forall_mem_cons.mpr ⟨?_, fun c hc => ?_⟩⟩
    · rw [hxs' c hc, hxs c hc]
    · rw [hb', hb]
    · rw [State.newItem_fields.2.2.1, restOf_addr, Function.update_self, restOf_used, flag_false]
    · rw [hys' c hc, hys c hc]
  magic_tail := by
    rw [State.newItem_fields.2.2.1, Function.update_of_ne (h.cut_ne hk footprint_tail), h.magic_tail]
  poolPtr := by
    have hold : ∀ c ∈ xs ++ b :: ys, (s.newItem hp b.addr k).poolPtr c.addr = hp := by
      intro c hc
      rw [State.newItem_fields.2.2.2.1, Function.update_of_ne (h.cut_ne hk (footprint_mem hc)),
        h.poolPtr c hc]
    obtain ⟨hxs', hb', hys'⟩ := forall_middle.mp hold
    refine forall_middle.mpr ⟨hxs', hb', List.forall_mem_cons.mpr ⟨?_, hys'⟩⟩
    rw [State.newItem_fields.2.2.2.1, restOf_addr, Function.update_self]
  sizes := by
    obtain ⟨hxs, hb, hys⟩ := forall_middle.mp h.sizes
    refine forall_middle.mpr ⟨hxs, ⟨hk8, hk16⟩, List.forall_mem_cons.mpr ⟨⟨?_, ?_⟩, hys⟩⟩
    · have hb8 := hb.1
      show 8 ∣ b.size - k - 24
      omega
    · show 16 ≤ b.size - k - 24
      omega

/-- A block is joined with the next one, when the item of that one is unlinked. -/
theorem join (h : Items s hp P (xs ++ b :: c :: ys)) (hmagic : s'.magic = s.magic)
    (hpoolPtr : s'.poolPtr = s.poolPtr)
    (hnext : s'.next = Function.update s.next (s.prev c.addr) (s.next c.addr))
    (hprev : s'.prev = Function.update s.prev (s.next c.addr) (s.prev c.addr)) :
    Items s' hp P (xs ++ ⟨b.addr, b.size + 24 + c.size, b.used⟩ :: ys) where
  tiles := h.tiles.join b.used
  ring := by
    have hring := h.ring
    rw [List.append_cons, List.map_append, List.map_cons] at hring
    rw [hnext, hprev]
    have hjoined := hring.unlink
    simp only [List.map_append, List.map_cons, List.map_nil, List.append_assoc, List.singleton_append]
      at hjoined ⊢
    exact hjoined
  magic := by
    obtain ⟨hxs, hb, hys⟩ := forall_middle.mp h.magic
    rw [hmagic]
    exact forall_middle.mpr ⟨hxs, hb, (List.forall_mem_cons.mp hys).2⟩
  magic_tail := by rw [hmagic, h.magic_tail]
  poolPtr := by
    obtain ⟨hxs, hb, hys⟩ := forall_middle.mp h.poolPtr
    rw [hpoolPtr]
    exact forall_middle.mpr ⟨hxs, hb, (List.forall_mem_cons.mp hys).2⟩
  sizes := by
    obtain ⟨hxs, hb, hys⟩ := forall_middle.mp h.sizes
    have hc := (List.forall_mem_cons.mp hys).1
    refine forall_middle.mpr ⟨hxs, ?_, (List.forall_mem_cons.mp hys).2⟩
    show 8 ∣ b.size + 24 + c.size ∧ 16 ≤ b.size + 24 + c.size
    omega

end Items

theorem Items.owns (h : Items s hp P bs) {a : Nat} (ha : Footprint P bs a) : P.Owns a := by
  have htail := P.tail_eq
  have hroom := P.room
  rcases ha with rfl | rfl | ⟨b, hb, rfl⟩
  · exact .inl rfl
  · exact .inr (by omega)
  · have hle := h.mem_le hb
    exact .inr (by omega)

/-- The record of a heap in the pool `P` with `free` bytes available. There were never less than `low`. -/
structure Record (r : RtMemheap) (P : Pool) (free low : Nat) : Prop where
  startAddr : r.startAddr = P.startAddr
  poolSize : r.poolSize = P.poolSize
  freeList : r.freeList = P.freeList
  available : r.availableSize = free
  maxUsed : P.poolSize ≤ r.maxUsedSize + low

theorem Record.mono {r : RtMemheap} {free low low' : Nat} (h : Record r P free low) (hle : low ≤ low') :
    Record r P free low' :=
  { h with maxUsed := h.maxUsed.trans (Nat.add_le_add_left hle _) }

theorem Record.setAvailable {free low a : Nat} (h : Record (s.heap hp) P free low) (ha : a ≤ P.poolSize) :
    Record ((s.setAvailable hp a).heap hp) P a a := by
  obtain ⟨hstart, hsize, hfreeList, -, -⟩ := h
  have hused : u32 ((P.poolSize : Int) - a) = P.poolSize - a := u32_sub ha P.poolSize_lt
  simp only [State.setAvailable, State.setHeap_fields, Function.update_self, hsize, hused]
  refine ⟨hstart, rfl, hfreeList, rfl, ?_⟩
  show P.poolSize ≤ (if _ then _ else _) + a
  split <;> omega

theorem Record.addAvailable {free low a : Nat} {n : Int} (h : Record (s.heap hp) P free low)
    (ha : (free : Int) + n = a) (hlt : a < 2 ^ 32) : Record ((s.addAvailable hp n).heap hp) P a low := by
  obtain ⟨hstart, hsize, hfreeList, havail, hmax⟩ := h
  have hsum : u32 (((s.heap hp).availableSize : Int) + n) = a := u32_eq (by rw [havail, ha]) hlt
  simp only [State.addAvailable, State.setHeap_fields, Function.update_self, hsum]
  exact ⟨hstart, hsize, hfreeList, rfl, hmax⟩

/-- The heap `hp` in the pool `P` has the blocks `bs`, and `fs` are the free ones, in the order of their
ring. -/
structure Holds (s : State) (hp : Nat) (P : Pool) (bs : List Block) (fs : List Nat) : Prop where
  items : Items s hp P bs
  ring : Ring s.nextFree s.prevFree P.freeList fs
  record : Record (s.heap hp) P (freeSize bs) (freeSize bs)
  perm : fs.Perm (frees bs)
  coalesced : Coalesced bs

/-- The addresses of the items with the blocks `bs` before and `bs'` after an operation. -/
def Touched (P : Pool) (bs bs' : List Block) (a : Nat) : Prop := Footprint P bs a ∨ Footprint P bs' a

theorem touched_owns {bs' : List Block} (h : Items s hp P bs) (h' : Items s' hp P bs') {a : Nat}
    (ha : Touched P bs bs' a) : P.Owns a := ha.elim h.owns h'.owns

/-- The payload of a block that is there before and after has the same bytes. -/
theorem Frame.payload {bs' : List Block} (h : Frame (Touched P bs bs') hp s s') (hbs : Items s hp P bs)
    (hbs' : Items s' hp P bs') (hb : b ∈ bs) (hc : c ∈ bs') {x : Nat}
    (hx : b.addr + 24 ≤ x ∧ x < b.addr + 24 + b.size) (hx' : c.addr + 24 ≤ x ∧ x < c.addr + 24 + c.size) :
    s'.byte x = s.byte x := by
  refine h.byte x fun a ha => ?_
  rcases ha with ha | ha
  · exact hbs.payload_apart hb hx.1 hx.2 ha
  · exact hbs'.payload_apart hc hx'.1 hx'.2 ha

namespace Holds

theorem mem_ring (h : Holds s hp P bs fs) {p : Nat} (hmem : p ∈ fs) :
    ∃ b ∈ bs, b.used = false ∧ b.addr = p := mem_frees.mp (h.perm.mem_iff.mp hmem)

theorem footprint_of_ring (h : Holds s hp P bs fs) {a : Nat} (ha : a ∈ fs) : Footprint P bs a := by
  obtain ⟨b, hb, -, rfl⟩ := h.mem_ring ha
  exact footprint_mem hb

/-- A free block is in the ring. -/
theorem exists_ring (h : Holds s hp P bs fs) (hb : b ∈ bs) (hfree : b.used = false) :
    ∃ fs₁ fs₂, fs = fs₁ ++ b.addr :: fs₂ :=
  List.append_of_mem (h.perm.mem_iff.mpr (addr_mem_frees hb hfree))

end Holds

end SwmLvgl.Memheap
