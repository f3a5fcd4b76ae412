import SwmLvgl.MemheapAlign
import SwmLvgl.MemheapInit
import SwmLvgl.RunSteps

/-! The users of the heaps: what they hold, and what they do. They pass only pointers that they hold, and
store only to the bytes that they have asked for. -/

namespace SwmLvgl.Memheap

open Blocks

/-- An allocation in the hands of a user: the pointer that was allocated, the one that the user has, which
may be an aligned one behind it, the bytes asked for, and what the user relies on to be in them. -/
structure Held where
  base : Nat
  ptr : Nat
  align : Nat
  size : Nat
  data : Nat → BitVec 8

inductive Event where
  | malloc (size : Nat)
  | calloc (count size : Nat)
  | mallocAlign (size align : Nat)
  | realloc (i size : Nat)
  | free (i : Nat)
  | store (i offset : Nat) (v : BitVec 8)

structure Client where
  mem : State
  held : List Held

/-- The sizes that the headers and the rounding leave room for in 32 bits; the alignment is a power of
two. -/
def Event.Ok : Event → Prop
  | .malloc size => size ≤ 2 ^ 32 - 24
  | .calloc count size => u32 (count * size) ≤ 2 ^ 32 - 24
  | .mallocAlign size align => size + align ≤ 2 ^ 32 - 32 ∧ ∃ k, align = 2 ^ k
  | .realloc _ size => size ≤ 2 ^ 32 - 24
  | .free _ => True
  | .store _ _ _ => True

/-- The bytes of an allocation as they are. -/
def bytesAt (s : State) (p : Nat) : Nat → BitVec 8 := fun i => s.byte (p + i)

/-- One event, with the system heap `hp`. Nothing happens to an allocation that is not there. -/
def perform (hp : Nat) (c : Client) : Event → Except Fault Client
  | .malloc size =>
      (c.mem.memheapAlloc hp size).map fun
        | (none, s) => { c with mem := s }
        | (some p, s) => ⟨s, ⟨p, p, 8, size, bytesAt s p⟩ :: c.held⟩
  | .calloc count size =>
      (c.mem.rtCalloc hp count size).map fun
        | (none, s) => { c with mem := s }
        | (some p, s) => ⟨s, ⟨p, p, 8, u32 (count * size), fun _ => 0⟩ :: c.held⟩
  | .mallocAlign size align =>
      (c.mem.rtMallocAlign hp size align).map fun
        | (none, s) => { c with mem := s }
        | (some p, s) => ⟨s, ⟨s.savedPtr p, p, align, size, bytesAt s p⟩ :: c.held⟩
  | .realloc i size =>
      match c.held[i]? with
      | none => .ok c
      | some h =>
          if h.base ≠ h.ptr then .ok c
          else
            (c.mem.memheapRealloc hp (some h.ptr) size).map fun
              | (none, s) => if size = 0 then ⟨s, c.held.eraseIdx i⟩ else { c with mem := s }
              | (some p, s) =>
                  ⟨s, c.held.set i ⟨p, p, 8, size, fun j => if j < h.size then h.data j else s.byte (p + j)⟩⟩
  | .free i =>
      match c.held[i]? with
      | none => .ok c
      | some h =>
          (if h.base = h.ptr then c.mem.rtMemheapFree (some h.ptr) else c.mem.rtFreeAlign (some h.ptr)).map
            fun s => ⟨s, c.held.eraseIdx i⟩
  | .store i offset v =>
      match c.held[i]? with
      | none => .ok c
      | some h =>
          if offset < h.size then
            .ok ⟨{ c.mem with byte := Function.update c.mem.byte (h.ptr + offset) v },
              c.held.set i { h with data := Function.update h.data offset v }⟩
          else .ok c

/-- An allocation lies in the payload of a block, with the bytes that its user relies on. -/
structure Fit (s : State) (b : Block) (h : Held) : Prop where
  base : b.addr + 24 = h.base
  ptr : h.ptr = h.base ∨ h.base + 4 ≤ h.ptr ∧ s.savedPtr h.ptr = h.base
  align : h.align ∣ h.ptr
  stop : h.ptr + h.size ≤ b.addr + 24 + b.size
  data : ∀ i < h.size, s.byte (h.ptr + i) = h.data i

/-- The used blocks are those of the allocations. -/
structure Inv (W : Heaps) (B : Nat → List Block) (c : Client) : Prop where
  valid : Valid W c.mem B
  nodup : (c.held.map Held.base).Nodup
  fit : ∀ h ∈ c.held, ∃ b, UsedBlock W B b ∧ Fit c.mem b h
  held : ∀ b, UsedBlock W B b → b.addr + 24 ∈ c.held.map Held.base

variable {W : Heaps} {B B' : Nat → List Block} {c : Client} {s s' : State} {b : Block} {h : Held}

theorem savedPtr_congr {p : Nat} (hp : 4 ≤ p) (hlt : p < 2 ^ 32)
    (hbytes : ∀ k < 4, s'.byte (p - 4 + k) = s.byte (p - 4 + k)) : s'.savedPtr p = s.savedPtr p := by
  have hback : u32 ((p : Int) - 4) = p - 4 := u32_eq (by omega) (by omega)
  rw [State.savedPtr, State.savedPtr, hback, Memory.ofBytes, Memory.ofBytes, hbytes 3 (by decide),
    hbytes 2 (by decide), hbytes 1 (by decide), hbytes 0 (by decide)]

theorem Fit.congr (hfit : Fit s b h) (hlt : b.addr + 24 + b.size < 2 ^ 32)
    (hbytes : ∀ i < b.size, s'.byte (b.addr + 24 + i) = s.byte (b.addr + 24 + i)) : Fit s' b h := by
  obtain ⟨hbase, hptr, halign, hstop, hdata⟩ := hfit
  have hbyte : ∀ x, b.addr + 24 ≤ x → x < b.addr + 24 + b.size → s'.byte x = s.byte x := by
    intro x hx hx'
    have hi := hbytes (x - (b.addr + 24)) (by omega)
    rwa [Nat.add_sub_cancel' hx] at hi
  refine ⟨hbase, ?_, halign, hstop, fun i hi => ?_⟩
  · refine hptr.imp_right fun ⟨hle, hsaved⟩ => ⟨hle, ?_⟩
    rw [savedPtr_congr (by omega) (by omega) fun k hk => hbyte _ (by omega) (by omega), hsaved]
  · rw [hbyte _ (by omega) (by omega)]
    exact hdata i hi

theorem Fit.store (hfit : Fit s b h) (hlt : b.addr + 24 + b.size < 2 ^ 32) (offset : Nat) (v : BitVec 8) :
    Fit { s with byte := Function.update s.byte (h.ptr + offset) v } b
      { h with data := Function.update h.data offset v } := by
  obtain ⟨hbase, hptr, halign, hstop, hdata⟩ := hfit
  refine ⟨hbase, ?_, halign, hstop, fun i hi => ?_⟩
  · refine hptr.imp_right fun ⟨hle, hsaved⟩ => ⟨hle, ?_⟩
    rw [← hsaved]
    apply savedPtr_congr (p := h.ptr) (by omega) (by omega)
    intro k hk
    show Function.update s.byte (h.ptr + offset) v (h.ptr - 4 + k) = s.byte (h.ptr - 4 + k)
    rw [Function.update_of_ne (by omega)]
  · show Function.update s.byte (h.ptr + offset) v (h.ptr + i) = Function.update h.data offset v i
    by_cases hio : i = offset
    · rw [hio, Function.update_self, Function.update_self]
    · rw [Function.update_of_ne (by omega), Function.update_of_ne hio]
      exact hdata i hi

theorem Valid.addr_le (h : Valid W s B) (hb : UsedBlock W B b) : b.addr + 48 + b.size ≤ 2 ^ 32 := by
  obtain ⟨-, w, hw, hbw⟩ := hb
  exact (h.items hw).addr_le hbw

theorem Valid.aligned (h : Valid W s B) (hb : UsedBlock W B b) : 8 ∣ b.addr + 24 := by
  obtain ⟨-, w, hw, hbw⟩ := hb
  have hdvd := (h.items hw).addr_dvd hbw
  omega

/-- The user's side of a change: `hs` are the allocations in the block that is used no more, and `hs'`
those in the new one. -/
theorem Inv.change {old new : Option Block} {rest held' : List Held} (hs hs' : List Held) (hinv : Inv W B c)
    (hchange : Change W B B' old new c.mem s') (hperm : c.held.Perm (hs ++ rest))
    (hperm' : held'.Perm (hs' ++ rest)) (hold : hs.map Held.base = old.toList.map fun b => b.addr + 24)
    (hused : ∀ b, old = some b → UsedBlock W B b)
    (hnew : hs'.map Held.base = new.toList.map fun b => b.addr + 24)
    (hfit : ∀ h ∈ hs', ∃ b, some b = new ∧ Fit s' b h) : Inv W B' ⟨s', held'⟩ := by
  have hbases : (c.held.map Held.base).Perm (hs.map Held.base ++ rest.map Held.base) := by
    simpa using hperm.map Held.base
  have hbases' : (held'.map Held.base).Perm (hs'.map Held.base ++ rest.map Held.base) := by
    simpa using hperm'.map Held.base
  have hdistinct := hbases.nodup_iff.mp hinv.nodup
  obtain ⟨-, hrest, hdisjoint⟩ := List.nodup_append.mp hdistinct
  -- the allocations that stay are in other blocks
  have hstay : ∀ h ∈ rest, ∃ b, UsedBlock W B b ∧ some b ≠ old ∧ Fit c.mem b h := by
    intro h hh
    obtain ⟨b, hb, hbh⟩ := hinv.fit h (hperm.mem_iff.mpr (List.mem_append_right _ hh))
    refine ⟨b, hb, ?_, hbh⟩
    rintro rfl
    refine hdisjoint h.base ?_ h.base (List.mem_map_of_mem hh) rfl
    rw [hold, ← hbh.base]
    simp
  refine ⟨hchange.valid, hbases'.nodup_iff.mpr (List.nodup_append.mpr ⟨?_, hrest, ?_⟩), ?_, ?_⟩
  · rw [hnew]
    cases new <;> simp
  · rintro a ha a' ha' rfl
    rw [hnew] at ha
    obtain ⟨h, hh, heq⟩ := List.mem_map.mp ha'
    obtain ⟨b, hb, hne, hbh⟩ := hstay h hh
    cases new with
    | none => simp at ha
    | some b' =>
        have ha : a = b'.addr + 24 := by simpa using ha
        refine hchange.fresh b' rfl b hb hne ?_
        have hbase := hbh.base
        omega
  · intro h hh
    rcases List.mem_append.mp (hperm'.mem_iff.mp hh) with hh | hh
    · obtain ⟨b, hb, hbh⟩ := hfit h hh
      exact ⟨b, (hchange.used b).mpr (.inr hb), hbh⟩
    · obtain ⟨b, hb, hne, hbh⟩ := hstay h hh
      have hb' := (hchange.used b).mpr (.inl ⟨hb, hne⟩)
      have haddr := hinv.valid.addr_le hb
      exact ⟨b, hb', hbh.congr (by omega) (hchange.kept b hb hne)⟩
  · intro b hb
    rw [hbases'.mem_iff, List.mem_append]
    rcases (hchange.used b).mp hb with ⟨hbB, hne⟩ | heq
    · right
      have hmem := hinv.held b hbB
      rw [hbases.mem_iff, List.mem_append] at hmem
      refine hmem.resolve_left fun hin => ?_
      rw [hold] at hin
      cases old with
      | none => simp at hin
      | some d =>
          have heq : b.addr + 24 = d.addr + 24 := by simpa using hin
          exact hne (congrArg some (hinv.valid.used_ext hbB (hused d rfl) (by omega)))
    · left
      rw [hnew, ← heq]
      simp

/-! ### The events -/

section Events

variable {w : Nat × Pool} {size : Nat} (hw : w ∈ W.list) (hinv : Inv W B c)

include hinv

theorem Inv.take (hchange : Change W B B' none (some b) c.mem s') (hfit : Fit s' b h) :
    Inv W B' ⟨s', h :: c.held⟩ := by
  refine hinv.change [] [h] hchange (.refl _) (.refl _) rfl nofun ?_ ?_
  · simp [hfit.base]
  · intro g hg
    obtain rfl := List.mem_singleton.mp hg
    exact ⟨b, rfl, hfit⟩

theorem Inv.erase {i : Nat} (hi : c.held[i]? = some h) (hb : UsedBlock W B b) (hfit : Fit c.mem b h)
    (hchange : Change W B B' (some b) none c.mem s') : Inv W B' ⟨s', c.held.eraseIdx i⟩ := by
  obtain ⟨hlt, rfl⟩ := List.getElem?_eq_some_iff.mp hi
  refine hinv.change [c.held[i]] [] hchange (List.getElem_cons_eraseIdx_perm hlt).symm
    (.refl _) ?_ ?_ rfl nofun
  · simp [hfit.base]
  · rintro d ⟨⟩
    exact hb

theorem Inv.set {i : Nat} {b' : Block} {h' : Held} (hi : c.held[i]? = some h) (hb : UsedBlock W B b)
    (hfit : Fit c.mem b h) (hchange : Change W B B' (some b) (some b') c.mem s') (hfit' : Fit s' b' h') :
    Inv W B' ⟨s', c.held.set i h'⟩ := by
  obtain ⟨hlt, rfl⟩ := List.getElem?_eq_some_iff.mp hi
  refine hinv.change [c.held[i]] [h'] hchange (List.getElem_cons_eraseIdx_perm hlt).symm
    (List.set_perm_cons_eraseIdx hlt h') ?_ ?_ ?_ ?_
  · simp [hfit.base]
  · rintro d ⟨⟩
    exact hb
  · simp [hfit'.base]
  · intro g hg
    obtain rfl := List.mem_singleton.mp hg
    exact ⟨b', rfl, hfit'⟩

include hw

theorem perform_malloc (hsize : size ≤ 2 ^ 32 - 24) :
    ∃ c' B', perform w.1 c (.malloc size) = .ok c' ∧ Inv W B' c' := by
  rcases memheapAlloc_change hinv.valid hw (show size ≤ 2 ^ 32 - 8 by omega) with
    ⟨hnone, -⟩ | ⟨s', B', b, hsome, -, hsizeb, hchange⟩
  · exact ⟨c, B, by rw [perform, hnone]; rfl, hinv⟩
  · refine ⟨_, B', by rw [perform, hsome]; rfl, hinv.take hchange ?_⟩
    have hle := (requestSize_spec size (by omega)).2.2.1
    refine ⟨rfl, .inl rfl, hchange.valid.aligned ((hchange.used b).mpr (.inr rfl)), ?_, fun _ _ => rfl⟩
    show b.addr + 24 + size ≤ b.addr + 24 + b.size
    omega

theorem perform_calloc {count : Nat} (hsize : u32 (count * size) ≤ 2 ^ 32 - 24) :
    ∃ c' B', perform w.1 c (.calloc count size) = .ok c' ∧ Inv W B' c' := by
  generalize htotal : u32 (count * size) = total at hsize
  rcases memheapAlloc_change hinv.valid hw (show total ≤ 2 ^ 32 - 8 by omega) with
    ⟨hnone, -⟩ | ⟨s', B', b, hsome, -, hsizeb, hchange⟩
  · exact ⟨c, B, by rw [perform, State.rtCalloc, htotal, hnone]; rfl, hinv⟩
  · have hle := (requestSize_spec total (by omega)).2.2.1
    have hzero : Change W B B' none (some b) c.mem (s'.rtMemset (b.addr + 24) 0 total) :=
      hchange.bytes fun x hx => if_neg (by omega)
    refine ⟨_, B', by rw [perform, State.rtCalloc, htotal, hsome]; rfl, hinv.take hzero ?_⟩
    refine ⟨rfl, .inl rfl, hchange.valid.aligned ((hchange.used b).mpr (.inr rfl)), ?_, fun i hi => if_pos ?_⟩
    · show b.addr + 24 + total ≤ b.addr + 24 + b.size
      omega
    · show b.addr + 24 ≤ b.addr + 24 + i ∧ b.addr + 24 + i < b.addr + 24 + total
      have hi' : i < total := hi
      omega

theorem perform_mallocAlign {align : Nat} (hsize : size + align ≤ 2 ^ 32 - 32) (halign : ∃ k, align = 2 ^ k) :
    ∃ c' B', perform w.1 c (.mallocAlign size align) = .ok c' ∧ Inv W B' c' := by
  rcases rtMallocAlign_change hinv.valid hw hsize halign with
    hnone | ⟨s', B', b, p, hsome, hchange, hdvd, hlo, hhi, hsaved⟩
  · exact ⟨c, B, by rw [perform, hnone]; rfl, hinv⟩
  · refine ⟨_, B', by rw [perform, hsome]; rfl, hinv.take hchange ?_⟩
    refine ⟨hsaved.symm, .inr ⟨?_, rfl⟩, hdvd, hhi, fun _ _ => rfl⟩
    show s'.savedPtr p + 4 ≤ p
    omega

omit hw in
theorem perform_free (i : Nat) : ∃ c' B', perform w.1 c (.free i) = .ok c' ∧ Inv W B' c' := by
  cases hi : c.held[i]? with
  | none => exact ⟨c, B, by rw [perform, hi], hinv⟩
  | some h =>
      obtain ⟨b, hb, hfit⟩ := hinv.fit h (List.mem_of_getElem? hi)
      obtain ⟨s', B', hfree, hchange⟩ := free_change hinv.valid hb
      have hcall : (if h.base = h.ptr then c.mem.rtMemheapFree (some h.ptr)
          else c.mem.rtFreeAlign (some h.ptr)) = .ok s' := by
        rw [← hfree, hfit.base]
        split
        · next heq => rw [heq]
        · next hne =>
            have hsaved := (hfit.ptr.resolve_left (Ne.symm hne)).2
            rw [State.rtFreeAlign, hsaved]
      refine ⟨⟨s', c.held.eraseIdx i⟩, B', ?_, hinv.erase hi hb hfit hchange⟩
      simp only [perform, hi]
      rw [hcall]
      rfl

omit hw in
theorem perform_store (i offset : Nat) (v : BitVec 8) :
    ∃ c' B', perform w.1 c (.store i offset v) = .ok c' ∧ Inv W B' c' := by
  cases hi : c.held[i]? with
  | none => exact ⟨c, B, by rw [perform, hi], hinv⟩
  | some h =>
      obtain ⟨b, hb, hfit⟩ := hinv.fit h (List.mem_of_getElem? hi)
      by_cases hoffset : offset < h.size
      · have haddr := hinv.valid.addr_le hb
        have hle : h.base ≤ h.ptr := by
          have hptr := hfit.ptr
          omega
        have hfit' := hfit.store (by omega) offset v
        have hbase := hfit.base
        have hstop := hfit.stop
        have hchange : Change W B B (some b) (some b) c.mem
            { c.mem with byte := Function.update c.mem.byte (h.ptr + offset) v } := by
          refine ⟨hinv.valid.bytes _, fun d => ?_, ?_, fun d hd hne j hj => ?_⟩
          · by_cases hdb : d = b
            · simp [hdb, hb]
            · simp [hdb]
          · rintro d ⟨⟩ e he hne heq
            exact hne (congrArg some (hinv.valid.used_ext he hb heq))
          · have hapart := hinv.valid.used_apart hd hb fun heq => hne (congrArg some heq)
            show Function.update c.mem.byte (h.ptr + offset) v (d.addr + 24 + j) = c.mem.byte (d.addr + 24 + j)
            rw [Function.update_of_ne (by omega)]
        exact ⟨_, B, by simp only [perform, hi, if_pos hoffset], hinv.set hi hb hfit hchange hfit'⟩
      · exact ⟨c, B, by simp only [perform, hi, if_neg hoffset], hinv⟩

theorem perform_realloc (i : Nat) (hsize : size ≤ 2 ^ 32 - 24) :
    ∃ c' B', perform w.1 c (.realloc i size) = .ok c' ∧ Inv W B' c' := by
  cases hi : c.held[i]? with
  | none => exact ⟨c, B, by rw [perform, hi], hinv⟩
  | some h =>
      obtain ⟨b, hb, hfit⟩ := hinv.fit h (List.mem_of_getElem? hi)
      by_cases hbase : h.base = h.ptr
      · have hptr : h.ptr = b.addr + 24 := by rw [hfit.base, hbase]
        simp only [perform, hi, ne_eq, hbase, not_true_eq_false, if_false]
        by_cases hzero : size = 0
        · -- the block is freed
          obtain ⟨s', B', hfree, hchange⟩ := free_change hinv.valid hb
          refine ⟨⟨s', c.held.eraseIdx i⟩, B', ?_, hinv.erase hi hb hfit hchange⟩
          rw [hptr, hzero, State.memheapRealloc, if_pos rfl, hfree]
          rfl
        · rcases memheapRealloc_change hinv.valid hw hb (Nat.pos_of_ne_zero hzero) hsize with
            ⟨hnone, -⟩ | ⟨s', B', b', hsome, hsizeb, hchange, hbytes⟩
          · refine ⟨c, B, ?_, hinv⟩
            rw [hptr, hnone]
            show Except.ok (if size = 0 then _ else _) = _
            rw [if_neg hzero]
          · refine ⟨_, B', by rw [hptr, hsome]; rfl, hinv.set hi hb hfit hchange ?_⟩
            have hmin := (requestSize_spec size (by omega)).2.2.1
            have hstop := hfit.stop
            refine ⟨rfl, .inl rfl, hchange.valid.aligned ((hchange.used b').mpr (.inr rfl)), ?_, fun j hj => ?_⟩
            · show b'.addr + 24 + size ≤ b'.addr + 24 + b'.size
              omega
            · show s'.byte (b'.addr + 24 + j) = if j < h.size then h.data j else s'.byte (b'.addr + 24 + j)
              split
              · next hjh =>
                  rw [hbytes j (by omega) hj, ← hptr]
                  exact hfit.data j hjh
              · rfl
      · exact ⟨c, B, by simp only [perform, hi, if_pos hbase], hinv⟩

end Events

/-- Every event is performed, and keeps the invariant. -/
theorem perform_inv {w : Nat × Pool} (hw : w ∈ W.list) (hinv : Inv W B c) {e : Event} (he : e.Ok) :
    ∃ c' B', perform w.1 c e = .ok c' ∧ Inv W B' c' := by
  cases e with
  | malloc size => exact perform_malloc hw hinv he
  | calloc count size => exact perform_calloc hw hinv he
  | mallocAlign size align => exact perform_mallocAlign hw hinv he.1 he.2
  | realloc i size => exact perform_realloc hw hinv i he
  | free i => exact perform_free hinv i
  | store i offset v => exact perform_store hinv i offset v

/-- The heaps after their initialization: the last one in the list is initialized first. -/
def boot (L : List (Nat × Pool)) (s : State) : State :=
  L.foldr (fun w s => s.rtMemheapInit w.1 w.2.freeList w.2.startAddr w.2.poolSize) { s with objects := [] }

theorem boot_holds (L : List (Nat × Pool)) (hnodup : (L.map Prod.fst).Nodup)
    (hapart : L.Pairwise fun v w => v.2.Apart w.2) (s : State) :
    (boot L s).objects = L.map Prod.fst ∧
      ∀ w ∈ L, Holds (boot L s) w.1 w.2 [w.2.whole] [w.2.startAddr] := by
  induction L with
  | nil => exact ⟨rfl, fun w hw => absurd hw List.not_mem_nil⟩
  | cons v L ih =>
      rw [List.map_cons, List.nodup_cons] at hnodup
      rw [List.pairwise_cons] at hapart
      obtain ⟨hobjects, hholds⟩ := ih hnodup.2 hapart.2
      have hsize : rtAlignDown v.2.poolSize rtAlignSize = v.2.poolSize :=
        Nat.div_mul_cancel v.2.size_dvd
      have hframe := @rtMemheapInit_frame (boot L s) v.1 _ _ hsize
      refine ⟨?_, List.forall_mem_cons.mpr ⟨rtMemheapInit_holds hsize, fun w hw => ?_⟩⟩
      · rw [List.map_cons, ← hobjects]
        exact hframe.objects
      · have hne : w.1 ≠ v.1 := fun heq => hnodup.1 (heq ▸ List.mem_map_of_mem hw)
        obtain ⟨hitems, hring, hrecord, hperm, hcoalesced⟩ := hholds w hw
        have hmore : Holds { boot L s with objects := v.1 :: (boot L s).objects } w.1 w.2 [w.2.whole]
            [w.2.startAddr] :=
          ⟨hitems.congr_fields rfl rfl rfl rfl, hring, hrecord, hperm, hcoalesced⟩
        exact hmore.other hframe hne (hapart.1 w hw).symm

/-- After the initialization nothing is held, and each pool is one free block. -/
theorem boot_inv (W : Heaps) (s : State) :
    ∃ B, Inv W B ⟨boot W.list s, []⟩ := by
  obtain ⟨hobjects, hholds⟩ := boot_holds W.list W.nodup W.apart s
  let B : Nat → List Block := fun hp =>
    match W.list.find? (fun w => w.1 == hp) with
    | some w => [w.2.whole]
    | none => []
  have hB : ∀ w ∈ W.list, B w.1 = [w.2.whole] := by
    intro w hw
    show (match W.list.find? (fun v => v.1 == w.1) with | some v => [v.2.whole] | none => []) = _
    cases hfind : W.list.find? fun v => v.1 == w.1 with
    | none =>
        have hno := List.find?_eq_none.mp hfind w hw
        simp at hno
    | some v =>
        have heq := List.find?_some hfind
        rw [W.eq_of_fst (List.mem_of_find?_eq_some hfind) hw (by simpa using heq)]
  refine ⟨B, ⟨hobjects, fun w hw => ⟨_, hB w hw ▸ hholds w hw⟩⟩, .nil, nofun, ?_⟩
  rintro b ⟨hused, w, hw, hb⟩
  rw [hB w hw, List.mem_singleton] at hb
  rw [hb] at hused
  cases hused

theorem run_inv {w : Nat × Pool} (hw : w ∈ W.list) (hinv : Inv W B c) {es : List Event}
    (hes : ∀ e ∈ es, e.Ok) : ∃ c' B', Run.run (perform w.1) c es = .ok c' ∧ Inv W B' c' := by
  induction es generalizing c B with
  | nil => exact ⟨c, B, rfl, hinv⟩
  | cons e es ih =>
      obtain ⟨he, hes⟩ := List.forall_mem_cons.mp hes
      obtain ⟨c₁, B₁, hstep, hinv₁⟩ := perform_inv hw hinv he
      obtain ⟨c', B', hrun, hinv'⟩ := ih hinv₁ hes
      exact ⟨c', B', by rw [Run.run_cons_of_ok hstep, hrun], hinv'⟩

end SwmLvgl.Memheap
