import SwmLvgl.AddressSpace
import SwmLvgl.Loops

/-! The `sfc_dump` command (`src/applications/main.c`). It prints a range of memory in lines of up to 16
bytes, and reads the memory only in aligned words, each line's words anew. What it does is a trace of its
loads and of what it prints; a line covers its bytes once, so do all lines together. -/

namespace SwmLvgl.Sfc

open Memory
open Space (loadWord place)

/-- A load from an address with its width in bytes, or a call of `rt_kprintf`, by its format:
`"0x%08lx: "`, `"%02X"`, or a text. -/
inductive Event where
  | load (a : BitVec 32) (bytes : Nat)
  | addr (a : BitVec 32)
  | hex (b : BitVec 8)
  | text (s : String)
  deriving DecidableEq, Repr

/-- The bytes printed in hex. -/
def shown (out : List Event) : List (BitVec 8) :=
  out.filterMap fun
    | .hex b => some b
    | _ => none

/-- Word `i` of a line. -/
def dumpWord (mem : Space) (aligned : BitVec 32) (startOff line words i : Nat) : List Event :=
  let wp := place aligned (i * 4)
  let w := loadWord mem wp
  let from' := if i = 0 then startOff else 0
  let to' :=
    if i = words - 1 then
      let totalBytes := startOff + line
      let lastBytes := totalBytes - i * 4
      if lastBytes < 4 then lastBytes else 4
    else 4
  .load wp 4 :: (List.range' from' (to' - from')).flatMap fun j =>
    let printed := i * 4 + j - startOff + 1
    [.hex (byte w j), .text (if printed = 8 then "  " else " ")]

/-- A line of `line` bytes, up to its end. -/
def dumpLine (mem : Space) (lineAddr : BitVec 32) (line : Nat) : List Event :=
  let aligned := lineAddr &&& ~~~3#32
  let startOff := (lineAddr - aligned).toNat
  let need := startOff + line
  let words := (need + 3) / 4
  .addr lineAddr :: ((List.range words).flatMap (dumpWord mem aligned startOff line words) ++
    (List.range' line (16 - line)).map fun _ => .text "   ")

/-- The variables of the loop over the lines, and the trace. -/
structure DumpState where
  remaining : BitVec 32
  cur : BitVec 32
  out : List Event

def dumpStep (mem : Space) (addrUl : BitVec 32) (s : DumpState) : DumpState ⊕ List Event :=
  if 0 < s.remaining then
    let line : BitVec 32 := if s.remaining > 16 then 16 else s.remaining
    let lineAddr := addrUl + s.cur
    .inl {
      remaining := s.remaining - line
      cur := s.cur + line
      out := s.out ++ dumpLine mem lineAddr line.toNat ++ [.text "\n"] }
  else .inr s.out

/-- `addr_ul` and `len_ul`, from what `strtoul` makes of the arguments. -/
def dumpArgs (argv : List (BitVec 32)) : BitVec 32 × BitVec 32 :=
  (argv[0]?.getD 0x70000000, argv[1]?.getD 0x80)

/-- The command ends with this trace. -/
def SfcDump (mem : Space) (argv : List (BitVec 32)) (out : List Event) : Prop :=
  Loop.Exits (dumpStep mem (dumpArgs argv).1) ⟨(dumpArgs argv).2, 0, []⟩ out

/-- The trace of a dump of `n` bytes from `addr` on. -/
structure Dumped (mem : Space) (addr : BitVec 32) (n : Nat) (out : List Event) : Prop where
  bytes : shown out = (List.range n).map fun k => mem (place addr k)
  lines : ∀ l ∈ out.splitOn (.text "\n"), (shown l).length ≤ 16
  loads : ∀ a bytes, .load a bytes ∈ out → bytes = 4 ∧ a.toNat % 4 = 0 ∧
    ∃ k < n, ∃ j < 4, place a j = place addr k

@[simp] theorem shown_nil : shown [] = [] := rfl

@[simp] theorem shown_append (l l' : List Event) : shown (l ++ l') = shown l ++ shown l' := by
  simp only [shown, List.filterMap_append]

@[simp] theorem shown_load (a : BitVec 32) (n : Nat) (l : List Event) :
    shown (.load a n :: l) = shown l := rfl

@[simp] theorem shown_addr (a : BitVec 32) (l : List Event) : shown (.addr a :: l) = shown l := rfl

@[simp] theorem shown_text (s : String) (l : List Event) : shown (.text s :: l) = shown l := rfl

@[simp] theorem shown_hex (b : BitVec 8) (l : List Event) : shown (.hex b :: l) = b :: shown l := rfl

theorem shown_flatMap (f : Nat → BitVec 8) (g : Nat → String) (l : List Nat) :
    shown (l.flatMap fun j => [.hex (f j), .text (g j)]) = l.map f := by
  induction l with
  | nil => rfl
  | cons j l ih =>
      rw [List.flatMap_cons, shown_append, ih]
      rfl

theorem shown_texts (l : List Nat) (s : String) : shown (l.map fun _ => .text s) = [] := by
  induction l with
  | nil => rfl
  | cons j l ih => rw [List.map_cons, shown_text, ih]

/-- The address of the first word of a line, and the first byte's place in it. -/
theorem aligned_spec (a : BitVec 32) :
    (a &&& ~~~3#32).toNat % 4 = 0 ∧ (a - (a &&& ~~~3#32)).toNat < 4 := by
  have hshift : a &&& ~~~3#32 = (a >>> 2) <<< 2 := by
    apply BitVec.eq_of_getLsbD_eq
    intro i hi
    simp only [BitVec.getLsbD_and, BitVec.getLsbD_not, BitVec.getLsbD_shiftLeft,
      BitVec.getLsbD_ushiftRight]
    rcases i with _ | _ | i
    · simp
    · simp
    · have h3 : (3#32).getLsbD (i + 1 + 1) = false := by
        rw [BitVec.getLsbD, Nat.testBit_lt_two_pow]
        calc 3 < 2 ^ 2 := by decide
          _ ≤ 2 ^ (i + 1 + 1) := Nat.pow_le_pow_right (by decide) (by omega)
      have hlt : ¬i + 1 + 1 < 2 := by omega
      have hadd : 2 + (i + 1 + 1 - 2) = i + 1 + 1 := by omega
      simp only [h3, hlt, hi, hadd, decide_true, decide_false, Bool.not_false, Bool.true_and,
        Bool.and_true]
  have hnat : (a &&& ~~~3#32).toNat = a.toNat / 4 * 4 := by
    rw [hshift, BitVec.toNat_shiftLeft, BitVec.toNat_ushiftRight, Nat.shiftRight_eq_div_pow,
      Nat.shiftLeft_eq]
    have := a.isLt
    omega
  rw [BitVec.toNat_sub, hnat]
  have := a.isLt
  omega

section Line

variable {mem : Space} {aligned : BitVec 32} {s n : Nat}

/-- Word `i` of a line shows the line's positions in it, counted from the first word. -/
theorem shown_dumpWord (hs : s < 4) (hn : 0 < n) {i : Nat} (hi : i < (s + n + 3) / 4) :
    shown (dumpWord mem aligned s n ((s + n + 3) / 4) i) =
      (List.range' (max (4 * i) s) (min (4 * (i + 1)) (s + n) - max (4 * i) s)).map fun p =>
        mem (place aligned p) := by
  have hword : ∀ j < 4, byte (loadWord mem (place aligned (i * 4))) j =
      mem (place aligned (4 * i + j)) := by
    intro j hj
    rw [Space.byte_loadWord _ _ hj, Space.place_place, Nat.mul_comm]
  have hshift : List.range' (max (4 * i) s) (min (4 * (i + 1)) (s + n) - max (4 * i) s) =
      (List.range' (max (4 * i) s - 4 * i) (min (4 * (i + 1)) (s + n) - max (4 * i) s)).map
        (4 * i + ·) := by
    rw [List.map_add_range']
    congr 1
    omega
  have hfrom : (if i = 0 then s else 0) = max (4 * i) s - 4 * i := by
    split <;> omega
  have hto : (if i = (s + n + 3) / 4 - 1 then
      if s + n - i * 4 < 4 then s + n - i * 4 else 4 else 4) = min (4 * (i + 1)) (s + n) - 4 * i := by
    split
    · split <;> omega
    · omega
  have hlen : min (4 * (i + 1)) (s + n) - 4 * i - (max (4 * i) s - 4 * i) =
      min (4 * (i + 1)) (s + n) - max (4 * i) s := by omega
  simp only [dumpWord, shown_load, shown_flatMap, hfrom, hto, hlen]
  rw [hshift, List.map_map]
  apply List.map_congr_left
  intro j hj
  rw [List.mem_range'_1] at hj
  exact hword j (by omega)

theorem shown_words (hs : s < 4) (hn : 0 < n) {i : Nat} (hi : i ≤ (s + n + 3) / 4) :
    shown ((List.range i).flatMap (dumpWord mem aligned s n ((s + n + 3) / 4))) =
      (List.range' s (min (4 * i) (s + n) - s)).map fun p => mem (place aligned p) := by
  induction i with
  | zero => simp
  | succ i ih =>
      rw [List.range_succ, List.flatMap_append, shown_append, ih (by omega), List.flatMap_cons,
        List.flatMap_nil, List.append_nil, shown_dumpWord hs hn (by omega), ← List.map_append]
      congr 1
      have hstart : max (4 * i) s = s + (min (4 * i) (s + n) - s) := by omega
      rw [hstart, List.range'_append_1]
      congr 1
      omega

theorem load_mem_dumpWord {words i bytes : Nat} {a : BitVec 32} :
    .load a bytes ∈ dumpWord mem aligned s n words i ↔
      a = place aligned (i * 4) ∧ bytes = 4 := by
  simp [dumpWord]

theorem newline_notMem_dumpWord {words i : Nat} : .text "\n" ∉ dumpWord mem aligned s n words i := by
  simp only [dumpWord, List.mem_cons, List.mem_flatMap, reduceCtorEq, false_or, not_exists, not_and,
    List.not_mem_nil, or_false, Event.text.injEq]
  intro j _
  split <;> decide

/-- Word `i` of a line begins at a multiple of four and holds a byte of the line. -/
theorem word_within (hs : s < 4) (hn : 0 < n) (haligned : aligned.toNat % 4 = 0) {i : Nat}
    (hi : i < (s + n + 3) / 4) :
    (place aligned (i * 4)).toNat % 4 = 0 ∧ ∃ k < n, ∃ j < 4,
      place (place aligned (i * 4)) j = place (place aligned s) k := by
  constructor
  · rw [place, BitVec.toNat_add, BitVec.toNat_ofNat]
    omega
  · refine ⟨max (4 * i) s - s, by omega, max (4 * i) s - 4 * i, by omega, ?_⟩
    rw [Space.place_place, Space.place_place]
    congr 1
    omega

end Line

/-- A line shows its bytes and has no line end in it, and each of its words holds one of its bytes. -/
theorem dumpLine_spec (mem : Space) (a : BitVec 32) {n : Nat} (hn : 0 < n) :
    shown (dumpLine mem a n) = ((List.range n).map fun k => mem (place a k)) ∧
      .text "\n" ∉ dumpLine mem a n ∧
      ∀ a' bytes, .load a' bytes ∈ dumpLine mem a n → bytes = 4 ∧ a'.toNat % 4 = 0 ∧
        ∃ k < n, ∃ j < 4, place a' j = place a k := by
  obtain ⟨haligned, hs⟩ := aligned_spec a
  have ha : place (a &&& ~~~3#32) (a - (a &&& ~~~3#32)).toNat = a := Space.place_sub _ _
  simp only [dumpLine]
  generalize a &&& ~~~3#32 = aligned at *
  generalize (a - aligned).toNat = s at *
  subst ha
  refine ⟨?_, ?_, ?_⟩
  · rw [shown_addr, shown_append, shown_texts, List.append_nil, shown_words hs hn (le_refl _)]
    have hall : min (4 * ((s + n + 3) / 4)) (s + n) - s = n := by omega
    rw [hall, List.range_eq_range', ← Nat.add_zero s, ← List.map_add_range', List.map_map]
    apply List.map_congr_left
    intro k _
    rw [Function.comp_apply, Nat.add_zero, Space.place_place]
  · simp only [List.mem_cons, List.mem_append, List.mem_flatMap, List.mem_map, reduceCtorEq, false_or,
      not_or, not_exists, not_and]
    exact ⟨fun _ _ => newline_notMem_dumpWord, fun _ _ => by decide⟩
  · intro a' bytes h
    simp only [List.mem_cons, List.mem_append, List.mem_flatMap, List.mem_map, reduceCtorEq, false_or,
      and_false, exists_false, or_false, List.mem_range] at h
    obtain ⟨i, hi, hload⟩ := h
    obtain ⟨rfl, rfl⟩ := load_mem_dumpWord.mp hload
    obtain ⟨hmul, hwithin⟩ := word_within hs hn haligned hi
    exact ⟨rfl, hmul, hwithin⟩

/-- What the trace holds once the first `n` bytes are shown. The lines are those so far, whatever
follows them. -/
structure Shown (mem : Space) (addr : BitVec 32) (n : Nat) (out : List Event) : Prop where
  bytes : shown out = (List.range n).map fun k => mem (place addr k)
  lines : ∃ pieces : List (List Event), (∀ l ∈ pieces, (shown l).length ≤ 16) ∧
    ∀ rest, (out ++ rest).splitOn (.text "\n") = pieces ++ rest.splitOn (.text "\n")
  loads : ∀ a bytes, .load a bytes ∈ out → bytes = 4 ∧ a.toNat % 4 = 0 ∧
    ∃ k < n, ∃ j < 4, place a j = place addr k

theorem Shown.dumped {mem : Space} {addr : BitVec 32} {n : Nat} {out : List Event}
    (h : Shown mem addr n out) : Dumped mem addr n out := by
  obtain ⟨pieces, hpieces, hsplit⟩ := h.lines
  refine ⟨h.bytes, fun l hl => ?_, h.loads⟩
  have hout := hsplit []
  rw [List.append_nil] at hout
  rw [hout, List.mem_append] at hl
  rcases hl with hl | hl
  · exact hpieces l hl
  · rw [List.splitOn_nil, List.mem_singleton] at hl
    rw [hl]
    exact Nat.zero_le _

/-- One more line. -/
theorem Shown.line {mem : Space} {addr : BitVec 32} {n k : Nat} {out : List Event}
    (h : Shown mem addr n out) (hk : 0 < k) (hk' : k ≤ 16) :
    Shown mem addr (n + k)
      (out ++ dumpLine mem (place addr n) k ++ [.text "\n"]) := by
  obtain ⟨hbytes, hnewline, hloads⟩ := dumpLine_spec mem (place addr n) hk
  obtain ⟨pieces, hpieces, hsplit⟩ := h.lines
  constructor
  · rw [shown_append, shown_append, h.bytes, hbytes, shown_text, shown_nil, List.append_nil,
      @List.range_add n k, List.map_append, List.map_map]
    congr 1
    apply List.map_congr_left
    intro j _
    rw [Function.comp_apply, Space.place_place]
  · refine ⟨pieces ++ [dumpLine mem (place addr n) k], fun l hl => ?_, fun rest => ?_⟩
    · rcases List.mem_append.mp hl with hl | hl
      · exact hpieces l hl
      · rw [List.mem_singleton.mp hl, hbytes, List.length_map, List.length_range]
        exact hk'
    · rw [List.append_assoc, List.append_assoc, List.singleton_append, hsplit,
        List.splitOn_append_cons_self_of_not_mem hnewline, List.append_cons]
  · intro a bytes hmem
    simp only [List.mem_append, List.mem_singleton, reduceCtorEq, or_false] at hmem
    rcases hmem with hmem | hmem
    · obtain ⟨hfour, hmul, j, hj, hj'⟩ := h.loads a bytes hmem
      exact ⟨hfour, hmul, j, by omega, hj'⟩
    · obtain ⟨hfour, hmul, j, hj, i, hi, heq⟩ := hloads a bytes hmem
      exact ⟨hfour, hmul, n + j, by omega, i, hi, by rw [heq, Space.place_place]⟩

/-- The lines cover what is not remaining. -/
structure DumpInv (mem : Space) (addr len : BitVec 32) (s : DumpState) : Prop where
  count : s.cur.toNat + s.remaining.toNat = len.toNat
  shown : Shown mem addr s.cur.toNat s.out

/-- The length of the next line. -/
theorem line_range {remaining : BitVec 32} (hpos : 0 < remaining) :
    let line : BitVec 32 := if remaining > 16 then 16 else remaining
    0 < line.toNat ∧ line.toNat ≤ 16 ∧ line.toNat ≤ remaining.toNat := by
  intro line
  rw [BitVec.lt_def] at hpos
  by_cases hgt : remaining > 16
  · have hline : line = 16 := if_pos hgt
    rw [gt_iff_lt, BitVec.lt_def] at hgt
    rw [hline]
    exact ⟨by decide, by decide, hgt.le⟩
  · have hline : line = remaining := if_neg hgt
    rw [gt_iff_lt, BitVec.lt_def, Nat.not_lt] at hgt
    rw [hline]
    exact ⟨hpos, hgt, le_refl _⟩

theorem dumpStep_spec {mem : Space} {addr len : BitVec 32} {s : DumpState}
    (h : DumpInv mem addr len s) :
    (∃ s', dumpStep mem addr s = .inl s' ∧ DumpInv mem addr len s' ∧
        s'.remaining.toNat < s.remaining.toNat) ∨
      ∃ out, dumpStep mem addr s = .inr out ∧ Dumped mem addr len.toNat out := by
  have hcount := h.count
  have hlen := len.isLt
  by_cases hpos : 0 < s.remaining
  · left
    simp only [dumpStep, if_pos hpos]
    have hrange := line_range hpos
    generalize (if s.remaining > 16 then (16 : BitVec 32) else s.remaining) = line at hrange ⊢
    have hrem : (s.remaining - line).toNat = s.remaining.toNat - line.toNat := by
      rw [BitVec.toNat_sub_of_le (BitVec.le_def.mpr hrange.2.2)]
    have hcur : (s.cur + line).toNat = s.cur.toNat + line.toNat := by
      rw [BitVec.toNat_add, Nat.mod_eq_of_lt (by omega)]
    refine ⟨_, rfl, ⟨?_, ?_⟩, ?_⟩
    · simp only [hrem, hcur]
      omega
    · have := h.shown.line hrange.1 hrange.2.1
      rw [Space.place_toNat] at this
      rwa [hcur]
    · simp only [hrem]
      omega
  · right
    have hzero : s.remaining.toNat = 0 := by
      rw [BitVec.lt_def] at hpos
      exact Nat.eq_zero_of_not_pos hpos
    refine ⟨s.out, by rw [dumpStep, if_neg hpos], ?_⟩
    rw [← hcount, hzero, Nat.add_zero]
    exact h.shown.dumped

theorem sfcDump_args (mem : Space) (argv : List (BitVec 32)) :
    ∃ out, SfcDump mem argv out ∧ Dumped mem (dumpArgs argv).1 (dumpArgs argv).2.toNat out := by
  apply Loop.exits_of_measure (fun s => s.remaining.toNat) (fun s => dumpStep_spec)
  refine ⟨by simp, rfl, ⟨[], nofun, fun _ => rfl⟩, nofun⟩

/-- The command ends for every start address and length, and its lines show the bytes of the range in
order, reading aligned words of the range only. An argument that is not given has its default. -/
theorem sfc_dump_exact (mem : Space) (addr len : BitVec 32) (more : List (BitVec 32)) :
    (∃ out, SfcDump mem (addr :: len :: more) out ∧ Dumped mem addr len.toNat out) ∧
      (∃ out, SfcDump mem [addr] out ∧ Dumped mem addr 0x80 out) ∧
      ∃ out, SfcDump mem [] out ∧ Dumped mem 0x70000000 0x80 out := by
  refine ⟨?_, ?_, ?_⟩
  · exact sfcDump_args mem (addr :: len :: more)
  · exact sfcDump_args mem [addr]
  · exact sfcDump_args mem []

/-- Twenty bytes from an address that is not aligned, of a memory that holds at each address its low
byte. -/
theorem sfc_dump_exact_demo :
    ∃ out, SfcDump (fun a => a.setWidth 8) [0x70000003, 20] out ∧
      shown out = (List.range 20).map fun k => BitVec.ofNat 8 (k + 3) := by
  obtain ⟨out, hdump, hout⟩ := (sfc_dump_exact (fun a => a.setWidth 8) 0x70000003 20 []).1
  exact ⟨out, hdump, hout.bytes.trans (by decide)⟩

end SwmLvgl.Sfc
