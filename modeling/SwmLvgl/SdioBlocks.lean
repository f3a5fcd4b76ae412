import SwmLvgl.SdioTransfer

/-! What the loops of the data phase move. A block of `blksize` bytes is moved as `blksize / 4` words, so
blocks of whole words are moved completely and in order, and of any other block the last byte is not
touched. -/

namespace SwmLvgl.Sdio

open Memory

/-- The rule for the two loops: `I i j` holds before word `j` of block `i`. -/
theorem blockLoop_spec {word : Nat → Bus → Nat → Except TransferFault Bus} {data : RtMmcsdData}
    {I : Nat → Nat → Bus → Prop}
    (hword : ∀ i < data.blks.toNat, ∀ j < data.blksize.toNat / 4, ∀ t, I i j t →
      ∃ t', word (u32 (i * data.blksize.toNat) / 4) t j = .ok t' ∧ I i (j + 1) t')
    (hblock : ∀ i t, I i (data.blksize.toNat / 4) t → I (i + 1) 0 t) {s : Bus} (hs : I 0 0 s) :
    ∃ t, blockLoop word data s = .ok t ∧ I data.blks.toNat 0 t := by
  refine Run.run_range (I := fun i t => I i 0 t) (fun i hi t ht => ?_) hs
  obtain ⟨t', hrun, ht'⟩ := Run.run_range (I := I i) (hword i hi) ht
  exact ⟨t', hrun, hblock i t' ht'⟩

/-- The bytes of a block that are not part of a whole word: its last one at least, if any. -/
def ragged (bs : Nat) : Nat := min 1 (bs % 4)

section Words

variable {buff n bs blks i j : Nat}

/-- Word `j` of block `i` lies in the buffer, before the bytes at its end that no word reaches. -/
theorem word_in_buffer (hi : i < blks) (hj : j < bs / 4) :
    4 * (i * bs / 4 + j) + 4 + ragged bs ≤ blks * bs := by
  have hnext : i * bs + bs ≤ blks * bs := by
    calc i * bs + bs = (i + 1) * bs := (Nat.succ_mul i bs).symm
      _ ≤ blks * bs := Nat.mul_le_mul_right bs hi
  unfold ragged
  omega

theorem wordAddr_eq (hfits : buff + blks * bs ≤ 2 ^ 32) (hi : i < blks) (hj : j < bs / 4) :
    wordAddr buff (u32 (i * bs) / 4) j = buff + 4 * (i * bs / 4 + j) := by
  have hin := word_in_buffer hi hj
  have hle : i * bs ≤ blks * bs := Nat.mul_le_mul_right bs hi.le
  have hbs : 0 < bs := by omega
  have hlt : i * bs < 2 ^ 32 := by
    calc i * bs < blks * bs := Nat.mul_lt_mul_of_pos_right hi hbs
      _ ≤ 2 ^ 32 := by omega
  rw [wordAddr, u32, u32, u32, Nat.mod_eq_of_lt hlt, @Nat.mod_eq_of_lt (i * bs / 4 + j) _ (by omega),
    Nat.mod_eq_of_lt (by omega)]

/-- With blocks of whole words the words follow each other. -/
theorem word_offset (h : bs % 4 = 0) : 4 * (i * (bs / 4) + j) = i * bs + 4 * j ∧
    4 * (i * bs / 4 + j) = i * bs + 4 * j := by
  obtain ⟨w, rfl⟩ := Nat.dvd_of_mod_eq_zero h
  have hmul : i * (4 * w) = 4 * (i * w) := Nat.mul_left_comm i 4 w
  rw [hmul, Nat.mul_div_cancel_left _ (by decide), Nat.mul_div_cancel_left _ (by decide)]
  omega

theorem next_block (h : bs % 4 = 0) : i * bs + 4 * (bs / 4) = (i + 1) * bs + 4 * 0 := by
  rw [Nat.succ_mul i bs]
  omega

end Words

/-- Reading, before word `j` of block `i`, into a buffer of `n` bytes. -/
structure RxInv (s : Bus) (buff n bs i j : Nat) (t : Bus) : Prop where
  card : t.card = s.card
  taken : t.taken = s.taken + 4 * (i * (bs / 4) + j)
  domain : ∀ a, (t.mem a).isSome = (s.mem a).isSome
  outside : ∀ a, a < buff ∨ buff + n ≤ a + ragged bs → t.mem a = s.mem a
  value : bs % 4 = 0 → ∀ p < i * bs + 4 * j, t.mem (buff + p) = some (s.card (s.taken + p))

theorem RxInv.step {s t : Bus} {buff bs blks i j : Nat} (h : RxInv s buff (blks * bs) bs i j t)
    (halign : buff % 4 = 0) (hfits : buff + blks * bs ≤ 2 ^ 32)
    (hacc : Accessible s.mem buff (blks * bs)) (hi : i < blks) (hj : j < bs / 4) :
    ∃ t', rxWord buff (u32 (i * bs) / 4) t j = .ok t' ∧
      RxInv s buff (blks * bs) bs i (j + 1) t' := by
  have hin := word_in_buffer hi hj
  have haddr := wordAddr_eq hfits hi hj
  have hacc' : Accessible t.mem (buff + 4 * (i * bs / 4 + j)) 4 := by
    intro k hk
    rw [h.domain, Nat.add_assoc]
    exact hacc _ (by omega)
  obtain ⟨m', hstore, hm'⟩ :=
    storeWord_spec TransferFault.memory (ofBytes fun k => t.card (t.taken + k)) hacc'
  refine ⟨{ t with mem := m', taken := t.taken + 4 }, ?_, ?_⟩
  · simp only [rxWord, haddr]
    rw [if_neg (by omega), hstore]
    rfl
  · refine ⟨h.card, ?_, fun a => ?_, fun a ha => ?_, fun hbs p hp => ?_⟩
    · show t.taken + 4 = _
      rw [h.taken]
      omega
    · exact (hm'.isSome_iff hacc' a).trans (h.domain a)
    · exact (hm'.outside a (by omega)).trans (h.outside a ha)
    · obtain ⟨htaken, hoffset⟩ := @word_offset bs i j hbs
      rcases Nat.lt_or_ge p (i * bs + 4 * j) with hlt | hge
      · exact (hm'.outside _ (by omega)).trans (h.value hbs p hlt)
      · obtain ⟨k, rfl⟩ : ∃ k, p = i * bs + 4 * j + k := ⟨p - (i * bs + 4 * j), by omega⟩
        have hk : k < 4 := by omega
        have hbyte := hm'.inside k hk
        rw [hoffset, byte_ofBytes _ hk, h.card, h.taken, htaken] at hbyte
        rw [Nat.add_assoc, Nat.add_assoc s.taken] at hbyte
        exact hbyte

/-- What reading leaves in the buffer. -/
theorem swmSdioRxconfig_spec {data : RtMmcsdData} {buff : Nat} {s : Bus} (halign : buff % 4 = 0)
    (hfits : buff + data.blks.toNat * data.blksize.toNat ≤ 2 ^ 32)
    (hacc : Accessible s.mem buff (data.blks.toNat * data.blksize.toNat)) :
    ∃ t, swmSdioRxconfig data buff s = .ok t ∧
      RxInv s buff (data.blks.toNat * data.blksize.toNat) data.blksize.toNat data.blks.toNat 0 t := by
  refine blockLoop_spec (fun i hi j hj t ht => ht.step halign hfits hacc hi hj) (fun i t ht => ?_) ?_
  · refine ⟨ht.card, ?_, ht.domain, ht.outside, fun hbs p hp => ht.value hbs p ?_⟩
    · rw [ht.taken, Nat.succ_mul i, Nat.add_zero]
    · rw [next_block hbs]
      exact hp
  · exact ⟨rfl, by simp, fun _ => rfl, fun _ _ => rfl, fun _ p hp => by simp at hp⟩

/-- Writing, before word `j` of block `i`, from a buffer that holds `f`. -/
structure TxInv (s : Bus) (f : Nat → BitVec 8) (bs i j : Nat) (t : Bus) : Prop where
  mem : t.mem = s.mem
  card : t.card = s.card
  taken : t.taken = s.taken
  length : t.sent.length = s.sent.length + 4 * (i * (bs / 4) + j)
  value : bs % 4 = 0 ∨ (i = 0 ∧ j = 0) → t.sent = s.sent ++ (List.range (i * bs + 4 * j)).map f

theorem TxInv.step {s t : Bus} {f : Nat → BitVec 8} {buff bs blks i j : Nat} (h : TxInv s f bs i j t)
    (halign : buff % 4 = 0) (hfits : buff + blks * bs ≤ 2 ^ 32)
    (hf : ∀ p < blks * bs, s.mem (buff + p) = some (f p)) (hi : i < blks) (hj : j < bs / 4) :
    ∃ t', txWord buff (u32 (i * bs) / 4) t j = .ok t' ∧ TxInv s f bs i (j + 1) t' := by
  have hin := word_in_buffer hi hj
  have haddr := wordAddr_eq hfits hi hj
  have hload : loadWord TransferFault.memory t.mem (buff + 4 * (i * bs / 4 + j)) =
      .ok (ofBytes fun k => f (4 * (i * bs / 4 + j) + k)) := by
    apply loadWord_spec
    intro k hk
    rw [h.mem, Nat.add_assoc]
    exact hf _ (by omega)
  refine ⟨{ t with sent := t.sent ++ (List.range 4).map fun k => f (4 * (i * bs / 4 + j) + k) }, ?_, ?_⟩
  · simp only [txWord, haddr]
    rw [if_neg (by omega), hload]
    simp [bind, Except.bind, pure, Except.pure, List.range_succ]
  · refine ⟨h.mem, h.card, h.taken, ?_, fun hbs => ?_⟩
    · rw [List.length_append, h.length, List.length_map, List.length_range]
      omega
    · have hbs : bs % 4 = 0 := hbs.resolve_right (by omega)
      obtain ⟨-, hoffset⟩ := @word_offset bs i j hbs
      have hrange : ∀ m, List.range (m + 4) = List.range m ++ (List.range 4).map (m + ·) :=
        fun m => List.range_add
      show t.sent ++ _ = _
      rw [h.value (Or.inl hbs), hoffset, Nat.mul_succ, ← Nat.add_assoc, hrange (i * bs + 4 * j), List.map_append,
        List.map_map, List.append_assoc]
      rfl

/-- What writing sends. -/
theorem swmSdioTxconfig_spec {data : RtMmcsdData} {buff : Nat} {s : Bus} {f : Nat → BitVec 8}
    (halign : buff % 4 = 0) (hfits : buff + data.blks.toNat * data.blksize.toNat ≤ 2 ^ 32)
    (hf : ∀ p < data.blks.toNat * data.blksize.toNat, s.mem (buff + p) = some (f p)) :
    ∃ t, swmSdioTxconfig data buff s = .ok t ∧
      TxInv s f data.blksize.toNat data.blks.toNat 0 t := by
  refine blockLoop_spec (fun i hi j hj t ht => ht.step halign hfits hf hi hj) (fun i t ht => ?_) ?_
  · refine ⟨ht.mem, ht.card, ht.taken, ?_, fun hbs => ?_⟩
    · rw [ht.length, Nat.succ_mul i, Nat.add_zero]
    · have hbs : data.blksize.toNat % 4 = 0 := hbs.resolve_right (by omega)
      rw [ht.value (Or.inl hbs), next_block hbs]
  · exact ⟨rfl, rfl, rfl, by simp, fun _ => by simp⟩

end SwmLvgl.Sdio
