import SwmLvgl.CanDriver

/-! Which frames the acceptance filters let through. A standard item fills one of the two filters of its
bank; the other half of the registers is left with check 0 and mask 0 and so lets every standard frame
through. A bank holds the item written to it last, whether its number was given or implied. -/

namespace SwmLvgl.Can

open RegBits

/-- A frame on the bus, by its format and identifier. -/
inductive Message where
  | std (id : BitVec 11)
  | ext (id : BitVec 29)
  deriving DecidableEq, Repr

/-- `check & mask == ID & mask` -/
def Passes {w : Nat} (check mask id : BitVec w) : Prop := check &&& mask = id &&& mask

instance {w : Nat} (check mask id : BitVec w) : Decidable (Passes check mask id) :=
  inferInstanceAs (Decidable (_ = _))

namespace CanTypeDef

/-- The check bits of a bank, from bit `pos` of the register on, and the mask bits. -/
def check (c : CanTypeDef) (i : Fin 16) (pos w : Nat) : BitVec w := (rev (c.acr.get i)).extractLsb' pos w

def mask (c : CanTypeDef) (i : Fin 16) (pos w : Nat) : BitVec w :=
  (~~~rev (c.amr.get i)).extractLsb' pos w

/-- The bank accepts the frame: as two filters for standard frames or one for extended frames. -/
def BankAccepts (c : CanTypeDef) (i : Fin 16) : Message → Prop
  | .std id => c.afm.getLsbD i = false ∧
      (Passes (c.check i 5 11) (c.mask i 5 11) id ∨ Passes (c.check i 21 11) (c.mask i 21 11) id)
  | .ext id => c.afm.getLsbD i = true ∧ Passes (c.check i 3 29) (c.mask i 3 29) id

/-- The frame is received: some enabled bank accepts it. -/
def Received (c : CanTypeDef) (msg : Message) : Prop :=
  ∃ i : Fin 16, c.afe.getLsbD i = true ∧ c.BankAccepts i msg

end CanTypeDef

namespace RtCanFilterItem

/-- Identifier and mask within 11 or 29 bits, and a bank that exists or none. -/
structure Valid (item : RtCanFilterItem) : Prop where
  std : item.ide = .stdid → item.id.toNat < 2 ^ 11 ∧ item.mask.toNat < 2 ^ 11
  ext : item.ide = .extid → item.mask.toNat < 2 ^ 29
  bank : item.hdrBank = -1 ∨ 0 ≤ item.hdrBank ∧ item.hdrBank < 16

/-- The item asks for the frame. -/
def Matches (item : RtCanFilterItem) : Message → Prop
  | .std id => item.ide = .stdid ∧ Passes (item.id.setWidth 32) item.mask (id.setWidth 32)
  | .ext id => item.ide = .extid ∧ Passes (item.id.setWidth 32) item.mask (id.setWidth 32)

end RtCanFilterItem

/-- A filter configuration. -/
structure FilterConfig where
  items : List RtCanFilterItem
  count : items.length ≤ 16
  valid : ∀ item ∈ items, item.Valid

/-- The bank of the item at a position. -/
def bankOf (e : RtCanFilterItem × Nat) : Nat := e.1.filterIdx e.2

/-- The item at this position is the last one of its bank. -/
def InForce (l : List (RtCanFilterItem × Nat)) (e : RtCanFilterItem × Nat) : Prop :=
  ∃ u v, l = u ++ e :: v ∧ ∀ e' ∈ v, bankOf e' ≠ bankOf e

theorem InForce.mem {l : List (RtCanFilterItem × Nat)} {e : RtCanFilterItem × Nat} (h : InForce l e) :
    e ∈ l := by
  obtain ⟨u, v, rfl, -⟩ := h
  exact List.mem_append_right u List.mem_cons_self

/-- One more item is in force, and takes the place of the one of its bank. -/
theorem inForce_append {l : List (RtCanFilterItem × Nat)} {e e' : RtCanFilterItem × Nat} :
    InForce (l ++ [e]) e' ↔ e' = e ∨ InForce l e' ∧ bankOf e' ≠ bankOf e := by
  constructor
  · rintro ⟨u, v, hl, hv⟩
    rcases List.eq_nil_or_concat v with rfl | ⟨v, x, rfl⟩
    · exact Or.inl (List.cons.inj (List.append_inj' hl rfl).2).1.symm
    · rw [List.concat_eq_append, ← List.cons_append, ← List.append_assoc] at hl
      obtain ⟨rfl, hx⟩ := List.append_inj' hl rfl
      cases hx
      refine Or.inr ⟨⟨u, v, rfl, fun y hy => hv y ?_⟩, fun h => hv e ?_ h.symm⟩
      · exact List.concat_eq_append ▸ List.mem_append_left _ hy
      · exact List.concat_eq_append ▸ List.mem_append_right _ List.mem_cons_self
  · rintro (rfl | ⟨⟨u, v, rfl, hv⟩, hne⟩)
    · exact ⟨l, [], rfl, nofun⟩
    · refine ⟨u, v ++ [e], by simp, fun y hy => ?_⟩
      rcases List.mem_append.mp hy with hy | hy
      · exact hv y hy
      · rw [List.mem_singleton.mp hy]
        exact hne.symm

/-- The distance between the identifier and the low end of a filter. -/
def Ide.pos : Ide → Nat
  | .stdid => 5
  | .extid => 3

/-- The bank is enabled and holds the item. -/
structure Programmed (c : CanTypeDef) (i : Fin 16) (item : RtCanFilterItem) : Prop where
  enabled : c.afe.getLsbD i = true
  mode : c.afm.getLsbD i = decide (item.ide = .extid)
  check : rev (c.acr.get i) = item.id.setWidth 32 <<< item.ide.pos
  mask : ~~~rev (c.amr.get i) = item.mask <<< item.ide.pos

/-- The registers agree on a bank. -/
structure SameBank (c c' : CanTypeDef) (i : Fin 16) : Prop where
  enabled : c'.afe.getLsbD i = c.afe.getLsbD i
  mode : c'.afm.getLsbD i = c.afm.getLsbD i
  check : c'.acr.get i = c.acr.get i
  mask : c'.amr.get i = c.amr.get i

theorem Programmed.congr {c c' : CanTypeDef} {i : Fin 16} {item : RtCanFilterItem}
    (h : Programmed c i item) (hsame : SameBank c c' i) : Programmed c' i item :=
  ⟨hsame.enabled.trans h.enabled, hsame.mode.trans h.mode, hsame.check ▸ h.check, hsame.mask ▸ h.mask⟩

theorem get_setIfInBounds {α : Type} {n : Nat} (a : Vector α n) (k : Nat) (x : α) (i : Fin n) :
    (a.setIfInBounds k x).get i = if k = i then x else a.get i :=
  Vector.getElem_setIfInBounds i.isLt

/-- Writing the four registers of a bank programs it and leaves the other banks. -/
theorem programmed_write (c : CanTypeDef) {k : Nat} (hk : k < 16) {item : RtCanFilterItem}
    (afm : BitVec 32) (hmode : afm.getLsbD k = decide (item.ide = .extid))
    (hother : ∀ i, i ≠ k → afm.getLsbD i = c.afm.getLsbD i) {t : CanTypeDef}
    (ht : t = { c with
      afm := afm
      acr := c.acr.setIfInBounds k (rev (item.id.setWidth 32 <<< item.ide.pos))
      amr := c.amr.setIfInBounds k (rev (~~~(item.mask <<< item.ide.pos)))
      afe := setBit c.afe k }) :
    Programmed t ⟨k, hk⟩ item ∧ ∀ i : Fin 16, i.val ≠ k → SameBank c t i := by
  subst ht
  refine ⟨⟨?_, hmode, ?_, ?_⟩, fun i hi => ⟨?_, hother i hi, ?_, ?_⟩⟩
  · exact getLsbD_setBit_self c.afe (by omega)
  · rw [get_setIfInBounds, if_pos rfl, rev_rev]
  · rw [get_setIfInBounds, if_pos rfl, rev_rev, BitVec.not_not]
  · exact getLsbD_setBit_of_ne c.afe hi
  · rw [get_setIfInBounds, if_neg hi.symm]
  · rw [get_setIfInBounds, if_neg hi.symm]

/-- A pass of the loop programs the bank of its item. -/
theorem setFilterItem_spec (c : CanTypeDef) (e : RtCanFilterItem × Nat) (h : bankOf e < 16) :
    ∃ t, c.setFilterItem e = .ok t ∧ Programmed t ⟨bankOf e, h⟩ e.1 ∧
      ∀ i : Fin 16, i.val ≠ bankOf e → SameBank c t i := by
  obtain ⟨item, k⟩ := e
  have hidx : item.filterIdx k < 16 := h
  cases hide : item.ide with
  | stdid =>
      simp only [CanTypeDef.setFilterItem, hide, CanTypeDef.setAcr, CanTypeDef.setAmr,
        CArray.set_of_lt _ hidx, bind, Except.bind]
      refine ⟨_, rfl, programmed_write c h (clrBit c.afm (item.filterIdx k)) ?_ ?_ ?_⟩
      · rw [hide]
        exact getLsbD_clrBit_self c.afm _
      · exact fun i hi => getLsbD_clrBit_of_ne c.afm hi
      · rw [hide]
        rfl
  | extid =>
      simp only [CanTypeDef.setFilterItem, hide, CanTypeDef.setAcr, CanTypeDef.setAmr,
        CArray.set_of_lt _ hidx, bind, Except.bind]
      refine ⟨_, rfl, programmed_write c h (setBit c.afm (item.filterIdx k)) ?_ ?_ ?_⟩
      · rw [hide]
        exact getLsbD_setBit_self c.afm (by omega)
      · exact fun i hi => getLsbD_setBit_of_ne c.afm hi
      · rw [hide]
        rfl

/-- After the loop, every item in force is programmed and no other bank is enabled. -/
theorem setFilter_spec {c : CanTypeDef} (hc : ∀ i : Fin 16, c.afe.getLsbD i = false)
    {l : List (RtCanFilterItem × Nat)} (hl : ∀ e ∈ l, bankOf e < 16) :
    ∃ t, Run.run CanTypeDef.setFilterItem c l = .ok t ∧
      (∀ e, InForce l e → ∃ i : Fin 16, i.val = bankOf e ∧ Programmed t i e.1) ∧
      ∀ i : Fin 16, t.afe.getLsbD i = true → ∃ e, InForce l e ∧ bankOf e = i := by
  induction l using List.reverseRecOn with
  | nil =>
      refine ⟨c, rfl, fun e he => absurd he.mem List.not_mem_nil, fun i hi => ?_⟩
      rw [hc i] at hi
      cases hi
  | append_singleton l e ih =>
      obtain ⟨s, hs, hforce, hbank⟩ := ih fun e' he' => hl e' (List.mem_append_left _ he')
      have he : bankOf e < 16 := hl e (List.mem_append_right _ List.mem_cons_self)
      obtain ⟨t, ht, hprog, hsame⟩ := setFilterItem_spec s e he
      refine ⟨t, by rw [Run.run_append_of_ok hs, Run.run_singleton, ht], fun e' he' => ?_, fun i hi => ?_⟩
      · rcases inForce_append.mp he' with rfl | ⟨he', hne⟩
        · exact ⟨⟨bankOf e', he⟩, rfl, hprog⟩
        · obtain ⟨i, hi, hprog'⟩ := hforce e' he'
          exact ⟨i, hi, hprog'.congr (hsame i (hi ▸ hne))⟩
      · by_cases hne : i.val = bankOf e
        · exact ⟨e, inForce_append.mpr (Or.inl rfl), hne.symm⟩
        · rw [(hsame i hne).enabled] at hi
          obtain ⟨e', he', hi'⟩ := hbank i hi
          exact ⟨e', inForce_append.mpr (Or.inr ⟨he', fun h => hne (hi' ▸ h)⟩), hi'⟩

/-! ### What a bank lets through -/

theorem extractLsb'_shiftLeft_high {v : BitVec 32} (h : v.toNat < 2 ^ 11) :
    (v <<< 5).extractLsb' 21 11 = 0#11 := by
  apply BitVec.eq_of_toNat_eq
  rw [BitVec.extractLsb'_toNat, BitVec.toNat_shiftLeft, Nat.shiftLeft_eq, Nat.shiftRight_eq_div_pow]
  simp only [BitVec.toNat_ofNat]
  omega

theorem extractLsb'_shiftLeft (v : BitVec 32) : (v <<< 3).extractLsb' 3 29 = v.setWidth 29 := by
  apply BitVec.eq_of_getLsbD_eq
  intro i hi
  have hlt : 3 + i < 32 := by omega
  have hge : ¬3 + i < 3 := by omega
  rw [BitVec.getLsbD_extractLsb', BitVec.getLsbD_shiftLeft, BitVec.getLsbD_setWidth,
    Nat.add_sub_cancel_left]
  simp only [hi, hlt, hge, decide_true, decide_false, Bool.true_and, Bool.not_false]

theorem setWidth_inj {x y : BitVec 29} : x.setWidth 32 = y.setWidth 32 ↔ x = y := by
  constructor
  · intro h
    have hback := congrArg (BitVec.setWidth 29) h
    simpa using hback
  · exact congrArg (BitVec.setWidth 32)

/-- Comparing 29 bits is comparing words. -/
theorem passes_setWidth {check id : BitVec 29} {mask : BitVec 32} (h : mask.toNat < 2 ^ 29) :
    Passes check (mask.setWidth 29) id ↔ Passes (check.setWidth 32) mask (id.setWidth 32) := by
  have hmask : (mask.setWidth 29).setWidth 32 = mask := by
    apply BitVec.eq_of_toNat_eq
    rw [BitVec.toNat_setWidth, BitVec.toNat_setWidth, Nat.mod_eq_of_lt h, Nat.mod_eq_of_lt mask.isLt]
  calc Passes check (mask.setWidth 29) id
      ↔ (check &&& mask.setWidth 29).setWidth 32 = (id &&& mask.setWidth 29).setWidth 32 :=
        setWidth_inj.symm
    _ ↔ Passes (check.setWidth 32) mask (id.setWidth 32) := by
        rw [BitVec.setWidth_and, BitVec.setWidth_and, hmask]
        rfl

/-- The frames that the bank of an item lets through: all standard frames, or the extended frames that
the item asks for. -/
def RtCanFilterItem.LetsThrough (item : RtCanFilterItem) : Message → Prop
  | .std _ => item.ide = .stdid
  | .ext id => item.Matches (.ext id)

theorem Programmed.bankAccepts_iff {c : CanTypeDef} {i : Fin 16} {item : RtCanFilterItem}
    (h : Programmed c i item) (hvalid : item.Valid) (msg : Message) :
    c.BankAccepts i msg ↔ item.LetsThrough msg := by
  cases msg with
  | std id =>
      rw [CanTypeDef.BankAccepts, RtCanFilterItem.LetsThrough, h.mode]
      constructor
      · rintro ⟨hmode, -⟩
        cases hide : item.ide with
        | stdid => rfl
        | extid => simp [hide] at hmode
      · intro hide
        refine ⟨by simp [hide], Or.inr ?_⟩
        obtain ⟨-, hmask⟩ := hvalid.std hide
        -- the upper filter has check 0 and mask 0
        have hzero : c.mask i 21 11 = 0#11 := by
          rw [CanTypeDef.mask, h.mask, hide]
          exact extractLsb'_shiftLeft_high hmask
        rw [hzero, Passes, BitVec.and_zero, BitVec.and_zero]
  | ext id =>
      rw [CanTypeDef.BankAccepts, RtCanFilterItem.LetsThrough, RtCanFilterItem.Matches, h.mode,
        decide_eq_true_iff]
      refine and_congr_right fun hide => ?_
      rw [CanTypeDef.check, CanTypeDef.mask, h.check, h.mask, hide]
      calc Passes _ _ id ↔ Passes item.id (item.mask.setWidth 29) id := by
            have hid : (BitVec.setWidth 32 item.id).setWidth 29 = item.id := by simp
            rw [Ide.pos, extractLsb'_shiftLeft, extractLsb'_shiftLeft, hid]
        _ ↔ Passes (item.id.setWidth 32) item.mask (id.setWidth 32) := passes_setWidth (hvalid.ext hide)

/-- A frame is received exactly if an item in force lets it through. -/
theorem received_iff (cfg : FilterConfig) {c : CanTypeDef}
    (hc : ∀ i : Fin 16, c.afe.getLsbD i = false) :
    ∃ t, c.swmCanSetFilter (some cfg.items) = .ok t ∧ ∀ msg, t.Received msg ↔
      ∃ e, InForce cfg.items.zipIdx e ∧ e.1.LetsThrough msg := by
  have hmem : ∀ e ∈ cfg.items.zipIdx, e.1 ∈ cfg.items ∧ e.2 < 16 := by
    intro e he
    have hlen := cfg.count
    obtain ⟨-, hlt, hget⟩ := List.mem_zipIdx he
    exact ⟨hget ▸ List.getElem_mem _, by omega⟩
  have hbank : ∀ e ∈ cfg.items.zipIdx, bankOf e < 16 := by
    intro e he
    obtain ⟨hitem, hlt⟩ := hmem e he
    have hvalid := (cfg.valid _ hitem).bank
    unfold bankOf RtCanFilterItem.filterIdx
    split <;> omega
  obtain ⟨t, ht, hforce, henabled⟩ := setFilter_spec hc hbank
  refine ⟨t, ht, fun msg => ⟨?_, ?_⟩⟩
  · rintro ⟨i, hi, haccept⟩
    obtain ⟨e, he, heq⟩ := henabled i hi
    obtain ⟨j, hj, hprog⟩ := hforce e he
    have hij : j = i := Fin.ext (hj.trans heq)
    subst hij
    exact ⟨e, he, (hprog.bankAccepts_iff (cfg.valid _ (hmem e he.mem).1) msg).mp haccept⟩
  · rintro ⟨e, he, hlets⟩
    obtain ⟨i, -, hprog⟩ := hforce e he
    exact ⟨i, hprog.enabled, (hprog.bankAccepts_iff (cfg.valid _ (hmem e he.mem).1) msg).mpr hlets⟩

/-- Some item asks for the frame. -/
def FilterConfig.Asks (cfg : FilterConfig) (msg : Message) : Prop := ∃ item ∈ cfg.items, item.Matches msg

/-- The exact condition. For a standard frame: some item asks for it if and only if a standard item is
in force. For an extended frame: if some item asks for it, then one in force does. -/
def FilterConfig.Exact (cfg : FilterConfig) : Message → Prop
  | .std id => (∃ e, InForce cfg.items.zipIdx e ∧ e.1.ide = .stdid) ↔ cfg.Asks (.std id)
  | .ext id => cfg.Asks (.ext id) → ∃ e, InForce cfg.items.zipIdx e ∧ e.1.Matches (.ext id)

/-- **Filters.** On a controller without enabled banks, the configuration is accepted, and a frame is
received if and only if some item asks for it, exactly under the condition above. -/
theorem filters_exact (cfg : FilterConfig) {c : CanTypeDef}
    (hc : ∀ i : Fin 16, c.afe.getLsbD i = false) :
    ∃ t, c.swmCanSetFilter (some cfg.items) = .ok t ∧
      ∀ msg, (t.Received msg ↔ cfg.Asks msg) ↔ cfg.Exact msg := by
  obtain ⟨t, ht, hreceived⟩ := received_iff cfg hc
  refine ⟨t, ht, fun msg => ?_⟩
  rw [hreceived msg]
  cases msg with
  | std id => exact Iff.rfl
  | ext id =>
      constructor
      · exact fun h => h.mpr
      · intro h
        refine ⟨?_, h⟩
        rintro ⟨⟨item, i⟩, he, hmatch⟩
        exact ⟨item, (List.mem_zipIdx' he.mem).2 ▸ List.getElem_mem _, hmatch⟩

/-- One standard item that asks for 0x100 to 0x1ff. -/
def oneItem : FilterConfig where
  items := [⟨0x100, .stdid, 0x700, -1⟩]
  count := by decide
  valid := by
    intro item hitem
    cases List.mem_singleton.mp hitem
    exact ⟨fun _ => ⟨by decide, by decide⟩, nofun, Or.inl rfl⟩

theorem filters_exact_demo : ∃ t, CanTypeDef.reset.swmCanSetFilter (some oneItem.items) = .ok t ∧
    ∀ msg, (t.Received msg ↔ oneItem.Asks msg) ↔ oneItem.Exact msg :=
  filters_exact oneItem fun i => by simp [CanTypeDef.reset]

/-- The frame 0x555 is received though no item asks for it. -/
theorem unwanted_frame_received : ∃ t,
    CanTypeDef.reset.swmCanSetFilter (some oneItem.items) = .ok t ∧
      t.Received (.std 0x555) ∧ ¬oneItem.Asks (.std 0x555) := by
  refine ⟨_, rfl, ⟨0, by decide, by decide, Or.inr (by decide)⟩, ?_⟩
  rintro ⟨item, hitem, hmatch⟩
  cases List.mem_singleton.mp hitem
  exact absurd hmatch.2 (by decide)

end SwmLvgl.Can
