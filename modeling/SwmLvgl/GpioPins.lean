import SwmLvgl.GpioDriver

/-! Which registers and which entry of the handler table an operation on a pin touches. Each library
function changes bits of the pin it is given only; an operation given a pin outside the table must
change nothing. The low byte of the pin selects the registers, the pin itself the entry, and
`PinOp.Accepted` is the exact condition under which the two agree. -/

namespace SwmLvgl.Gpio

open RegBits

/-- A bit of a register. -/
inductive RegBit where
  | pin (g : GpioTypeDef) (k : PinReg) (m : Nat)
  | func (g : GpioTypeDef) (i : Fin 2) (m : Nat)
  | clken (i : Fin 2) (m : Nat)
  | nvic (irq : Nat)
  deriving DecidableEq

def Regs.bit (r : Regs) : RegBit → Bool
  | .pin g k m => (r.reg g k).getLsbD m
  | .func g i m => (r.func g i).getLsbD m
  | .clken i m => (r.clken i).getLsbD m
  | .nvic irq => r.nvic irq

/-- The bits that serve pin `n` of port `g`: its bit in each register and its function field, and the
clock and the interrupt line of its port. -/
def RegBit.OfPin (g : GpioTypeDef) (n : Nat) : RegBit → Prop
  | .pin g' _ m => g' = g ∧ m = n
  | .func g' i m => g' = g ∧ 8 * i.val + m / 4 = n
  | .clken i m => (i, m) = g.clk
  | .nvic irq => irq = g.irqn

namespace Regs

/-- Only bits of pin `n` of port `g` may differ, and every write was made for that pin. -/
structure OnlyPin (g : GpioTypeDef) (n : Nat) (r r' : Regs) : Prop where
  bits : ∀ b : RegBit, ¬b.OfPin g n → r'.bit b = r.bit b
  writes : ∃ l, r'.writes = r.writes ++ l ∧ ∀ e ∈ l, e = (g, n)

variable {g : GpioTypeDef} {n : Nat}

theorem OnlyPin.refl (r : Regs) : OnlyPin g n r r := ⟨fun _ _ => rfl, [], by simp, by simp⟩

theorem OnlyPin.trans {r₁ r₂ r₃ : Regs} (h : OnlyPin g n r₁ r₂) (h' : OnlyPin g n r₂ r₃) :
    OnlyPin g n r₁ r₃ := by
  obtain ⟨l, hl, hmem⟩ := h.writes
  obtain ⟨l', hl', hmem'⟩ := h'.writes
  refine ⟨fun b hb => (h'.bits b hb).trans (h.bits b hb), l ++ l', ?_, ?_⟩
  · rw [hl', hl, List.append_assoc]
  · intro e he
    rcases List.mem_append.mp he with he | he
    · exact hmem e he
    · exact hmem' e he

theorem onlyPin_modReg (r : Regs) (k : PinReg) {f : BitVec 32 → BitVec 32}
    (hf : ∀ v m, m ≠ n → (f v).getLsbD m = v.getLsbD m) : OnlyPin g n r (r.modReg g k n f) := by
  refine ⟨fun b hb => ?_, [(g, n)], rfl, by simp⟩
  cases b with
  | pin g' k' m =>
      simp only [bit, modReg, Function.update_apply]
      split
      · have hm : m ≠ n := fun hm => hb ⟨‹g' = g›, hm⟩
        simp only [Function.update_apply, ‹g' = g›]
        split
        · rw [hf _ m hm, ‹k' = k›]
        · rfl
      · rfl
  | func => rfl
  | clken => rfl
  | nvic => rfl

theorem onlyPin_set (r : Regs) (k : PinReg) : OnlyPin g n r (r.set g k n) :=
  onlyPin_modReg r k fun v m hm => by simp [hm]

theorem onlyPin_clr (r : Regs) (k : PinReg) : OnlyPin g n r (r.clr g k n) :=
  onlyPin_modReg r k fun v m hm => by simp [hm]

theorem onlyPin_intClr (r : Regs) : OnlyPin g n r (r.intClr g n) := by
  refine onlyPin_modReg r _ fun v m hm => ?_
  split
  · rfl
  · simp [hm]

theorem onlyPin_put (r : Regs) (k : PinReg) (on : Bool) : OnlyPin g n r (r.put g k n on) := by
  cases on with
  | true => exact onlyPin_set r k
  | false => exact onlyPin_clr r k

theorem onlyPin_clkEnable (r : Regs) : OnlyPin g n r (r.clkEnable g n) := by
  refine ⟨fun b hb => ?_, [(g, n)], rfl, by simp⟩
  cases b with
  | pin => rfl
  | func => rfl
  | nvic => rfl
  | clken i m =>
      simp only [bit, clkEnable, Function.update_apply]
      split
      · have hm : m ≠ g.clk.2 := fun hm => hb (by rw [RegBit.OfPin, ‹i = g.clk.1›, hm])
        simp [hm, ‹i = g.clk.1›]
      · rfl

theorem onlyPin_clrFunc (r : Regs) {i : Fin 2} {m : Nat} (hm : 8 * i.val + m = n) :
    OnlyPin g n r (r.clrFunc g i m n) := by
  refine ⟨fun b hb => ?_, [(g, n)], rfl, by simp⟩
  cases b with
  | pin => rfl
  | clken => rfl
  | nvic => rfl
  | func g' j p =>
      simp only [bit, clrFunc, Function.update_apply]
      split
      · simp only [Function.update_apply, ‹g' = g›]
        split
        · have hp : p / 4 ≠ m := fun hp => hb ⟨‹g' = g›, by rw [‹j = i›, hp, hm]⟩
          rw [‹j = i›]
          apply getLsbD_clrField
          have hmask : ∀ q, 4 ≤ q → (0x0F : BitVec 32).getLsbD q = false := by
            intro q hq
            rw [show (0x0F : BitVec 32) = BitVec.ofNat 32 (2 ^ 4 - 1) from rfl, BitVec.getLsbD_ofNat,
              Nat.testBit_two_pow_sub_one]
            simp [Nat.not_lt.mpr hq]
          by_cases hlt : p < m * 4
          · exact Or.inl hlt
          · exact Or.inr (hmask _ (by omega))
        · rfl
      · rfl

theorem onlyPin_portInit (r : Regs) : OnlyPin g n r (r.portInit g n) := by
  unfold portInit
  by_cases hn : n < 8
  · rw [if_pos hn]
    exact (onlyPin_clrFunc r (by simp)).trans (onlyPin_set _ _)
  · rw [if_neg hn]
    exact (onlyPin_clrFunc r (by simp; omega)).trans (onlyPin_set _ _)

theorem onlyPin_gpioInit (r : Regs) (dir pullUp pullDown openDrain : Bool) :
    OnlyPin g n r (r.gpioInit g n dir pullUp pullDown openDrain) :=
  (onlyPin_clkEnable r).trans ((onlyPin_portInit _).trans ((onlyPin_put _ _ _).trans
    ((onlyPin_put _ _ _).trans ((onlyPin_put _ _ _).trans (onlyPin_put _ _ _)))))

theorem onlyPin_extiInit (r : Regs) (mode : ExtiMode) : OnlyPin g n r (r.extiInit g n mode) := by
  unfold extiInit
  refine (onlyPin_clr r .intEn).trans (OnlyPin.trans ?_ (onlyPin_intClr _))
  split
  · exact (onlyPin_set _ _).trans (onlyPin_put _ _ _)
  · split
    · exact (onlyPin_clr _ _).trans (onlyPin_set _ _)
    · exact (onlyPin_clr _ _).trans ((onlyPin_clr _ _).trans (onlyPin_put _ _ _))

theorem onlyPin_nvicEnableIRQ (r : Regs) : OnlyPin g n r (r.nvicEnableIRQ g n g.irqn) := by
  refine ⟨fun b hb => ?_, [(g, n)], rfl, by simp⟩
  cases b with
  | pin => rfl
  | func => rfl
  | clken => rfl
  | nvic irq => exact Function.update_of_ne hb _ _

/-- Some register is written. -/
def Wrote (r r' : Regs) : Prop := r.writes.length < r'.writes.length

theorem wrote_modReg (r : Regs) (k : PinReg) (f : BitVec 32 → BitVec 32) :
    r.Wrote (r.modReg g k n f) := by
  simp [Wrote, modReg]

theorem wrote_put (r : Regs) (k : PinReg) (on : Bool) : r.Wrote (r.put g k n on) := by
  cases on with
  | true => exact wrote_modReg r k fun v => setBit v n
  | false => exact wrote_modReg r k fun v => clrBit v n

theorem wrote_gpioInit (r : Regs) (dir pullUp pullDown openDrain : Bool) :
    r.Wrote (r.gpioInit g n dir pullUp pullDown openDrain) := by
  have hlen : ∀ (r : Regs) (k : PinReg) (on : Bool),
      (r.put g k n on).writes.length = r.writes.length + 1 := by
    intro r k on
    cases on <;> simp [put, set, clr, modReg]
  have hport : ∀ r : Regs, (r.portInit g n).writes.length = r.writes.length + 2 := by
    intro r
    unfold portInit
    split <;> simp [clrFunc, set, modReg]
  have hclk : (r.clkEnable g n).writes.length = r.writes.length + 1 := by
    simp [clkEnable]
  simp only [Wrote, gpioInit, hlen, hport, hclk]
  omega

theorem Wrote.ne {r r' : Regs} (h : r.Wrote r') : r' ≠ r := by
  intro heq
  rw [Wrote, heq] at h
  exact lt_irrefl _ h

end Regs

inductive PinOp where
  | mode (pin : Int) (mode : UInt8)
  | write (pin : Int) (value : UInt8)
  | read (pin : Int)
  | attachIrq (pin : Int) (mode : UInt8) (hdr args : Ptr)
  | detachIrq (pin : Int)
  | irqEnable (pin : Int) (enabled : UInt8)
  deriving DecidableEq, Repr

def PinOp.pin : PinOp → Int
  | .mode pin _ => pin
  | .write pin _ => pin
  | .read pin => pin
  | .attachIrq pin _ _ _ => pin
  | .detachIrq pin => pin
  | .irqEnable pin _ => pin

/-- The operation, with what it returns. -/
def State.perform (s : State) : PinOp → Except Fault (Ret × State)
  | .mode pin mode => .ok (s.swmPinMode pin mode)
  | .write pin value => .ok (s.swmPinWrite pin value)
  | .read pin => .ok (s.swmPinRead pin)
  | .attachIrq pin mode hdr args => s.swmPinAttachIrq pin mode hdr args
  | .detachIrq pin => s.swmPinDetachIrq pin
  | .irqEnable pin enabled => s.swmPinIrqEnable pin enabled

def pinStep (s : State) (op : PinOp) : Except Fault State := (s.perform op).map Prod.snd

/-- The pin is an index of `pin_obj`. -/
def ValidPin (pin : Int) : Prop := 0 ≤ pin ∧ pin < pinNum

instance (pin : Int) : Decidable (ValidPin pin) := inferInstanceAs (Decidable (_ ∧ _))

/-- Only registers and the table entry of the pin `d` may differ. -/
structure ActsOn (d : SwmPinDevice) (s t : State) : Prop where
  regs : Regs.OnlyPin d.gpio d.pin s.regs t.regs
  tab : ∀ i : Nat, i ≠ d.index → t.tab[i]? = s.tab[i]?
  init : t.init = s.init
  gpio : t.gpio = s.gpio
  calls : t.calls = s.calls

/-- An operation that returns a value returns an error. -/
def Ret.ReportsError : Ret → Prop
  | .void => True
  | .level _ => False
  | .err e => e ≠ .eok

/-- The operation acts on the pin named, or on nothing where no such pin exists, and stays within the
handler table. -/
def PinOk (s : State) (op : PinOp) : Prop :=
  ∃ ret t, s.perform op = .ok (ret, t) ∧
    (ValidPin op.pin → ∃ d, pinObj[op.pin.toNat]? = some d ∧ ActsOn d s t) ∧
    (¬ValidPin op.pin → t = s ∧ ret.ReportsError)

/-- The low byte of the pin is no index of `pin_obj`. -/
def Refused (pin : Int) : Prop := pinNum ≤ pin % 256

instance (pin : Int) : Decidable (Refused pin) := inferInstanceAs (Decidable (_ ≤ _))

/-- The exact condition for `PinOk`. -/
def PinOp.Accepted : PinOp → Prop
  | .mode pin _ => ValidPin pin ∨ Refused pin
  | .write pin _ => ValidPin pin ∨ Refused pin
  | .read pin => ValidPin pin ∨ Refused pin
  | .attachIrq pin _ _ _ => ValidPin pin
  | .detachIrq pin => ValidPin pin
  | .irqEnable pin enabled =>
      ValidPin pin ∨ Refused pin ∨ enabled ≠ State.pinIrqEnable ∧ enabled ≠ State.pinIrqDisable

instance PinOp.decidableAccepted : ∀ op : PinOp, Decidable op.Accepted
  | .mode _ _ => inferInstanceAs (Decidable (_ ∨ _))
  | .write _ _ => inferInstanceAs (Decidable (_ ∨ _))
  | .read _ => inferInstanceAs (Decidable (_ ∨ _))
  | .attachIrq pin _ _ _ => inferInstanceAs (Decidable (ValidPin pin))
  | .detachIrq pin => inferInstanceAs (Decidable (ValidPin pin))
  | .irqEnable _ _ => inferInstanceAs (Decidable (_ ∨ _ ∨ _))

/-- The entries of `pin_obj` stand at their index. -/
theorem pinObj_get {i : Nat} (hi : i < pinNum) :
    ∃ d, pinObj[i]? = some d ∧ d.index = i ∧ d.irq = d.gpio.irqn := by
  have h : ∀ i : Fin pinNum, (pinObj[i.val]?).any
      (fun d : SwmPinDevice => decide (d.index = i.val ∧ d.irq = d.gpio.irqn)) = true := by
    decide +kernel
  have hi' := h ⟨i, hi⟩
  cases hd : pinObj[i]? with
  | none => simp [hd] at hi'
  | some d => exact ⟨d, rfl, by simpa [hd] using hi'⟩

theorem pinNum_lt : (pinNum : Int) < 256 := by decide

theorem pin2struct_ofInt (pin : Int) : pin2struct (UInt8.ofInt pin) =
    if Refused pin then none else pinObj[(pin % 256).toNat]? := by
  have hnat : (UInt8.ofInt pin).toNat = (pin % 256).toNat := by
    have : pin % 256 < 256 := Int.emod_lt_of_pos pin (by decide)
    simp [UInt8.ofInt]
    omega
  have hlt : (pin % 256).toNat < pinNum ↔ ¬Refused pin := by
    unfold Refused
    omega
  rw [pin2struct, hnat]
  by_cases h : Refused pin
  · rw [if_neg (fun h' => hlt.mp h' h), if_pos h]
  · rw [if_pos (hlt.mpr h), if_neg h]

/-- A pin of the table selects its own entry. -/
theorem pin2struct_valid {pin : Int} (h : ValidPin pin) :
    ∃ d, pin2struct (UInt8.ofInt pin) = some d ∧ pinObj[pin.toNat]? = some d ∧
      d.index = pin.toNat ∧ d.irq = d.gpio.irqn := by
  obtain ⟨hpos, hlt⟩ := h
  obtain ⟨d, hd, hindex, hirq⟩ := pinObj_get (i := pin.toNat) (by omega)
  have hmod : pin % 256 = pin := Int.emod_eq_of_lt hpos (Int.lt_trans hlt pinNum_lt)
  refine ⟨d, ?_, hd, hindex, hirq⟩
  rw [pin2struct_ofInt, if_neg (by rw [Refused, hmod]; omega), hmod, hd]

theorem pin2struct_refused {pin : Int} (h : Refused pin) : pin2struct (UInt8.ofInt pin) = none := by
  rw [pin2struct_ofInt, if_pos h]

/-- Any other pin selects the entry of its low byte. -/
theorem pin2struct_aliased {pin : Int} (h : ¬Refused pin) :
    ∃ d, pin2struct (UInt8.ofInt pin) = some d := by
  have hlt : (pin % 256).toNat < pinNum := by
    unfold Refused at h
    omega
  obtain ⟨d, hd, -⟩ := pinObj_get hlt
  exact ⟨d, by rw [pin2struct_ofInt, if_neg h, hd]⟩

namespace State

theorem entry_valid (s : State) (pin : Int) (h : ValidPin pin) :
    ∃ e, s.entry pin = .ok e := by
  obtain ⟨hpos, hlt⟩ := h
  obtain ⟨n, rfl⟩ := Int.eq_ofNat_of_zero_le hpos
  have hn : n < pinNum := by omega
  exact ⟨s.tab[n], by rw [entry, CArray.get_of_lt _ hn]⟩

theorem entry_invalid (s : State) (pin : Int) (h : ¬ValidPin pin) :
    s.entry pin = .error (.table pin) := by
  have hget : CArray.get s.tab pin = none := by
    rw [CArray.get_eq_none_iff]
    unfold ValidPin at h
    omega
  rw [entry, hget]

theorem setEntry_valid (s : State) (pin : Int) (h : ValidPin pin) (e : RtPinIrqHdr) :
    s.setEntry pin e = .ok { s with tab := s.tab.setIfInBounds pin.toNat e } := by
  obtain ⟨hpos, hlt⟩ := h
  obtain ⟨n, rfl⟩ := Int.eq_ofNat_of_zero_le hpos
  have hn : n < pinNum := by omega
  rw [setEntry, CArray.set_of_lt _ hn]
  rfl

end State

theorem actsOn_regs {d : SwmPinDevice} {s : State} {r : Regs}
    (h : Regs.OnlyPin d.gpio d.pin s.regs r) : ActsOn d s { s with regs := r } :=
  ⟨h, fun _ _ => rfl, rfl, rfl, rfl⟩

theorem actsOn_refl (d : SwmPinDevice) (s : State) : ActsOn d s s :=
  actsOn_regs (Regs.OnlyPin.refl s.regs)

theorem actsOn_tab {d : SwmPinDevice} (s : State) {i : Nat} (h : d.index = i) (e : RtPinIrqHdr) :
    ActsOn d s { s with tab := s.tab.setIfInBounds i e } := by
  refine ⟨Regs.OnlyPin.refl s.regs, fun j hj => ?_, rfl, rfl, rfl⟩
  rw [Vector.getElem?_setIfInBounds, if_neg (by omega)]

section Spec

variable {pin : Int} {d : SwmPinDevice} (s : State)

theorem swmPinMode_some (h : pin2struct (UInt8.ofInt pin) = some d) (mode : UInt8) :
    s.swmPinMode pin mode = (.void, { s with
      regs := s.regs.gpioInit d.gpio d.pin (State.pinModeBits mode).1 (State.pinModeBits mode).2.1
        (State.pinModeBits mode).2.2.1 (State.pinModeBits mode).2.2.2 }) := by
  rw [State.swmPinMode, h]

theorem swmPinWrite_some (h : pin2struct (UInt8.ofInt pin) = some d) (value : UInt8) :
    s.swmPinWrite pin value =
      (.void, { s with regs := s.regs.put d.gpio .odr d.pin (decide (value ≠ 0)) }) := by
  rw [State.swmPinWrite, h]
  by_cases hv : value ≠ 0 <;> simp [hv, Regs.put, Regs.gpioAtomicSetBit, Regs.gpioAtomicClrBit]

theorem swmPinIrqEnable_disable (h : pin2struct (UInt8.ofInt pin) = some d) :
    s.swmPinIrqEnable pin State.pinIrqDisable =
      .ok (.err .eok, { s with regs := s.regs.extiClose d.gpio d.pin }) := by
  rw [State.swmPinIrqEnable, h]
  rfl

theorem swmPinIrqEnable_other (h : pin2struct (UInt8.ofInt pin) = some d) {enabled : UInt8}
    (hen : enabled ≠ State.pinIrqEnable) (hdis : enabled ≠ State.pinIrqDisable) :
    s.swmPinIrqEnable pin enabled = .ok (.err .enosys, s) := by
  rw [State.swmPinIrqEnable, h]
  simp only [if_neg hen, if_neg hdis]

/-- The enabling of a pin's interrupt where its table entry can be read. -/
theorem swmPinIrqEnable_enable (h : pin2struct (UInt8.ofInt pin) = some d) {e : RtPinIrqHdr}
    (he : s.entry pin = .ok e) :
    s.swmPinIrqEnable pin State.pinIrqEnable = .ok (.err .einval, s) ∨
      ∃ pullUp pullDown mode, s.swmPinIrqEnable pin State.pinIrqEnable = .ok (.err .eok, { s with
        regs := (((s.regs.gpioInit d.gpio d.pin false pullUp pullDown false).extiInit d.gpio d.pin
          mode).nvicEnableIRQ d.gpio d.pin d.irq).extiOpen d.gpio d.pin }) := by
  rw [State.swmPinIrqEnable, h]
  simp only [if_true, bind, Except.bind, he]
  cases State.irqModeBits e.mode with
  | none => exact Or.inl rfl
  | some m => exact Or.inr ⟨_, _, _, rfl⟩

end Spec

/-- An operation on a pin of the table acts on that pin. -/
theorem pinOk_valid (s : State) {op : PinOp} (h : ValidPin op.pin) : PinOk s op := by
  obtain ⟨d, hd, hobj, hindex, hirq⟩ := pin2struct_valid h
  have hok : ∀ ret t, s.perform op = .ok (ret, t) → ActsOn d s t → PinOk s op :=
    fun ret t ht hacts => ⟨ret, t, ht, fun _ => ⟨d, hobj, hacts⟩, fun hn => absurd h hn⟩
  cases op with
  | mode pin mode =>
      exact hok _ _ (congrArg Except.ok (swmPinMode_some s hd mode))
        (actsOn_regs (Regs.onlyPin_gpioInit _ _ _ _ _))
  | write pin value =>
      exact hok _ _ (congrArg Except.ok (swmPinWrite_some s hd value))
        (actsOn_regs (Regs.onlyPin_put _ _ _))
  | read pin =>
      refine hok (.level (s.regs.gpioGetBit d.gpio d.pin)) s ?_ (actsOn_refl d s)
      simp only [PinOp.pin] at hd
      rw [State.perform, State.swmPinRead, hd]
  | attachIrq pin mode hdr args =>
      obtain ⟨e, he⟩ := s.entry_valid pin h
      by_cases hsame : e.pin = pin ∧ e.mode = mode ∧ e.hdr = hdr ∧ e.args = args
      · refine hok (.err .eok) s ?_ (actsOn_refl d s)
        simp only [State.perform, State.swmPinAttachIrq, bind, Except.bind, he, if_pos hsame]
        rfl
      · refine hok (.err .eok) _ ?_ (actsOn_tab s hindex ⟨pin, mode, hdr, args⟩)
        simp only [State.perform, State.swmPinAttachIrq, bind, Except.bind, he, if_neg hsame,
          s.setEntry_valid pin h]
        rfl
  | detachIrq pin =>
      obtain ⟨e, he⟩ := s.entry_valid pin h
      refine hok (.err .eok) _ ?_ (actsOn_tab s hindex { e with mode := 0, hdr := 0, args := 0 })
      simp only [State.perform, State.swmPinDetachIrq, bind, Except.bind, he,
        s.setEntry_valid pin h]
      rfl
  | irqEnable pin enabled =>
      obtain ⟨e, he⟩ := s.entry_valid pin h
      by_cases hen : enabled = State.pinIrqEnable
      · subst hen
        rcases swmPinIrqEnable_enable s hd he with heq | ⟨pullUp, pullDown, mode, heq⟩
        · exact hok _ _ heq (actsOn_refl d s)
        · refine hok _ _ heq (actsOn_regs ?_)
          rw [hirq]
          exact (Regs.onlyPin_gpioInit _ _ _ _ _).trans ((Regs.onlyPin_extiInit _ _).trans
            ((Regs.onlyPin_nvicEnableIRQ _).trans (Regs.onlyPin_set _ _)))
      · by_cases hdis : enabled = State.pinIrqDisable
        · subst hdis
          exact hok _ _ (swmPinIrqEnable_disable s hd) (actsOn_regs (Regs.onlyPin_clr _ _))
        · exact hok _ _ (swmPinIrqEnable_other s hd hen hdis) (actsOn_refl d s)

section Invalid

variable {s t : State} {op : PinOp} {ret : Ret}

theorem pinOk_of_reported (h : ¬ValidPin op.pin) (hret : s.perform op = .ok (ret, s))
    (herr : ret.ReportsError) : PinOk s op :=
  ⟨ret, s, hret, fun hv => absurd hv h, fun _ => ⟨rfl, herr⟩⟩

theorem not_pinOk_of_changed (h : ¬ValidPin op.pin) (ht : s.perform op = .ok (ret, t))
    (hne : t = s → ¬ret.ReportsError) : ¬PinOk s op := by
  rintro ⟨ret', t', ht', _, hinv⟩
  rw [ht] at ht'
  cases ht'
  obtain ⟨heq, herr⟩ := hinv h
  exact hne heq herr

theorem not_pinOk_of_fault {e : Fault} (he : s.perform op = .error e) : ¬PinOk s op := by
  rintro ⟨ret, t, ht, _⟩
  rw [he] at ht
  cases ht

/-- `swm_pin_irq_enable` looks at the narrowed pin first, and uses the pin itself to enable. -/
theorem pinOk_irqEnable (s : State) {pin : Int} (h : ¬ValidPin pin) (enabled : UInt8) :
    PinOk s (.irqEnable pin enabled) ↔ (PinOp.irqEnable pin enabled).Accepted := by
  by_cases hr : Refused pin
  · have hperform : s.perform (.irqEnable pin enabled) = .ok (.err .enosys, s) := by
      rw [State.perform, State.swmPinIrqEnable, pin2struct_refused hr]
    exact iff_of_true (pinOk_of_reported h hperform (by simp [Ret.ReportsError])) (Or.inr (Or.inl hr))
  obtain ⟨d, hd⟩ := pin2struct_aliased hr
  by_cases hen : enabled = State.pinIrqEnable
  · subst hen
    refine iff_of_false (not_pinOk_of_fault (e := .table pin) ?_) (by simp [PinOp.Accepted, h, hr])
    rw [State.perform, State.swmPinIrqEnable, hd]
    simp only [if_true, s.entry_invalid pin h]
    rfl
  by_cases hdis : enabled = State.pinIrqDisable
  · subst hdis
    refine iff_of_false (not_pinOk_of_changed h (swmPinIrqEnable_disable s hd) ?_)
      (by simp [PinOp.Accepted, h, hr])
    exact fun _ herr => herr rfl
  · exact iff_of_true
      (pinOk_of_reported h (swmPinIrqEnable_other s hd hen hdis) (by simp [Ret.ReportsError]))
      (Or.inr (Or.inr ⟨hen, hdis⟩))

/-- An operation on any other pin changes nothing exactly if it is accepted. -/
theorem pinOk_invalid (s : State) {op : PinOp} (h : ¬ValidPin op.pin) :
    PinOk s op ↔ op.Accepted := by
  cases op with
  | mode pin mode =>
      by_cases hr : Refused pin
      · have hperform : s.perform (.mode pin mode) = .ok (.void, s) := by
          rw [State.perform, State.swmPinMode, pin2struct_refused hr]
        exact iff_of_true (pinOk_of_reported h hperform trivial) (Or.inr hr)
      · obtain ⟨d, hd⟩ := pin2struct_aliased hr
        have hperform := congrArg (Except.ok (ε := Fault)) (swmPinMode_some s hd mode)
        refine iff_of_false (not_pinOk_of_changed h hperform ?_) (not_or_intro h hr)
        exact fun heq => absurd (congrArg State.regs heq) (Regs.wrote_gpioInit _ _ _ _ _).ne
  | write pin value =>
      by_cases hr : Refused pin
      · have hperform : s.perform (.write pin value) = .ok (.void, s) := by
          rw [State.perform, State.swmPinWrite, pin2struct_refused hr]
        exact iff_of_true (pinOk_of_reported h hperform trivial) (Or.inr hr)
      · obtain ⟨d, hd⟩ := pin2struct_aliased hr
        have hperform := congrArg (Except.ok (ε := Fault)) (swmPinWrite_some s hd value)
        refine iff_of_false (not_pinOk_of_changed h hperform ?_) (not_or_intro h hr)
        exact fun heq => absurd (congrArg State.regs heq) (Regs.wrote_put _ _ _).ne
  | read pin =>
      by_cases hr : Refused pin
      · have hperform : s.perform (.read pin) = .ok (.err .einval, s) := by
          rw [State.perform, State.swmPinRead, pin2struct_refused hr]
        exact iff_of_true (pinOk_of_reported h hperform (by simp [Ret.ReportsError])) (Or.inr hr)
      · obtain ⟨d, hd⟩ := pin2struct_aliased hr
        have hperform : s.perform (.read pin) = .ok (.level (s.regs.gpioGetBit d.gpio d.pin), s) := by
          rw [State.perform, State.swmPinRead, hd]
        exact iff_of_false (not_pinOk_of_changed h hperform fun _ => id) (not_or_intro h hr)
  | attachIrq pin mode hdr args =>
      refine iff_of_false (not_pinOk_of_fault (e := .table pin) ?_) h
      rw [State.perform, State.swmPinAttachIrq, s.entry_invalid pin h]
      rfl
  | detachIrq pin =>
      refine iff_of_false (not_pinOk_of_fault (e := .table pin) ?_) h
      rw [State.perform, State.swmPinDetachIrq, s.entry_invalid pin h]
      rfl
  | irqEnable pin enabled => exact pinOk_irqEnable s h enabled

end Invalid

theorem pinOk_iff (s : State) (op : PinOp) : PinOk s op ↔ op.Accepted := by
  by_cases h : ValidPin op.pin
  · refine iff_of_true (pinOk_valid s h) ?_
    cases op with
    | mode => exact Or.inl h
    | write => exact Or.inl h
    | read => exact Or.inl h
    | attachIrq => exact h
    | detachIrq => exact h
    | irqEnable => exact Or.inl h
  · exact pinOk_invalid s h

/-- **Pins.** Along a sequence of operations from any state, every operation acts on the pin named, or
on nothing where there is no such pin, if and only if every operation is accepted. -/
theorem pins_exact (s : State) (w : List PinOp) :
    (∀ v op t, v ++ [op] <+: w → Run.run pinStep s v = .ok t → PinOk t op) ↔
      ∀ op ∈ w, op.Accepted := by
  rw [← Run.allSteps_iff_prefix]
  apply Run.allSteps_iff_forall (I := fun _ => True) (fun s op _ => pinOk_iff s op) _ trivial
  rintro s op - ⟨ret, t, ht, -⟩
  exact ⟨t, by rw [pinStep, ht]; rfl, trivial⟩

/-- Pin 256 is no pin: `swm_pin_mode` makes PA.0 an output for it, and `swm_pin_attach_irq` leaves the
handler table. -/
theorem pin_256_sets_pa0 :
    ¬PinOk State.boot (.mode 256 0) ∧ ¬ValidPin 256 ∧
      (∃ t, State.boot.perform (.mode 256 0) = .ok (.void, t) ∧
        State.boot.regs.bit (.pin .gpioA .dir 0) = false ∧
        t.regs.bit (.pin .gpioA .dir 0) = true) ∧
      State.boot.perform (.attachIrq 256 0 1 0) = .error (.table 256) := by
  refine ⟨?_, by decide, ⟨_, rfl, rfl, by decide⟩, rfl⟩
  rw [pinOk_iff]
  decide

end SwmLvgl.Gpio
