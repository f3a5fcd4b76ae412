import SwmLvgl.GpioPins

/-! Dispatch of GPIO interrupts. The list of pins that `swm_pin_isr` goes through is filled at the first
interrupt, with the pins of the port that raised it, and kept for all later ones; the filling loop
also reads behind the end of `pin_obj`. An interrupt is served when exactly the pending flags of its
port are cleared and exactly the handlers attached to those pins are called. The flags of level
interrupts are none that a handler could clear. -/

namespace SwmLvgl.Gpio

open RegBits

/-- `__SWM_GET_PIN_A(0)` and the others. -/
def GpioTypeDef.base : GpioTypeDef → Nat
  | .gpioA => 0
  | .gpioB => 16
  | .gpioC => 32
  | .gpioD => 48
  | .gpioE => 64
  | .gpioM => 80
  | .gpioN => 96

namespace Regs

/-- Exactly the interrupt flags in `P` are cleared. -/
def Cleared (P : GpioTypeDef → Nat → Prop) (r r' : Regs) : Prop :=
  (∀ g n, P g n → r'.bit (.pin g .intRawStat n) = false) ∧
    ∀ b, (∀ g n, P g n → b ≠ .pin g .intRawStat n) → r'.bit b = r.bit b

theorem extiState_eq (r : Regs) (g : GpioTypeDef) (n : Nat) :
    r.extiState g n = (r.bit (.pin g .intRawStat n) && r.bit (.pin g .intEn n)) := by
  simp [extiState, intStat, bit]

theorem cleared_refl {P : GpioTypeDef → Nat → Prop} (h : ∀ g n, ¬P g n) (r : Regs) : r.Cleared P r :=
  ⟨fun g n hp => absurd hp (h g n), fun _ _ => rfl⟩

/-- A pending interrupt of an edge. -/
def PendingEdge (r : Regs) (g : GpioTypeDef) (n : Nat) : Prop :=
  r.extiState g n = true ∧ r.bit (.pin g .intLvlTrg n) = false

theorem cleared_extiClear (r : Regs) (g : GpioTypeDef) (n : Nat) :
    r.Cleared (fun g' n' => g' = g ∧ n' = n ∧ r.bit (.pin g .intLvlTrg n) = false) (r.extiClear g n) := by
  constructor
  · rintro _ _ ⟨rfl, rfl, hedge⟩
    rw [bit] at hedge
    simp [bit, extiClear, intClr, modReg, hedge]
  · intro b hb
    cases b with
    | func => rfl
    | clken => rfl
    | nvic => rfl
    | pin g' k m =>
        simp only [bit, extiClear, intClr, modReg, Function.update_apply]
        split
        · simp only [Function.update_apply, ‹g' = g›]
          split
          · split
            · rw [‹k = _›]
            · have hedge : r.bit (.pin g .intLvlTrg n) = false := Bool.eq_false_iff.mpr ‹_›
              have hm : m ≠ n := fun hm => hb g n ⟨rfl, rfl, hedge⟩ (by rw [‹g' = g›, ‹k = _›, hm])
              simp [hm, ‹k = _›]
          · rfl
        · rfl

theorem Cleared.trans {P Q : GpioTypeDef → Nat → Prop} {r₁ r₂ r₃ : Regs} (h : r₁.Cleared P r₂)
    (h' : r₂.Cleared Q r₃) : r₁.Cleared (fun g n => P g n ∨ Q g n) r₃ := by
  constructor
  · intro g n hpq
    by_cases hq : Q g n
    · exact h'.1 g n hq
    · have hkeep := h'.2 (.pin g .intRawStat n) fun g' n' hq' heq => hq (by cases heq; exact hq')
      rw [hkeep]
      exact h.1 g n (hpq.resolve_right hq)
  · intro b hb
    rw [h'.2 b fun g n hq => hb g n (Or.inr hq), h.2 b fun g n hp => hb g n (Or.inl hp)]

theorem Cleared.congr {P Q : GpioTypeDef → Nat → Prop} {r r' : Regs} (h : r.Cleared P r')
    (hpq : ∀ g n, P g n ↔ Q g n) : r.Cleared Q r' :=
  ⟨fun g n hq => h.1 g n ((hpq g n).mpr hq), fun b hb => h.2 b fun g n hp => hb g n ((hpq g n).mp hp)⟩

/-- Clearing flags leaves the state of every other pin. -/
theorem Cleared.extiState {P : GpioTypeDef → Nat → Prop} {r r' : Regs} (h : r.Cleared P r')
    {g : GpioTypeDef} {n : Nat} (hn : ¬P g n) : r'.extiState g n = r.extiState g n := by
  rw [extiState_eq, extiState_eq, h.2 _ fun g' n' hp heq => hn (by cases heq; exact hp),
    h.2 (.pin g .intEn n) fun g' n' _ heq => by cases heq]

theorem Cleared.extiState_false {P : GpioTypeDef → Nat → Prop} {r r' : Regs} (h : r.Cleared P r')
    {g : GpioTypeDef} {n : Nat} (hn : P g n) : r'.extiState g n = false := by
  rw [extiState_eq, h.1 g n hn, Bool.false_and]

/-- Clearing flags leaves the kind of every interrupt. -/
theorem Cleared.lvlTrg {P : GpioTypeDef → Nat → Prop} {r r' : Regs} (h : r.Cleared P r') (g : GpioTypeDef)
    (n : Nat) : r'.bit (.pin g .intLvlTrg n) = r.bit (.pin g .intLvlTrg n) :=
  h.2 _ fun g' n' _ heq => by cases heq

/-- No pin of the port has a pending interrupt. -/
def Quiet (r : Regs) (g : GpioTypeDef) : Prop := ∀ n < 16, r.extiState g n = false

/-- Every pending interrupt of the port is one of an edge. -/
def Edges (r : Regs) (g : GpioTypeDef) : Prop :=
  ∀ n < 16, r.extiState g n = true → r.bit (.pin g .intLvlTrg n) = false

end Regs

/-- The list of pins after a first interrupt of the port. -/
def cached (g : GpioTypeDef) : Vector Int 16 := Vector.ofFn fun i => ((g.base + i.val : Nat) : Int)

/-- Read on behind `pin_obj`, the filling loop for the port ends: it meets a record whose index is no
index of the table, and no record of the port before it. -/
def Ends (g : GpioTypeDef) : List PinRecord → Prop
  | [] => False
  | d :: rest => d.index < pinNum → d.gpio ≠ some g ∧ Ends g rest

/-- Behind `pin_obj`, with the list full, the loop ends well exactly if `Ends` says so. -/
theorem fillGpio_behind (g : GpioTypeDef) (behind : List PinRecord) (gpio : Vector Int 16) :
    (Ends g behind ∧ State.fillGpio g behind 16 gpio = .ok gpio) ∨
      (¬Ends g behind ∧ ∃ e, State.fillGpio g behind 16 gpio = .error e) := by
  induction behind with
  | nil => exact Or.inr ⟨id, .memory, rfl⟩
  | cons d rest ih =>
      rw [State.fillGpio, Ends]
      by_cases hlt : d.index < pinNum
      · by_cases hg : d.gpio = some g
        · refine Or.inr ⟨fun h => (h hlt).1 hg, .gpio 16, ?_⟩
          rw [if_pos hlt, if_pos hg]
          rfl
        · rw [if_pos hlt, if_neg hg]
          refine ih.imp (fun h => ⟨fun _ => ⟨hg, h.1⟩, h.2⟩) fun h => ⟨fun h' => h.1 (h' hlt).2, h.2⟩
      · exact Or.inl ⟨fun h => absurd h hlt, by rw [if_neg hlt]⟩

set_option maxRecDepth 20000 in
/-- Over `pin_obj` the loop fills the list with the pins of the port. -/
theorem fillGpio_pinObj (g : GpioTypeDef) (behind : List PinRecord) :
    State.fillGpio g (State.pinRecords behind) 0 State.boot.gpio =
      State.fillGpio g behind 16 (cached g) := by
  cases g <;> rfl

theorem pin2struct_cached (g : GpioTypeDef) {m : Nat} (hm : m < 16) :
    pin2struct (UInt8.ofInt ((g.base + m : Nat) : Int)) = some (swmPin (g.base + m) g m) := by
  have h : ∀ m : Fin 16, pin2struct (UInt8.ofInt ((g.base + m.val : Nat) : Int)) =
      some (swmPin (g.base + m.val) g m.val) := by
    cases g <;> decide +kernel
  exact h ⟨m, hm⟩

theorem get_cached (g : GpioTypeDef) {m : Nat} (hm : m < 16) :
    CArray.get (cached g) m = some ((g.base + m : Nat) : Int) := by
  rw [CArray.get_of_lt _ hm, cached, Vector.getElem_ofFn]

theorem base_add_lt (g : GpioTypeDef) {m : Nat} (hm : m < 16) : g.base + m < pinNum := by
  cases g <;> simp only [GpioTypeDef.base, pinNum] <;> omega

/-! ### The scan of a port -/

/-- The handler attached to pin `n` of the port, with its argument. -/
def attached (tab : Vector RtPinIrqHdr pinNum) (g : GpioTypeDef) (n : Nat) : List (Ptr × Ptr) :=
  match tab[g.base + n]? with
  | some e => if e.hdr ≠ 0 then [(e.hdr, e.args)] else []
  | none => []

namespace State

/-- The handlers attached to the first `m` pins of the port that have a pending interrupt. -/
def pendingHandlers (s : State) (g : GpioTypeDef) (m : Nat) : List (Ptr × Ptr) :=
  (List.range m).flatMap fun n => if s.regs.extiState g n then attached s.tab g n else []

theorem pendingHandlers_succ (s : State) (g : GpioTypeDef) (m : Nat) :
    s.pendingHandlers g (m + 1) =
      s.pendingHandlers g m ++ if s.regs.extiState g m then attached s.tab g m else [] := by
  simp [pendingHandlers, List.range_succ]

theorem pendingHandlers_quiet {s : State} {g : GpioTypeDef} (h : s.regs.Quiet g) :
    s.pendingHandlers g 16 = [] := by
  rw [pendingHandlers, List.flatMap_eq_nil_iff]
  intro n hn
  rw [h n (List.mem_range.mp hn)]
  rfl

/-- The second loop of `swm_pin_isr` has gone through the first `m` pins of the port. -/
structure Scanned (g : GpioTypeDef) (s : State) (m : Nat) (t : State) : Prop where
  cleared : s.regs.Cleared (fun g' n => g' = g ∧ n < m ∧ s.regs.PendingEdge g n) t.regs
  calls : t.calls = s.calls ++ s.pendingHandlers g m
  tab : t.tab = s.tab
  init : t.init = s.init
  gpio : t.gpio = s.gpio

theorem isrPin_idle {s : State} {g : GpioTypeDef} {m : Nat} (hg : s.gpio = cached g) (hm : m < 16)
    (h : s.regs.extiState g m = false) : isrPin s m = .ok s := by
  rw [isrPin, hg, get_cached g hm]
  simp only [pin2struct_cached g hm, swmPin, h]
  rfl

theorem isrPin_pending {s : State} {g : GpioTypeDef} {m : Nat} (hg : s.gpio = cached g) (hm : m < 16)
    (h : s.regs.extiState g m = true) :
    isrPin s m = .ok { s with
      regs := s.regs.extiClear g m, calls := s.calls ++ attached s.tab g m } := by
  have hlt := base_add_lt g hm
  have he : ({ s with regs := s.regs.extiClear g m } : State).entry ((g.base + m : Nat) : Int) =
      .ok s.tab[g.base + m] := by
    rw [entry, CArray.get_of_lt _ hlt]
  have hget : CArray.get s.gpio m = some ((g.base + m : Nat) : Int) := by rw [hg, get_cached g hm]
  rw [isrPin, hget]
  simp only [pin2struct_cached g hm, swmPin, h, if_true, bind, Except.bind, he]
  rw [attached, Vector.getElem?_eq_getElem hlt]
  by_cases hhdr : s.tab[g.base + m].hdr ≠ 0
  · simp only [if_pos hhdr]
    rfl
  · simp only [if_neg hhdr, List.append_nil]
    rfl

/-- One pass of the loop. -/
theorem scanned_step {s t : State} {g : GpioTypeDef} {m : Nat} (hg : s.gpio = cached g) (hm : m < 16)
    (h : Scanned g s m t) : ∃ u, isrPin t m = .ok u ∧ Scanned g s (m + 1) u := by
  have htg : t.gpio = cached g := h.gpio.trans hg
  have hstate : t.regs.extiState g m = s.regs.extiState g m :=
    h.cleared.extiState fun hm' => Nat.lt_irrefl m hm'.2.1
  cases hp : s.regs.extiState g m with
  | false =>
      refine ⟨t, isrPin_idle htg hm (hstate.trans hp), h.cleared.congr fun g' n => ?_, ?_, h.tab, h.init,
        h.gpio⟩
      · constructor
        · exact fun ⟨hg', hn, hs⟩ => ⟨hg', Nat.lt_succ_of_lt hn, hs⟩
        · rintro ⟨hg', hn, hs⟩
          refine ⟨hg', Nat.lt_of_le_of_ne (Nat.lt_succ_iff.mp hn) fun heq => ?_, hs⟩
          rw [heq, Regs.PendingEdge, hp] at hs
          cases hs.1
      · rw [h.calls, pendingHandlers_succ, hp]
        simp
  | true =>
      refine ⟨_, isrPin_pending htg hm (hstate.trans hp), ?_, ?_, h.tab, h.init, h.gpio⟩
      · refine (h.cleared.trans (Regs.cleared_extiClear t.regs g m)).congr fun g' n => ?_
        have hkind := h.cleared.lvlTrg g m
        constructor
        · rintro (⟨hg', hn, hs⟩ | ⟨hg', rfl, hedge⟩)
          · exact ⟨hg', Nat.lt_succ_of_lt hn, hs⟩
          · exact ⟨hg', Nat.lt_succ_self n, hp, hkind.symm.trans hedge⟩
        · rintro ⟨hg', hn, hs⟩
          rcases Nat.lt_succ_iff_lt_or_eq.mp hn with hn | rfl
          · exact Or.inl ⟨hg', hn, hs⟩
          · exact Or.inr ⟨hg', rfl, hkind.trans hs.2⟩
      · simp only [h.calls, h.tab]
        rw [pendingHandlers_succ, hp, List.append_assoc]
        rfl

theorem scan_port {s : State} {g : GpioTypeDef} (hg : s.gpio = cached g) :
    ∃ t, Run.run isrPin s (List.range 16) = .ok t ∧ Scanned g s 16 t := by
  refine Run.run_range (fun m hm t h => scanned_step hg hm h) ⟨?_, ?_, rfl, rfl, rfl⟩
  · exact Regs.cleared_refl (fun _ n h => Nat.not_lt_zero n h.2.1) s.regs
  · simp [pendingHandlers]

end State

/-! ### Interrupts -/

/-- The interrupt of the port has been served: exactly its pending flags are cleared, exactly the
handlers attached to those pins are called, once each, and nothing is pending. -/
structure Served (g : GpioTypeDef) (s t : State) : Prop where
  cleared : s.regs.Cleared (fun g' n => g' = g ∧ n < 16 ∧ s.regs.extiState g n = true) t.regs
  calls : ∃ called, t.calls = s.calls ++ called ∧ called.Perm (s.pendingHandlers g 16)
  tab : t.tab = s.tab
  quiet : t.regs.Quiet g

/-- A scan of the port serves its interrupt unless a level is pending, whose flag stays. -/
theorem State.Scanned.served_iff {g : GpioTypeDef} {s t : State} (h : State.Scanned g s 16 t) :
    Served g s t ↔ s.regs.Edges g := by
  constructor
  · intro hserved n hn hp
    by_contra hlevel
    have hkept := h.cleared.extiState (g := g) (n := n) fun hc => hlevel hc.2.2.2
    rw [hp, hserved.quiet n hn] at hkept
    cases hkept
  · intro hedges
    refine ⟨h.cleared.congr fun g' n => ?_, ⟨_, h.calls, List.Perm.refl _⟩, h.tab, fun n hn => ?_⟩
    · exact ⟨fun ⟨hg, hn, hp⟩ => ⟨hg, hn, hp.1⟩, fun ⟨hg, hn, hp⟩ => ⟨hg, hn, hp, hedges n hn hp⟩⟩
    · cases hp : s.regs.extiState g n with
      | true => exact h.cleared.extiState_false ⟨rfl, hn, hp, hedges n hn hp⟩
      | false =>
          rw [h.cleared.extiState, hp]
          rintro ⟨_, _, hs, _⟩
          rw [hp] at hs
          cases hs

/-- What is pending at the port are levels without a handler, if anything: a scan has no effect. -/
def Idle (g : GpioTypeDef) (regs : Regs) (tab : Vector RtPinIrqHdr pinNum) : Prop :=
  ∀ n < 16, regs.extiState g n = true → regs.bit (.pin g .intLvlTrg n) = true ∧ attached tab g n = []

theorem Idle.pendingHandlers {g : GpioTypeDef} {s : State} (h : Idle g s.regs s.tab) :
    s.pendingHandlers g 16 = [] := by
  rw [State.pendingHandlers, List.flatMap_eq_nil_iff]
  intro n hn
  split
  · exact (h n (List.mem_range.mp hn) ‹_›).2
  · rfl

/-- A scan of one port serves the interrupt of another only if it has no effect and nothing is pending at the
other. -/
theorem State.Scanned.served_other_iff {g g' : GpioTypeDef} {s t : State} (h : State.Scanned g s 16 t)
    (hne : g' ≠ g) : Served g' s t ↔ Idle g s.regs s.tab ∧ s.regs.Quiet g' := by
  have hkept : ∀ n, t.regs.extiState g' n = s.regs.extiState g' n := fun n =>
    h.cleared.extiState fun hg => hne hg.1
  constructor
  · intro hserved
    have hquiet : s.regs.Quiet g' := fun n hn => (hkept n).symm.trans (hserved.quiet n hn)
    refine ⟨fun n hn hp => ⟨?_, ?_⟩, hquiet⟩
    · -- the flag of an edge would be cleared without being a flag of `g'`
      by_contra hlevel
      have hstays := hserved.cleared.extiState (g := g) (n := n) fun hg => hne hg.1.symm
      rw [hp, h.cleared.extiState_false ⟨rfl, hn, hp, by simpa using hlevel⟩] at hstays
      cases hstays
    · obtain ⟨called, hcalls, hperm⟩ := hserved.calls
      rw [State.pendingHandlers_quiet hquiet, List.perm_nil] at hperm
      rw [hperm, h.calls, List.append_right_inj, State.pendingHandlers, List.flatMap_eq_nil_iff] at hcalls
      have hnone := hcalls n (List.mem_range.mpr hn)
      rwa [if_pos hp] at hnone
  · rintro ⟨hidle, hquiet⟩
    refine ⟨h.cleared.congr fun g'' n => iff_of_false ?_ ?_, ⟨[], ?_, ?_⟩, h.tab, fun n hn => ?_⟩
    · rintro ⟨_, hn, hp, hedge⟩
      exact Bool.false_ne_true (hedge.symm.trans (hidle n hn hp).1)
    · rintro ⟨_, hn, hp⟩
      exact Bool.false_ne_true ((hquiet n hn).symm.trans hp)
    · rw [h.calls, hidle.pendingHandlers]
    · rw [State.pendingHandlers_quiet hquiet]
    · rw [hkept, hquiet n hn]

/-- An interrupt of a port: the registers as the hardware and the program have left them, with the
flags pending, and the handlers attached by then. -/
structure Interrupt where
  port : GpioTypeDef
  regs : Regs
  tab : Vector RtPinIrqHdr pinNum

def State.raise (s : State) (ev : Interrupt) : State := { s with regs := ev.regs, tab := ev.tab }

/-- `GPIOA_Handler` and the others. -/
def gpioHandler (behind : List PinRecord) (s : State) (ev : Interrupt) : Except Fault State :=
  (s.raise ev).swmPinIsr behind ev.port

/-- The handler returns and has served the interrupt. -/
def IsrOk (behind : List PinRecord) (s : State) (ev : Interrupt) : Prop :=
  ∃ t, gpioHandler behind s ev = .ok t ∧ Served ev.port (s.raise ev) t

theorem isrOk_iff {behind : List PinRecord} {s t : State} {ev : Interrupt}
    (h : gpioHandler behind s ev = .ok t) : IsrOk behind s ev ↔ Served ev.port (s.raise ev) t := by
  refine ⟨?_, fun hserved => ⟨t, h, hserved⟩⟩
  rintro ⟨u, hu, hserved⟩
  rw [h] at hu
  cases hu
  exact hserved

/-- The list of pins has been filled for port `g`. -/
def State.Filled (g : GpioTypeDef) (s : State) : Prop := s.init = true ∧ s.gpio = cached g

theorem gpioHandler_filled {g : GpioTypeDef} {s : State} (h : s.Filled g) (behind : List PinRecord)
    (ev : Interrupt) :
    ∃ t, gpioHandler behind s ev = .ok t ∧ State.Scanned g (s.raise ev) 16 t := by
  obtain ⟨t, ht, hscan⟩ := State.scan_port (s := s.raise ev) h.2
  refine ⟨t, ?_, hscan⟩
  have hinit : (s.raise ev).init = true := h.1
  rw [gpioHandler, State.swmPinIsr, hinit]
  exact ht

theorem State.Scanned.filled {g : GpioTypeDef} {s t : State} (h : State.Scanned g s 16 t)
    (hs : s.Filled g) : t.Filled g :=
  ⟨h.init.trans hs.1, h.gpio.trans hs.2⟩

/-- `swm_pin_isr` while the list of pins is not filled. -/
theorem swmPinIsr_unfilled {s : State} (h : s.init = false) (behind : List PinRecord)
    (g : GpioTypeDef) :
    s.swmPinIsr behind g =
      match State.fillGpio g (State.pinRecords behind) 0 s.gpio with
      | .ok gpio => Run.run State.isrPin { s with init := true, gpio := gpio } (List.range 16)
      | .error e => .error e := by
  rw [State.swmPinIsr, h]
  cases State.fillGpio g (State.pinRecords behind) 0 s.gpio <;> rfl

/-- The first interrupt. -/
theorem isrOk_first {s : State} (hinit : s.init = false) (hgpio : s.gpio = State.boot.gpio)
    (behind : List PinRecord) (ev : Interrupt) :
    (IsrOk behind s ev ↔ Ends ev.port behind ∧ ev.regs.Edges ev.port) ∧
      ∀ t, gpioHandler behind s ev = .ok t → t.Filled ev.port := by
  have hisr := swmPinIsr_unfilled (s := s.raise ev) hinit behind ev.port
  have hfill : State.fillGpio ev.port (State.pinRecords behind) 0 (s.raise ev).gpio = _ :=
    (congrArg _ hgpio).trans (fillGpio_pinObj ev.port behind)
  rw [hfill] at hisr
  rcases fillGpio_behind ev.port behind (cached ev.port) with ⟨hends, hok⟩ | ⟨hends, e, herr⟩
  · obtain ⟨t, ht, hscan⟩ := State.scan_port (g := ev.port)
      (s := { s.raise ev with init := true, gpio := cached ev.port }) rfl
    rw [hok] at hisr
    have hrun : gpioHandler behind s ev = .ok t := hisr.trans ht
    have hserved : Served ev.port (s.raise ev) t ↔ ev.regs.Edges ev.port := by
      refine Iff.trans ⟨fun h => ?_, fun h => ?_⟩ hscan.served_iff
      · exact ⟨h.cleared, h.calls, h.tab, h.quiet⟩
      · exact ⟨h.cleared, h.calls, h.tab, h.quiet⟩
    refine ⟨(isrOk_iff hrun).trans (hserved.trans (and_iff_right hends).symm), fun u hu => ?_⟩
    rw [hrun] at hu
    cases hu
    exact ⟨hscan.init, hscan.gpio⟩
  · rw [herr] at hisr
    have hrun : gpioHandler behind s ev = .error e := hisr
    refine ⟨iff_of_false ?_ fun h => hends h.1, fun u hu => ?_⟩
    · rintro ⟨t, ht, _⟩
      rw [hrun] at ht
      cases ht
    · rw [hrun] at hu
      cases hu

theorem isrOk_boot (behind : List PinRecord) (ev : Interrupt) :
    (IsrOk behind .boot ev ↔ Ends ev.port behind ∧ ev.regs.Edges ev.port) ∧
      ∀ t, gpioHandler behind .boot ev = .ok t → t.Filled ev.port :=
  isrOk_first rfl rfl behind ev

/-- The list holds the pins of port `g`, and the interrupt can be served with it. It is one of `g` with no
level pending, or nothing is pending at its own port and a scan of `g` has no effect. -/
def Serviceable (g : GpioTypeDef) (ev : Interrupt) : Prop :=
  if ev.port = g then ev.regs.Edges g else Idle g ev.regs ev.tab ∧ ev.regs.Quiet ev.port

/-- The exact condition: reading on behind `pin_obj` ends, and every interrupt can be served with the pins of
the port of the first. -/
def Dispatchable (behind : List PinRecord) : List Interrupt → Prop
  | [] => True
  | first :: rest => (Ends first.port behind ∧ first.regs.Edges first.port) ∧
      ∀ ev ∈ rest, Serviceable first.port ev

/-- **Dispatch.** From the reset on, every interrupt is served if and only if the sequence of
interrupts is dispatchable. -/
theorem isr_exact (behind : List PinRecord) (w : List Interrupt) :
    (∀ v ev t, v ++ [ev] <+: w → Run.run (gpioHandler behind) State.boot v = .ok t →
      IsrOk behind t ev) ↔ Dispatchable behind w := by
  rw [← Run.allSteps_iff_prefix]
  cases w with
  | nil => exact Iff.rfl
  | cons first rest =>
      obtain ⟨hfirst, hfilled⟩ := isrOk_boot behind first
      refine and_congr_left' hfirst |>.trans (and_congr_right fun hends => ?_)
      obtain ⟨t, ht, _⟩ := hfirst.mpr hends
      rw [ht]
      refine Run.allSteps_iff_forall (I := State.Filled first.port) ?_ ?_ (hfilled t ht)
      · intro s ev hs
        obtain ⟨u, hu, hscan⟩ := gpioHandler_filled hs behind ev
        rw [isrOk_iff hu, Serviceable]
        by_cases hport : ev.port = first.port
        · rw [if_pos hport, hport]
          exact hscan.served_iff
        · rw [if_neg hport]
          exact hscan.served_other_iff hport
      · intro s ev hs _
        obtain ⟨u, hu, hscan⟩ := gpioHandler_filled hs behind ev
        exact ⟨u, hu, hscan.filled hs⟩

/-- An interrupt of the port with pin 0 pending and a handler attached to it. -/
def pinZeroPending (g : GpioTypeDef) : Interrupt where
  port := g
  regs := ((State.boot.regs.set g .intEn 0).set g .intRawStat 0)
  tab := State.boot.tab.setIfInBounds g.base ⟨g.base, 0, 1, 2⟩

/-- After an interrupt of `GPIOA`, one of `GPIOB` leaves its flag and calls no handler. -/
theorem gpioB_not_served :
    ∃ t u, gpioHandler [⟨pinNum, none⟩] .boot (pinZeroPending .gpioA) = .ok t ∧
      gpioHandler [⟨pinNum, none⟩] t (pinZeroPending .gpioB) = .ok u ∧
      attached (pinZeroPending .gpioB).tab .gpioB 0 = [(1, 2)] ∧
      (t.raise (pinZeroPending .gpioB)).regs.extiState .gpioB 0 = true ∧
      u.regs.extiState .gpioB 0 = true ∧ u.calls = t.calls ∧
      ¬Served .gpioB (t.raise (pinZeroPending .gpioB)) u := by
  obtain ⟨hok, hfilled⟩ := isrOk_boot [⟨pinNum, none⟩] (pinZeroPending .gpioA)
  have hedges : (pinZeroPending .gpioA).regs.Edges .gpioA := by
    intro n _ _
    simp [pinZeroPending, Regs.bit, Regs.set, Regs.modReg, State.boot]
  obtain ⟨t, ht, _⟩ := hok.mpr ⟨fun h => absurd h (Nat.lt_irrefl pinNum), hedges⟩
  obtain ⟨u, hu, hscan⟩ := gpioHandler_filled (hfilled t ht) [⟨pinNum, none⟩] (pinZeroPending .gpioB)
  have hpending : (pinZeroPending .gpioB).regs.extiState .gpioB 0 = true := by decide
  have hquiet : (pinZeroPending .gpioB).regs.Quiet .gpioA := by
    intro n _
    rw [Regs.extiState_eq]
    simp [pinZeroPending, Regs.bit, Regs.set, Regs.modReg, State.boot]
  have hattached : attached (pinZeroPending .gpioB).tab .gpioB 0 = [(1, 2)] := by decide
  have hleft : u.regs.extiState .gpioB 0 = true := by
    rw [hscan.cleared.extiState fun h => GpioTypeDef.noConfusion h.1]
    exact hpending
  have hcalls : u.calls = t.calls := by
    have hnone := State.pendingHandlers_quiet (s := t.raise (pinZeroPending .gpioB)) hquiet
    calc u.calls = (t.raise (pinZeroPending .gpioB)).calls ++ _ := hscan.calls
      _ = t.calls ++ [] := congrArg (t.calls ++ ·) hnone
      _ = t.calls := List.append_nil _
  refine ⟨t, u, ht, hu, hattached, hpending, hleft, hcalls, fun hserved => ?_⟩
  exact Bool.false_ne_true ((hserved.quiet 0 (Nat.succ_pos 15)).symm.trans hleft)

end SwmLvgl.Gpio
