import SwmLvgl.GpioPins
import SwmLvgl.I2cTransfer

/-! The lines of the bus at two pins of the controller (`swm_i2c_set_sda` and its siblings of
`drv_soft_i2c.c` over the pin driver). A pin pulls its line down as an output whose data bit is zero; the
pull-up of the bus outweighs the pull-down of the pin. To read a line the driver makes the pin an input, and
an open-drain output again before it writes. This leaves the line alone, because the data bit is one whenever
the line is read. The device sees the levels after each call of the pin driver. -/

namespace SwmLvgl.I2c

open Prog Gpio

theorem pinObj_length : pinObj.length = pinNum := by decide

/-- The entry of `pin_obj` for a pin. -/
def pinAt (n : Nat) (h : n < pinNum) : SwmPinDevice := pinObj.get ⟨n, pinObj_length ▸ h⟩

/-- The index of the first pin of a port. -/
def portBase : GpioTypeDef → Nat
  | .gpioA => 0
  | .gpioB => 16
  | .gpioC => 32
  | .gpioD => 48
  | .gpioE => 64
  | .gpioM => 80
  | .gpioN => 96

theorem pinAt_eq {n : Nat} (h : n < pinNum) :
    n = portBase (pinAt n h).gpio + (pinAt n h).pin ∧ (pinAt n h).pin < 16 := by
  have hall : ∀ i : Fin pinNum, i.val = portBase (pinAt i.val i.isLt).gpio + (pinAt i.val i.isLt).pin ∧
      (pinAt i.val i.isLt).pin < 16 := by decide +kernel
  exact hall ⟨n, h⟩

/-- Different pins have different bits. -/
theorem pinAt_apart {m n : Nat} (hm : m < pinNum) (hn : n < pinNum) (hne : m ≠ n) :
    ¬((pinAt m hm).gpio = (pinAt n hn).gpio ∧ (pinAt m hm).pin = (pinAt n hn).pin) := by
  rintro ⟨hgpio, hpin⟩
  apply hne
  rw [(pinAt_eq hm).1, (pinAt_eq hn).1, hgpio, hpin]

/-- `struct swm_soft_i2c_cfg`, with two different pins of the table. -/
structure SwmSoftI2cCfg where
  scl : UInt8
  sda : UInt8
  scl_lt : scl.toNat < pinNum
  sda_lt : sda.toNat < pinNum
  apart : scl ≠ sda

namespace SwmSoftI2cCfg

variable (cfg : SwmSoftI2cCfg)

def sclPin : SwmPinDevice := pinAt cfg.scl.toNat cfg.scl_lt

def sdaPin : SwmPinDevice := pinAt cfg.sda.toNat cfg.sda_lt

end SwmSoftI2cCfg

/-- The bit of a pin in a register. -/
def pinBit (regs : Regs) (d : SwmPinDevice) (k : PinReg) : Bool := regs.bit (.pin d.gpio k d.pin)

/-- The pin leaves its line alone. -/
def lets (regs : Regs) (d : SwmPinDevice) : Bool := !(pinBit regs d .dir && !pinBit regs d .odr)

/-- The input bit of the pin follows the level of its line. -/
def sample (d : SwmPinDevice) (level : Bool) (regs : Regs) : Regs :=
  { regs.put d.gpio .idr d.pin level with writes := regs.writes }

/-- The registers of the pins, the device at the lines, and the number of delays so far. -/
structure Pins (δ : Type) where
  gpio : Gpio.State
  dev : δ
  delays : Nat

namespace Pins

variable {δ : Type} (cfg : SwmSoftI2cCfg) (D : LineDevice δ)

def levels (p : Pins δ) : Levels :=
  ⟨lets p.gpio.regs cfg.sclPin && !D.holdsScl p.dev, lets p.gpio.regs cfg.sdaPin && !D.pullsSda p.dev⟩

/-- The device sees what a call of the pin driver has made of the levels. -/
def update (gpio : Gpio.State) (p : Pins δ) : Pins δ :=
  let p' : Pins δ := { p with gpio := gpio }
  { p' with dev := D.change (p.levels cfg D) (p'.levels cfg D) p.dev }

/-- `rt_pin_mode` -/
def rtPinMode (pin : UInt8) (mode : UInt8) : Prog (Pins δ) Unit :=
  fun p => some ((), p.update cfg D (p.gpio.swmPinMode pin.toNat mode).2)

/-- `rt_pin_write` -/
def rtPinWrite (pin : UInt8) (value : UInt8) : Prog (Pins δ) Unit :=
  fun p => some ((), p.update cfg D (p.gpio.swmPinWrite pin.toNat value).2)

/-- The registers, with the input bits of both pins as the lines are. -/
def sampled (p : Pins δ) : Gpio.State :=
  let l := p.levels cfg D
  { p.gpio with regs := sample cfg.sdaPin l.sda (sample cfg.sclPin l.scl p.gpio.regs) }

/-- `rt_pin_read`, as a truth value. -/
def rtPinRead (pin : UInt8) : Prog (Pins δ) Bool := fun p =>
  let (ret, gpio) := (p.sampled cfg D).swmPinRead pin.toNat
  some (ret ≠ .level 0, { p with gpio := gpio })

/-- A delay passes. -/
def pass (p : Pins δ) : Pins δ :=
  let p' : Pins δ := { p with dev := D.wait p.dev, delays := p.delays + 1 }
  { p' with dev := D.change (p.levels cfg D) (p'.levels cfg D) p'.dev }

end Pins

section Driver

variable {δ : Type} (cfg : SwmSoftI2cCfg) (D : LineDevice δ)

/-- `PIN_MODE_OUTPUT_OD` -/
def pinModeOutputOd : UInt8 := 4

/-- `PIN_MODE_INPUT_PULLDOWN` -/
def pinModeInputPulldown : UInt8 := 3

/-- `swm_i2c_gpio_init` -/
def swmI2cGpioInit : Prog (Pins δ) Unit := do
  Pins.rtPinMode cfg D cfg.scl pinModeOutputOd
  Pins.rtPinMode cfg D cfg.sda pinModeOutputOd
  Pins.rtPinWrite cfg D cfg.scl 1
  Pins.rtPinWrite cfg D cfg.sda 1

/-- `swm_i2c_set_sda` -/
def swmI2cSetSda (state : Bool) : Prog (Pins δ) Unit := do
  Pins.rtPinMode cfg D cfg.sda pinModeOutputOd
  if state then Pins.rtPinWrite cfg D cfg.sda 1
  else Pins.rtPinWrite cfg D cfg.sda 0

/-- `swm_i2c_set_scl` -/
def swmI2cSetScl (state : Bool) : Prog (Pins δ) Unit := do
  Pins.rtPinMode cfg D cfg.scl pinModeOutputOd
  if state then Pins.rtPinWrite cfg D cfg.scl 1
  else Pins.rtPinWrite cfg D cfg.scl 0

/-- `swm_i2c_get_sda` -/
def swmI2cGetSda : Prog (Pins δ) Bool := do
  Pins.rtPinMode cfg D cfg.sda pinModeInputPulldown
  Pins.rtPinRead cfg D cfg.sda

/-- `swm_i2c_get_scl` -/
def swmI2cGetScl : Prog (Pins δ) Bool := do
  Pins.rtPinMode cfg D cfg.scl pinModeInputPulldown
  Pins.rtPinRead cfg D cfg.scl

/-- The timing of `swm_i2c_bit_ops`, for the tick counter of the kernel and the fuel of a wait. -/
def swmTiming (tick : Nat → UInt32) (polls : Nat) : Timing := ⟨1, 100, tick, polls⟩

/-- `swm_i2c_bit_ops` -/
def swmI2cBitOps (tick : Nat → UInt32) (polls : Nat) : RtI2cBitOps (Pins δ) where
  setSda := swmI2cSetSda cfg D
  setScl := swmI2cSetScl cfg D
  getSda := swmI2cGetSda cfg D
  getScl := swmI2cGetScl cfg D
  udelay _ := fun p => some ((), p.pass cfg D)
  delayUs := 1
  timeout := 100
  rtTickGet := fun p => some (tick p.delays, p)
  polls := polls

end Driver

theorem bit_put {g : GpioTypeDef} {n : Nat} (hn : n < 32) (r : Regs) (k k' : PinReg) (on : Bool) :
    (r.put g k n on).bit (.pin g k' n) = if k' = k then on else r.bit (.pin g k' n) := by
  by_cases hk : k' = k
  · subst hk
    rw [if_pos rfl]
    cases on with
    | false =>
        simp only [Regs.put, Regs.clr, Regs.modReg, Regs.bit, Function.update_self, Bool.false_eq_true, if_false]
        exact RegBits.getLsbD_clrBit_self _ _
    | true =>
        simp only [Regs.put, Regs.set, Regs.modReg, Regs.bit, Function.update_self, if_true]
        exact RegBits.getLsbD_setBit_self _ hn
  · rw [if_neg hk]
    cases on <;> simp [Regs.put, Regs.set, Regs.clr, Regs.modReg, Regs.bit, hk]

theorem bit_portInit {g : GpioTypeDef} {n : Nat} (hn : n < 32) (r : Regs) {k : PinReg} (hk : k ≠ .inEn) :
    (r.portInit g n).bit (.pin g k n) = r.bit (.pin g k n) := by
  rw [Regs.portInit]
  split
  · exact (bit_put hn _ .inEn k true).trans (if_neg hk)
  · exact (bit_put hn _ .inEn k true).trans (if_neg hk)

/-- `GPIO_Init` sets the direction and the open drain of its pin and leaves the data bit. -/
theorem bit_gpioInit {g : GpioTypeDef} {n : Nat} (hn : n < 32) (r : Regs)
    (dir pullUp pullDown openDrain : Bool) :
    let r' := r.gpioInit g n dir pullUp pullDown openDrain
    r'.bit (.pin g .dir n) = dir ∧ r'.bit (.pin g .openD n) = openDrain ∧
      r'.bit (.pin g .odr n) = r.bit (.pin g .odr n) := by
  have hport : ((r.clkEnable g n).portInit g n).bit (.pin g .odr n) = r.bit (.pin g .odr n) :=
    bit_portInit hn (r.clkEnable g n) (by decide)
  simp only [Regs.gpioInit, bit_put hn, hport]
  exact ⟨rfl, rfl, rfl⟩

/-- How a pin is set so that it pulls its line or not: its data bit says so, and it is an open-drain
output, or an input that leaves the line alone. -/
structure Drives (regs : Regs) (d : SwmPinDevice) (free : Bool) : Prop where
  data : pinBit regs d .odr = free
  openDrain : pinBit regs d .dir = true → pinBit regs d .openD = true
  output : free = false → pinBit regs d .dir = true

theorem Drives.lets {regs : Regs} {d : SwmPinDevice} {free : Bool} (h : Drives regs d free) :
    lets regs d = free := by
  obtain ⟨hdata, -, houtput⟩ := h
  rw [I2c.lets, hdata]
  cases free with
  | false => rw [houtput rfl]; rfl
  | true => simp

theorem pinBit_frame {regs regs' : Regs} {d e : SwmPinDevice} (honly : Regs.OnlyPin d.gpio d.pin regs regs')
    (hne : ¬(e.gpio = d.gpio ∧ e.pin = d.pin)) (k : PinReg) : pinBit regs' e k = pinBit regs e k :=
  honly.bits (.pin e.gpio k e.pin) hne

/-- Another pin is set as before. -/
theorem Drives.frame {regs regs' : Regs} {d e : SwmPinDevice} {free : Bool} (h : Drives regs e free)
    (honly : Regs.OnlyPin d.gpio d.pin regs regs') (hne : ¬(e.gpio = d.gpio ∧ e.pin = d.pin)) :
    Drives regs' e free := by
  have hbit := pinBit_frame honly hne
  obtain ⟨hdata, hopen, houtput⟩ := h
  refine ⟨(hbit _).trans hdata, ?_, ?_⟩
  · rw [hbit, hbit]
    exact hopen
  · rw [hbit]
    exact houtput

section Calls

variable {s : Gpio.State} {n : Nat}

theorem pinObj_pinAt (hn : n < pinNum) : pinObj[n]? = some (pinAt n hn) :=
  List.getElem?_eq_getElem (pinObj_length ▸ hn)

theorem pin2struct_pinAt (hn : n < pinNum) : pin2struct (UInt8.ofInt n) = some (pinAt n hn) := by
  obtain ⟨d, hd, hget, -⟩ := @pin2struct_valid n ⟨Int.natCast_nonneg n, Int.ofNat_lt.mpr hn⟩
  rw [Int.toNat_natCast, pinObj_pinAt hn] at hget
  rw [hd, hget]

theorem pinAt_lt (hn : n < pinNum) : (pinAt n hn).pin < 32 := Nat.lt_trans (pinAt_eq hn).2 (by decide)

/-- The mode of an open-drain output. -/
theorem outputOd_drives (hn : n < pinNum) {free : Bool} (h : pinBit s.regs (pinAt n hn) .odr = free) :
    Drives (s.swmPinMode n pinModeOutputOd).2.regs (pinAt n hn) free ∧
      pinBit (s.swmPinMode n pinModeOutputOd).2.regs (pinAt n hn) .dir = true := by
  obtain ⟨hdir, hopen, hodr⟩ := bit_gpioInit (g := (pinAt n hn).gpio) (pinAt_lt hn) s.regs true false false true
  rw [State.swmPinMode, pin2struct_pinAt hn]
  exact ⟨⟨hodr.trans h, fun _ => hopen, fun _ => hdir⟩, hdir⟩

/-- The mode of an input. -/
theorem inputPulldown_drives (hn : n < pinNum) (h : Drives s.regs (pinAt n hn) true) :
    Drives (s.swmPinMode n pinModeInputPulldown).2.regs (pinAt n hn) true := by
  obtain ⟨hdir, -, hodr⟩ := bit_gpioInit (g := (pinAt n hn).gpio) (pinAt_lt hn) s.regs false false true false
  rw [State.swmPinMode, pin2struct_pinAt hn]
  refine ⟨hodr.trans h.data, fun hout => ?_, fun hfree => by cases hfree⟩
  exact absurd (hdir.symm.trans hout) Bool.false_ne_true

/-- A write to an output. -/
theorem write_drives (hn : n < pinNum) (hopen : pinBit s.regs (pinAt n hn) .openD = true)
    (hdir : pinBit s.regs (pinAt n hn) .dir = true) (v : Bool) :
    Drives (s.swmPinWrite n (if v then 1 else 0)).2.regs (pinAt n hn) v := by
  have hput : (s.swmPinWrite n (if v then 1 else 0)).2.regs =
      s.regs.put (pinAt n hn).gpio .odr (pinAt n hn).pin v := by
    rw [State.swmPinWrite, pin2struct_pinAt hn]
    cases v <;> rfl
  rw [hput]
  have hbit := bit_put (g := (pinAt n hn).gpio) (pinAt_lt hn) s.regs .odr
  exact ⟨(hbit .odr v).trans (if_pos rfl), fun _ => (hbit .openD v).trans hopen,
    fun _ => (hbit .dir v).trans hdir⟩

theorem mode_onlyPin (hn : n < pinNum) (mode : UInt8) :
    Regs.OnlyPin (pinAt n hn).gpio (pinAt n hn).pin s.regs (s.swmPinMode n mode).2.regs := by
  rw [State.swmPinMode, pin2struct_pinAt hn]
  exact Regs.onlyPin_gpioInit _ _ _ _ _

theorem write_onlyPin (hn : n < pinNum) (value : UInt8) :
    Regs.OnlyPin (pinAt n hn).gpio (pinAt n hn).pin s.regs (s.swmPinWrite n value).2.regs := by
  rw [State.swmPinWrite, pin2struct_pinAt hn]
  dsimp only
  split
  · exact Regs.onlyPin_set _ _
  · exact Regs.onlyPin_clr _ _

end Calls

/-! ### The pins as the lines of the bus -/

/-- The pins leave the lines as the master of `b` does. -/
structure PinRel {δ : Type} (cfg : SwmSoftI2cCfg) (p : Pins δ) (b : Bus δ) : Prop where
  scl : Drives p.gpio.regs cfg.sclPin b.scl
  sda : Drives p.gpio.regs cfg.sdaPin b.sda
  dev : p.dev = b.dev
  delays : p.delays = b.delays

section Refine

variable {δ : Type} {cfg : SwmSoftI2cCfg} {D : LineDevice δ} {p : Pins δ} {b : Bus δ}

theorem PinRel.levels (h : PinRel cfg p b) (D : LineDevice δ) : p.levels cfg D = b.levels D := by
  rw [Pins.levels, Bus.levels, h.scl.lets, h.sda.lets, h.dev]

theorem PinRel.update (h : PinRel cfg p b) (D : LineDevice δ) {gpio : Gpio.State} {c d : Bool}
    (hscl : Drives gpio.regs cfg.sclPin c) (hsda : Drives gpio.regs cfg.sdaPin d) :
    PinRel cfg (p.update cfg D gpio) (b.drive D c d) := by
  refine ⟨hscl, hsda, ?_, h.delays⟩
  rw [Pins.update, Bus.drive, Bus.settle]
  dsimp only
  rw [h.levels D, Pins.levels, hscl.lets, hsda.lets, h.dev]
  rfl

/-- The device makes nothing of levels that do not change. -/
def LineDevice.Quiet (D : LineDevice δ) : Prop := ∀ l s, D.change l l s = s

theorem Bus.drive_self (hD : D.Quiet) (b : Bus δ) : b.drive D b.scl b.sda = b := by
  rw [Bus.drive, Bus.settle, hD]

/-- A change of a pin that leaves the lines alone. -/
theorem PinRel.same (h : PinRel cfg p b) (hD : D.Quiet) {gpio : Gpio.State}
    (hscl : Drives gpio.regs cfg.sclPin b.scl) (hsda : Drives gpio.regs cfg.sdaPin b.sda) :
    PinRel cfg (p.update cfg D gpio) b := by
  have hrel := h.update D hscl hsda
  rwa [Bus.drive_self hD] at hrel

theorem scl_ne_sda (cfg : SwmSoftI2cCfg) :
    ¬(cfg.sclPin.gpio = cfg.sdaPin.gpio ∧ cfg.sclPin.pin = cfg.sdaPin.pin) :=
  pinAt_apart cfg.scl_lt cfg.sda_lt fun heq => cfg.apart (UInt8.toNat_inj.mp heq)

theorem sda_ne_scl (cfg : SwmSoftI2cCfg) :
    ¬(cfg.sdaPin.gpio = cfg.sclPin.gpio ∧ cfg.sdaPin.pin = cfg.sclPin.pin) :=
  fun h => scl_ne_sda cfg ⟨h.1.symm, h.2.symm⟩

/-- `swm_i2c_set_sda` drives the data line. -/
theorem swmI2cSetSda_follows (hD : D.Quiet) (T : Timing) (v : Bool) :
    Sim (PinRel cfg) (swmI2cSetSda cfg D v) ((busOps D T).setSda v) := by
  rintro p b h a b' hrun
  cases hrun
  obtain ⟨hsda, hdir⟩ := outputOd_drives cfg.sda_lt h.sda.data
  have hscl := h.scl.frame (mode_onlyPin cfg.sda_lt pinModeOutputOd) (scl_ne_sda cfg)
  -- a pin that was an input lets go of the line as an output too, so the device sees the write only
  have hmode := h.same hD hscl hsda
  have hwrite := write_drives cfg.sda_lt (hsda.openDrain hdir) hdir v
  have hrel := hmode.update D (hscl.frame (write_onlyPin cfg.sda_lt (if v then 1 else 0)) (scl_ne_sda cfg)) hwrite
  refine ⟨_, ?_, hrel⟩
  cases v <;> rfl

/-- `swm_i2c_set_scl` drives the clock line. -/
theorem swmI2cSetScl_follows (hD : D.Quiet) (T : Timing) (v : Bool) :
    Sim (PinRel cfg) (swmI2cSetScl cfg D v) ((busOps D T).setScl v) := by
  rintro p b h a b' hrun
  cases hrun
  obtain ⟨hscl, hdir⟩ := outputOd_drives cfg.scl_lt h.scl.data
  have hsda := h.sda.frame (mode_onlyPin cfg.scl_lt pinModeOutputOd) (sda_ne_scl cfg)
  have hmode := h.same hD hscl hsda
  have hwrite := write_drives cfg.scl_lt (hscl.openDrain hdir) hdir v
  have hrel := hmode.update D hwrite (hsda.frame (write_onlyPin cfg.scl_lt (if v then 1 else 0)) (sda_ne_scl cfg))
  refine ⟨_, ?_, hrel⟩
  cases v <;> rfl

theorem pinBit_sample {d e : SwmPinDevice} (level : Bool) (regs : Regs) {k : PinReg} (hk : k ≠ .idr) :
    pinBit (sample d level regs) e k = pinBit regs e k := by
  by_cases hg : e.gpio = d.gpio
  · cases level <;>
      simp [sample, pinBit, Regs.bit, Regs.put, Regs.set, Regs.clr, Regs.modReg, hg, hk]
  · cases level <;>
      simp [sample, pinBit, Regs.bit, Regs.put, Regs.set, Regs.clr, Regs.modReg, hg]

theorem Drives.sample {regs : Regs} {d e : SwmPinDevice} {free : Bool} (h : Drives regs e free) (level : Bool) :
    Drives (sample d level regs) e free := by
  obtain ⟨hdata, hopen, houtput⟩ := h
  refine ⟨(pinBit_sample level regs (by decide)).trans hdata, ?_, ?_⟩
  · rw [pinBit_sample level regs (by decide), pinBit_sample level regs (by decide)]
    exact hopen
  · rw [pinBit_sample level regs (by decide)]
    exact houtput

theorem idr_sample {d : SwmPinDevice} (hd : d.pin < 32) (level : Bool) (regs : Regs) :
    pinBit (I2c.sample d level regs) d .idr = level :=
  (bit_put hd regs .idr .idr level).trans (if_pos rfl)

/-- The input bits of the pins are the levels of the lines. -/
theorem idr_sampled (cfg : SwmSoftI2cCfg) (D : LineDevice δ) (p : Pins δ) :
    pinBit (p.sampled cfg D).regs cfg.sclPin .idr = (p.levels cfg D).scl ∧
      pinBit (p.sampled cfg D).regs cfg.sdaPin .idr = (p.levels cfg D).sda := by
  refine ⟨?_, idr_sample (pinAt_lt cfg.sda_lt) _ _⟩
  have hother := (Regs.onlyPin_put (g := cfg.sdaPin.gpio) (n := cfg.sdaPin.pin)
    (I2c.sample cfg.sclPin (p.levels cfg D).scl p.gpio.regs) .idr (p.levels cfg D).sda).bits
      (.pin cfg.sclPin.gpio .idr cfg.sclPin.pin) (scl_ne_sda cfg)
  exact hother.trans (idr_sample (pinAt_lt cfg.scl_lt) _ _)

/-- A read of a pin that is an input. -/
theorem rtPinRead_run (h : PinRel cfg p b) {pin : UInt8} (hpin : pin.toNat < pinNum) {level : Bool}
    (hlevel : pinBit (p.sampled cfg D).regs (pinAt pin.toNat hpin) .idr = level) :
    ∃ p', (Pins.rtPinRead cfg D pin).run p = some (level, p') ∧ PinRel cfg p' b := by
  have hread : (p.sampled cfg D).swmPinRead pin.toNat = (.level level.toNat, p.sampled cfg D) := by
    rw [State.swmPinRead, pin2struct_pinAt hpin, ← hlevel]
    rfl
  refine ⟨{ p with gpio := p.sampled cfg D }, ?_, ?_⟩
  · show (let (ret, gpio) := (p.sampled cfg D).swmPinRead pin.toNat
      some (decide (ret ≠ .level 0), { p with gpio := gpio }) : Option (Bool × Pins δ)) = _
    rw [hread]
    cases level <;> rfl
  · exact ⟨(h.scl.sample _).sample _, (h.sda.sample _).sample _, h.dev, h.delays⟩

theorem of_read {free level a : Bool} {b b' : Bus δ} (h : b.read free level = some (a, b')) :
    free = true ∧ a = level ∧ b' = b := by
  cases free with
  | false => cases h
  | true =>
      cases h
      exact ⟨rfl, rfl, rfl⟩

/-- `swm_i2c_get_sda` reads the data line where the master has let go of it. -/
theorem swmI2cGetSda_follows (hD : D.Quiet) (T : Timing) :
    Sim (PinRel cfg) (swmI2cGetSda cfg D) (busOps D T).getSda := by
  rintro p b h a b' hrun
  -- the read is defined only where the master has let go, which an input does as well
  obtain ⟨hfree, rfl, rfl⟩ := of_read hrun
  have hin := inputPulldown_drives cfg.sda_lt (hfree ▸ h.sda)
  rw [← hfree] at hin
  have hmode := h.same hD (h.scl.frame (mode_onlyPin cfg.sda_lt pinModeInputPulldown) (scl_ne_sda cfg)) hin
  obtain ⟨p', hread, hrel⟩ := rtPinRead_run hmode cfg.sda_lt (idr_sampled cfg D _).2
  rw [hmode.levels D] at hread
  exact ⟨p', hread, hrel⟩

/-- `swm_i2c_get_scl` reads the clock line. -/
theorem swmI2cGetScl_follows (hD : D.Quiet) (T : Timing) :
    Sim (PinRel cfg) (swmI2cGetScl cfg D) (busOps D T).getScl := by
  rintro p b h a b' hrun
  obtain ⟨hfree, rfl, rfl⟩ := of_read hrun
  have hin := inputPulldown_drives cfg.scl_lt (hfree ▸ h.scl)
  rw [← hfree] at hin
  have hmode := h.same hD hin (h.sda.frame (mode_onlyPin cfg.scl_lt pinModeInputPulldown) (sda_ne_scl cfg))
  obtain ⟨p', hread, hrel⟩ := rtPinRead_run hmode cfg.scl_lt (idr_sampled cfg D _).1
  rw [hmode.levels D] at hread
  exact ⟨p', hread, hrel⟩

theorem pass_follows (us : Nat) (tick : Nat → UInt32) (polls : Nat) :
    Sim (PinRel cfg) ((swmI2cBitOps cfg D tick polls).udelay us) ((busOps D (swmTiming tick polls)).udelay us) := by
  rintro p b h a b' hrun
  cases hrun
  refine ⟨_, rfl, h.scl, h.sda, ?_, congrArg (· + 1) h.delays⟩
  rw [Pins.pass, Bus.pass, Bus.settle]
  dsimp only
  rw [h.levels D, Pins.levels, h.scl.lets, h.sda.lets, h.dev]
  rfl

end Refine

/-- The operations `ops` follow `ops'`, with the same parameters. -/
structure RtI2cBitOps.Follows {σ τ : Type} (R : σ → τ → Prop) (ops : RtI2cBitOps σ) (ops' : RtI2cBitOps τ) :
    Prop where
  setSda : ∀ v, Sim R (ops.setSda v) (ops'.setSda v)
  setScl : ∀ v, Sim R (ops.setScl v) (ops'.setScl v)
  getSda : Sim R ops.getSda ops'.getSda
  getScl : Sim R ops.getScl ops'.getScl
  udelay : ∀ us, Sim R (ops.udelay us) (ops'.udelay us)
  rtTickGet : Sim R ops.rtTickGet ops'.rtTickGet
  delayUs : ops.delayUs = ops'.delayUs
  timeout : ops.timeout = ops'.timeout
  polls : ops.polls = ops'.polls

namespace RtI2cBitOps.Follows

variable {σ τ : Type} {R : σ → τ → Prop} {ops : RtI2cBitOps σ} {ops' : RtI2cBitOps τ}
  (h : RtI2cBitOps.Follows R ops ops')

include h

theorem i2cDelay : Sim R ops.i2cDelay ops'.i2cDelay := by
  rw [RtI2cBitOps.i2cDelay, RtI2cBitOps.i2cDelay, h.delayUs]
  exact h.udelay _

theorem i2cDelay2 : Sim R ops.i2cDelay2 ops'.i2cDelay2 := by
  rw [RtI2cBitOps.i2cDelay2, RtI2cBitOps.i2cDelay2, h.delayUs]
  exact h.udelay _

theorem i2cStart : Sim R ops.i2cStart ops'.i2cStart :=
  (h.setSda false).bind fun _ => h.i2cDelay.bind fun _ => h.setScl false

variable [Errno]

theorem waitScl (start : UInt32) (n : Nat) : Sim R (ops.waitScl start n) (ops'.waitScl start n) := by
  induction n with
  | zero => exact Sim.of_undefined fun _ => rfl
  | succ n ih =>
      rw [RtI2cBitOps.waitScl, RtI2cBitOps.waitScl, h.timeout]
      refine h.getScl.bind fun level => Sim.ite (h.i2cDelay.bind fun _ => Sim.pure _) ?_
      exact h.rtTickGet.bind fun _ => Sim.ite (Sim.pure _) (h.i2cDelay.bind fun _ => ih)

theorem sclH : Sim R ops.sclH ops'.sclH := by
  rw [RtI2cBitOps.sclH, RtI2cBitOps.sclH, h.polls]
  exact (h.setScl true).bind fun _ => h.rtTickGet.bind fun start => h.waitScl start _

theorem i2cRestart : Sim R ops.i2cRestart ops'.i2cRestart := by
  refine (h.setSda true).bind fun _ => h.sclH.bind fun _ => h.i2cDelay.bind fun _ => ?_
  exact h.i2cStart

theorem i2cStop : Sim R ops.i2cStop ops'.i2cStop := by
  refine (h.setSda false).bind fun _ => h.i2cDelay.bind fun _ => h.sclH.bind fun _ => ?_
  exact h.i2cDelay.bind fun _ => (h.setSda true).bind fun _ => h.i2cDelay2

theorem i2cWaitack : Sim R ops.i2cWaitack ops'.i2cWaitack := by
  refine (h.setSda true).bind fun _ => h.i2cDelay.bind fun _ => h.sclH.bind fun _ => Sim.ite (Sim.pure _) ?_
  exact h.getSda.bind fun _ => (h.setScl false).bind fun _ => Sim.pure _

theorem writeBits (data : UInt8) (n : Nat) : Sim R (ops.writeBits data n) (ops'.writeBits data n) := by
  induction n with
  | zero => exact Sim.pure _
  | succ n ih =>
      refine (h.setScl false).bind fun _ => (h.setSda _).bind fun _ => h.i2cDelay.bind fun _ => ?_
      exact h.sclH.bind fun _ => Sim.ite (Sim.pure _) ih

theorem i2cWriteb (data : UInt8) : Sim R (ops.i2cWriteb data) (ops'.i2cWriteb data) := by
  refine (h.writeBits data 8).bind fun _ => Sim.ite (Sim.pure _) ?_
  exact (h.setScl false).bind fun _ => h.i2cDelay.bind fun _ => h.i2cWaitack

theorem readBits (n : Nat) (data : UInt8) : Sim R (ops.readBits n data) (ops'.readBits n data) := by
  induction n generalizing data with
  | zero => exact Sim.pure _
  | succ n ih =>
      refine h.sclH.bind fun _ => Sim.ite (Sim.pure _) (h.getSda.bind fun _ => ?_)
      exact (h.setScl false).bind fun _ => h.i2cDelay2.bind fun _ => ih _

theorem i2cReadb : Sim R ops.i2cReadb ops'.i2cReadb :=
  (h.setSda true).bind fun _ => h.i2cDelay.bind fun _ => h.readBits 8 0

theorem i2cSendAckOrNack (ack : Int) : Sim R (ops.i2cSendAckOrNack ack) (ops'.i2cSendAckOrNack ack) := by
  have hclock : ∀ u : Unit, Sim R
      (do
        ops.i2cDelay
        if (← ops.sclH) < 0 then return -rtEtimeout
        else
          ops.sclL
          return 0)
      (do
        ops'.i2cDelay
        if (← ops'.sclH) < 0 then return -rtEtimeout
        else
          ops'.sclL
          return 0) := fun _ =>
    h.i2cDelay.bind fun _ => h.sclH.bind fun _ => Sim.ite (Sim.pure _)
      ((h.setScl false).bind fun _ => Sim.pure _)
  exact Sim.ite ((h.setSda false).bind hclock) (hclock ())

/-- The functions that move the lines follow each other. -/
theorem link : Link.Follows R ops.link ops'.link where
  start := h.i2cStart
  restart := h.i2cRestart
  stop := h.i2cStop
  delay2 := h.i2cDelay2
  writeb := h.i2cWriteb
  readb := h.i2cReadb
  sendAckOrNack := h.i2cSendAckOrNack

end RtI2cBitOps.Follows

theorem Link.Follows.trans {σ τ υ : Type} {R : σ → τ → Prop} {S : τ → υ → Prop} {L : Link σ} {L' : Link τ}
    {L'' : Link υ} (h : Link.Follows R L L') (h' : Link.Follows S L' L'') :
    Link.Follows (fun s u => ∃ t, R s t ∧ S t u) L L'' where
  start := h.start.trans h'.start
  restart := h.restart.trans h'.restart
  stop := h.stop.trans h'.stop
  delay2 := h.delay2.trans h'.delay2
  writeb byte := (h.writeb byte).trans (h'.writeb byte)
  readb := h.readb.trans h'.readb
  sendAckOrNack ack := (h.sendAckOrNack ack).trans (h'.sendAckOrNack ack)

/-- The operations of the driver are those on the lines. -/
theorem swmI2cBitOps_follow {δ : Type} {D : LineDevice δ} (hD : D.Quiet) (cfg : SwmSoftI2cCfg)
    (tick : Nat → UInt32) (polls : Nat) :
    RtI2cBitOps.Follows (PinRel cfg) (swmI2cBitOps cfg D tick polls) (busOps D (swmTiming tick polls)) where
  setSda := swmI2cSetSda_follows hD _
  setScl := swmI2cSetScl_follows hD _
  getSda := swmI2cGetSda_follows hD _
  getScl := swmI2cGetScl_follows hD _
  udelay us := pass_follows us tick polls
  rtTickGet := by
    rintro p b h a b' hrun
    cases hrun
    exact ⟨p, by rw [← h.delays]; rfl, h⟩
  delayUs := rfl
  timeout := rfl
  polls := rfl

/-! ### Transfers one after the other -/

/-- Transfers of a link: the code and the buffers of each. -/
def Link.transfers [Errno] {σ : Type} (L : Link σ) (retries : UInt32) :
    List (List RtI2cMsg) → Prog σ (List (Int × List (List UInt8)))
  | [] => return []
  | msgs :: rest => do
      let r ← L.i2cBitXfer retries msgs
      let rs ← L.transfers retries rest
      return r :: rs

theorem Link.Follows.transfers [Errno] {σ τ : Type} {R : σ → τ → Prop} {L : Link σ} {L' : Link τ} (h : L.Follows R L')
    (retries : UInt32) (xfers : List (List RtI2cMsg)) :
    Sim R (L.transfers retries xfers) (L'.transfers retries xfers) := by
  induction xfers with
  | nil => exact Sim.pure _
  | cons msgs rest ih => exact (h.i2cBitXfer retries msgs).bind fun _ => ih.bind fun _ => Sim.pure _

section Transfers

variable {τ : Type} {X : Target τ}

/-- Transfers that keep to the rules and do not keep the bus are defined. -/
theorem transfers_spec [Errno] (retries : UInt32) {xfers : List (List RtI2cMsg)}
    (h : ∀ msgs ∈ xfers, Regular none msgs ∧ ∀ m ∈ msgs, m.has rtI2cNoStop = false) :
    Triple (fun w => w.mode = .free) (X.link.transfers retries xfers) fun _ w => w.mode = .free := by
  induction xfers with
  | nil => exact Triple.pure fun _ hw => hw
  | cons msgs rest ih =>
      obtain ⟨hregular, hstops⟩ := h msgs List.mem_cons_self
      have hfirst := (i2cBitXfer_spec (X := X) retries hregular).weaken (fun _ hw => hw) fun _ _ hw => hw hstops
      have hrest := ih fun msgs' hmem => h msgs' (List.mem_cons_of_mem _ hmem)
      exact hfirst.bind fun _ => hrest.bind fun _ => Triple.pure fun _ hw => hw

/-- Both pins let go of their lines, and the device waits for a start condition. -/
structure AtRest (cfg : SwmSoftI2cCfg) (p : Pins (Slave τ)) (t : τ) : Prop where
  scl : Drives p.gpio.regs cfg.sclPin true
  sda : Drives p.gpio.regs cfg.sdaPin true
  phase : p.dev.phase = .idle
  hold : p.dev.hold = 0
  target : p.dev.target = t

theorem atRest_iff {cfg : SwmSoftI2cCfg} {p : Pins (Slave τ)} {t : τ} {bound : Nat} :
    AtRest cfg p t ↔ ∃ b, PinRel cfg p b ∧ Rel bound b ⟨t, .free⟩ := by
  constructor
  · rintro ⟨hscl, hsda, hphase, hhold, htarget⟩
    refine ⟨⟨true, true, p.dev, p.delays⟩, ⟨hscl, hsda, rfl, rfl⟩, rel_free.mpr ?_⟩
    exact ⟨rfl, rfl, hphase, htarget, by rw [hhold]; exact Nat.zero_le _, fun _ => hhold⟩
  · rintro ⟨b, ⟨hscl, hsda, hdev, -⟩, hb⟩
    obtain ⟨hclock, hdata, hphase, htarget, -, hfree⟩ := rel_free.mp hb
    rw [hclock] at hscl
    rw [hdata] at hsda
    rw [← hdev] at hphase htarget hfree
    exact ⟨hscl, hsda, hphase, hfree rfl, htarget⟩

/-- Both pins are made open-drain outputs, and then set. -/
theorem init_drives {cfg : SwmSoftI2cCfg} {s s₁ s₂ s₃ s₄ : Gpio.State}
    (h₁ : (s.swmPinMode cfg.scl.toNat pinModeOutputOd).2 = s₁)
    (h₂ : (s₁.swmPinMode cfg.sda.toNat pinModeOutputOd).2 = s₂)
    (h₃ : (s₂.swmPinWrite cfg.scl.toNat 1).2 = s₃) (h₄ : (s₃.swmPinWrite cfg.sda.toNat 1).2 = s₄) :
    Drives s₄.regs cfg.sclPin true ∧ Drives s₄.regs cfg.sdaPin true := by
  obtain ⟨hscl, hsclDir⟩ := outputOd_drives (s := s) cfg.scl_lt rfl
  rw [h₁] at hscl hsclDir
  obtain ⟨hsda, hsdaDir⟩ := outputOd_drives (s := s₁) cfg.sda_lt rfl
  have hscl₂ := pinBit_frame (mode_onlyPin (s := s₁) cfg.sda_lt pinModeOutputOd) (scl_ne_sda cfg)
  rw [h₂] at hsda hsdaDir hscl₂
  have hset : Drives s₃.regs cfg.sclPin true := h₃ ▸
    write_drives (s := s₂) cfg.scl_lt ((hscl₂ .openD).trans (hscl.openDrain hsclDir))
      ((hscl₂ .dir).trans hsclDir) true
  have hsda₃ := pinBit_frame (write_onlyPin (s := s₂) cfg.scl_lt 1) (sda_ne_scl cfg)
  rw [h₃] at hsda₃
  have hset' : Drives s₄.regs cfg.sdaPin true := h₄ ▸
    write_drives (s := s₃) cfg.sda_lt ((hsda₃ .openD).trans (hsda.openDrain hsdaDir))
      ((hsda₃ .dir).trans hsdaDir) true
  exact ⟨hset.frame (h₄ ▸ write_onlyPin cfg.sda_lt 1) (scl_ne_sda cfg), hset'⟩

/-- `swm_i2c_gpio_init` lets go of both lines, whatever the registers have been. -/
theorem gpioInit_drives {δ : Type} (cfg : SwmSoftI2cCfg) (D : LineDevice δ) (p : Pins δ) :
    ∃ p', (swmI2cGpioInit cfg D).run p = some ((), p') ∧ Drives p'.gpio.regs cfg.sclPin true ∧
      Drives p'.gpio.regs cfg.sdaPin true :=
  ⟨_, rfl, init_drives rfl rfl rfl rfl⟩

/-- With a device that waits, the lines are at rest after it. -/
theorem exists_atRest (cfg : SwmSoftI2cCfg) (t : τ) : ∃ p : Pins (Slave τ), AtRest cfg p t := by
  obtain ⟨p, -, hscl, hsda⟩ := gpioInit_drives cfg ⟨fun _ => false, fun _ => false, fun _ _ s => s, id⟩
    ⟨Gpio.State.boot, (⟨t, .idle, 0, 0⟩ : Slave τ), 0⟩
  exact ⟨⟨p.gpio, ⟨t, .idle, 0, 0⟩, 0⟩, hscl, hsda, rfl, rfl, rfl⟩

/-- Programs over the driver's operations follow those over the exchange of bytes. -/
theorem pins_follow [Errno] {stretch : Nat → Nat} {tick : Nat → UInt32} {polls bound : Nat}
    (ht : Timely (swmTiming tick polls) stretch bound) (cfg : SwmSoftI2cCfg) :
    Link.Follows (fun p w => ∃ b, PinRel cfg p b ∧ Rel bound b w)
      (swmI2cBitOps cfg (X.device stretch) tick polls).link X.link := by
  have hquiet : (X.device stretch).Quiet := fun l s => change_none X stretch s l
  exact (swmI2cBitOps_follow hquiet cfg tick polls).link.trans (ops_follow ht)

/-- **Transfers at the pins** of the controller, one after the other, are the exchanges of their bytes with
the device, and leave the lines at rest. -/
theorem transfers_at_pins [Errno] {stretch : Nat → Nat} {tick : Nat → UInt32} {polls bound : Nat}
    (ht : Timely (swmTiming tick polls) stretch bound) (cfg : SwmSoftI2cCfg) (retries : UInt32)
    {xfers : List (List RtI2cMsg)}
    (h : ∀ msgs ∈ xfers, Regular none msgs ∧ ∀ m ∈ msgs, m.has rtI2cNoStop = false)
    {p : Pins (Slave τ)} {t : τ} (hp : AtRest cfg p t) :
    ∃ rs t' p', (X.link.transfers retries xfers).run ⟨t, .free⟩ = some (rs, ⟨t', .free⟩) ∧
      ((swmI2cBitOps cfg (X.device stretch) tick polls).link.transfers retries xfers).run p = some (rs, p') ∧
      AtRest cfg p' t' := by
  obtain ⟨rs, ⟨t', m⟩, hwire, hfree⟩ := transfers_spec (X := X) retries h ⟨t, .free⟩ rfl
  obtain rfl : m = .free := hfree
  obtain ⟨p', hpins, hrel⟩ := (pins_follow ht cfg).transfers retries xfers p _ (atRest_iff.mp hp) rs _ hwire
  exact ⟨rs, t', p', hwire, hpins, atRest_iff.mpr hrel⟩

/-- The pins of `BSP_I2C0_SCL_PIN` and `BSP_I2C0_SDA_PIN`. -/
def i2c0Cfg : SwmSoftI2cCfg := ⟨1, 0, by decide, by decide, by decide⟩

section I2c0

attribute [local instance] Errno.armlibc

theorem transfers_at_pins_i2c0 : ∃ (p p' : Pins (Slave (List UInt8))) (rs : List (Int × List (List UInt8)))
    (t' : List UInt8), AtRest i2c0Cfg p [] ∧
      (keeper.link.transfers 1 [keeperMsgs, keeperMsgs]).run ⟨[], .free⟩ = some (rs, ⟨t', .free⟩) ∧
      ((swmI2cBitOps i2c0Cfg (keeper.device fun k => k % 4) UInt32.ofNat 200).link.transfers 1
        [keeperMsgs, keeperMsgs]).run p = some (rs, p') ∧ AtRest i2c0Cfg p' t' := by
  obtain ⟨p, hp⟩ := exists_atRest i2c0Cfg ([] : List UInt8)
  have hxfers : ∀ msgs ∈ [keeperMsgs, keeperMsgs],
      Regular none msgs ∧ ∀ m ∈ msgs, m.has rtI2cNoStop = false := by
    intro msgs hmem
    obtain rfl : msgs = keeperMsgs := by simpa using hmem
    exact ⟨keeperMsgs_regular, by decide⟩
  have ht : Timely (swmTiming UInt32.ofNat 200) (fun k => k % 4) 3 :=
    tickTiming_timely (fun k => by omega) (by decide)
  obtain ⟨rs, t', p', hwire, hpins, hrest⟩ := transfers_at_pins (X := keeper) ht i2c0Cfg 1 hxfers hp
  exact ⟨p, p', rs, t', hp, hwire, hpins, hrest⟩

end I2c0

end Transfers

end SwmLvgl.I2c
