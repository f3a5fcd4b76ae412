import SwmLvgl.CArray
import SwmLvgl.GpioModel
import SwmLvgl.RunSteps

/-! The pin driver (`drv_gpio.c`): the table of the 112 pins, the handler table, the operations on a
pin and the interrupt service routine with its list of pins, which it fills once. An index outside an
array, a null entry that is followed, a failed assertion and a read behind the readable memory are
faults. -/

namespace SwmLvgl.Gpio

/-- `ITEM_NUM(pin_obj)` -/
abbrev pinNum : Nat := 112

/-- `struct swm_pin_device` -/
structure SwmPinDevice where
  index : Nat
  gpio : GpioTypeDef
  pin : Nat
  irq : Nat
  deriving DecidableEq, Repr

/-- `__SWM_PIN(index, gpio, pin_index)` -/
def swmPin (index : Nat) (gpio : GpioTypeDef) (pin : Nat) : SwmPinDevice :=
  ⟨index, gpio, pin, gpio.irqn⟩

/-- The sixteen entries of a port. -/
def portPins (base : Nat) (gpio : GpioTypeDef) : List SwmPinDevice :=
  (List.range 16).map fun pin => swmPin (base + pin) gpio pin

/-- `pin_obj` -/
def pinObj : List SwmPinDevice :=
  portPins 0 .gpioA ++ portPins 16 .gpioB ++ portPins 32 .gpioC ++ portPins 48 .gpioD ++
    portPins 64 .gpioE ++ portPins 80 .gpioM ++ portPins 96 .gpioN

/-- A pointer; null is 0. -/
abbrev Ptr := UInt32

/-- `struct rt_pin_irq_hdr` -/
structure RtPinIrqHdr where
  pin : Int
  mode : UInt8
  hdr : Ptr
  args : Ptr
  deriving DecidableEq, Repr

/-- A record as the initialising loop of `swm_pin_isr` reads it, in `pin_obj` or in the memory behind;
`gpio` is none where the word there is the address of no port. -/
structure PinRecord where
  index : Nat
  gpio : Option GpioTypeDef
  deriving DecidableEq, Repr

inductive Fault where
  | table (pin : Int)
  | gpio (index : Int)
  | assertion
  | memory
  | nullPin
  deriving DecidableEq, Repr

/-- The error codes of RT-Thread that the driver returns. -/
inductive RtErr where
  | eok
  | einval
  | enosys
  deriving DecidableEq, Repr

/-- What an operation returns: nothing, a pin level, or a code. -/
inductive Ret where
  | void
  | level (v : Nat)
  | err (e : RtErr)
  deriving DecidableEq, Repr

/-- The registers, the handler table `pin_irq_hdr_tab`, the statics `init` and `gpio` of `swm_pin_isr`,
and the handlers called so far with their arguments; the last only records the run. -/
structure State where
  regs : Regs
  tab : Vector RtPinIrqHdr pinNum
  init : Bool
  gpio : Vector Int 16
  calls : List (Ptr × Ptr)

/-- `_pin2struct` -/
def pin2struct (pin : UInt8) : Option SwmPinDevice :=
  if pin.toNat < pinNum then pinObj[pin.toNat]? else none

namespace State

/-- `pin_irq_hdr_tab[pin]` -/
def entry (s : State) (pin : Int) : Except Fault RtPinIrqHdr :=
  match CArray.get s.tab pin with
  | some e => .ok e
  | none => .error (.table pin)

/-- `pin_irq_hdr_tab[pin] = e` -/
def setEntry (s : State) (pin : Int) (e : RtPinIrqHdr) : Except Fault State :=
  match CArray.set s.tab pin e with
  | some tab => .ok { s with tab := tab }
  | none => .error (.table pin)

/-- The modes of `swm_pin_mode` as direction, pull-up, pull-down and open drain; a mode that no case
names keeps the initial values. -/
def pinModeBits (mode : UInt8) : Bool × Bool × Bool × Bool :=
  if mode = 0 then (true, false, false, false)         -- PIN_MODE_OUTPUT
  else if mode = 1 then (false, false, false, false)   -- PIN_MODE_INPUT
  else if mode = 2 then (false, true, false, false)    -- PIN_MODE_INPUT_PULLUP
  else if mode = 3 then (false, false, true, false)    -- PIN_MODE_INPUT_PULLDOWN
  else if mode = 4 then (true, false, false, true)     -- PIN_MODE_OUTPUT_OD
  else (false, false, false, false)

/-- `swm_pin_mode` -/
def swmPinMode (pin : Int) (mode : UInt8) (s : State) : Ret × State :=
  match pin2struct (UInt8.ofInt pin) with
  | none => (.void, s)
  | some d =>
      let (dir, pullUp, pullDown, openDrain) := pinModeBits mode
      (.void, { s with regs := s.regs.gpioInit d.gpio d.pin dir pullUp pullDown openDrain })

/-- `swm_pin_write` -/
def swmPinWrite (pin : Int) (value : UInt8) (s : State) : Ret × State :=
  match pin2struct (UInt8.ofInt pin) with
  | none => (.void, s)
  | some d =>
      if value ≠ 0 then (.void, { s with regs := s.regs.gpioAtomicSetBit d.gpio d.pin })
      else (.void, { s with regs := s.regs.gpioAtomicClrBit d.gpio d.pin })

/-- `swm_pin_read` -/
def swmPinRead (pin : Int) (s : State) : Ret × State :=
  match pin2struct (UInt8.ofInt pin) with
  | none => (.err .einval, s)
  | some d => (.level (s.regs.gpioGetBit d.gpio d.pin), s)

/-- `swm_pin_attach_irq` -/
def swmPinAttachIrq (pin : Int) (mode : UInt8) (hdr args : Ptr) (s : State) :
    Except Fault (Ret × State) := do
  let e ← s.entry pin
  if e.pin = pin ∧ e.mode = mode ∧ e.hdr = hdr ∧ e.args = args then return (.err .eok, s)
  else
    let s ← s.setEntry pin ⟨pin, mode, hdr, args⟩
    return (.err .eok, s)

/-- `swm_pin_detach_irq` -/
def swmPinDetachIrq (pin : Int) (s : State) : Except Fault (Ret × State) := do
  let e ← s.entry pin
  let s ← s.setEntry pin { e with mode := 0, hdr := 0, args := 0 }
  return (.err .eok, s)

/-- The pull-up, the pull-down and the EXTI mode for an interrupt mode of the handler table. -/
def irqModeBits (mode : UInt8) : Option (Bool × Bool × ExtiMode) :=
  if mode = 0 then some (false, true, .riseEdge)         -- PIN_IRQ_MODE_RISING
  else if mode = 1 then some (true, false, .fallEdge)    -- PIN_IRQ_MODE_FALLING
  else if mode = 2 then some (true, true, .bothEdge)     -- PIN_IRQ_MODE_RISING_FALLING
  else if mode = 3 then some (false, true, .highLevel)   -- PIN_IRQ_MODE_HIGH_LEVEL
  else if mode = 4 then some (true, false, .lowLevel)    -- PIN_IRQ_MODE_LOW_LEVEL
  else none

/-- `PIN_IRQ_DISABLE` -/
def pinIrqDisable : UInt8 := 0

/-- `PIN_IRQ_ENABLE` -/
def pinIrqEnable : UInt8 := 1

/-- `swm_pin_irq_enable` -/
def swmPinIrqEnable (pin : Int) (enabled : UInt8) (s : State) : Except Fault (Ret × State) :=
  match pin2struct (UInt8.ofInt pin) with
  | none => .ok (.err .enosys, s)
  | some d =>
      if enabled = pinIrqEnable then do
        -- the table is indexed with the pin itself, not with its low byte
        let e ← s.entry pin
        match irqModeBits e.mode with
        | none => return (.err .einval, s)
        | some (pullUp, pullDown, mode) =>
            let regs := s.regs.gpioInit d.gpio d.pin false pullUp pullDown false
            let regs := regs.extiInit d.gpio d.pin mode
            let regs := regs.nvicEnableIRQ d.gpio d.pin d.irq
            return (.err .eok, { s with regs := regs.extiOpen d.gpio d.pin })
      else if enabled = pinIrqDisable then
        .ok (.err .eok, { s with regs := s.regs.extiClose d.gpio d.pin })
      else .ok (.err .enosys, s)

/-- The initialising loop of `swm_pin_isr` over the records from `pin_obj` on; it stops at the first
record whose index is no index of the table. -/
def fillGpio (g : GpioTypeDef) : List PinRecord → Nat → Vector Int 16 → Except Fault (Vector Int 16)
  | [], _, _ => .error .memory
  | d :: rest, index, gpio =>
      if d.index < pinNum then
        if d.gpio = some g then
          match CArray.set gpio index (d.index : Int) with
          | none => .error (.gpio index)
          | some gpio => if index + 1 ≤ 16 then fillGpio g rest (index + 1) gpio else .error .assertion
        else fillGpio g rest index gpio
      else .ok gpio

/-- `pin_obj` and the memory behind it. -/
def pinRecords (behind : List PinRecord) : List PinRecord :=
  pinObj.map (fun d => ⟨d.index, some d.gpio⟩) ++ behind

/-- The body of the second loop of `swm_pin_isr`. -/
def isrPin (s : State) (index : Nat) : Except Fault State :=
  match CArray.get s.gpio index with
  | none => .error (.gpio index)
  | some i =>
      match pin2struct (UInt8.ofInt i) with
      | none => .error .nullPin
      | some d =>
          if s.regs.extiState d.gpio d.pin then do
            let s := { s with regs := s.regs.extiClear d.gpio d.pin }
            let e ← s.entry d.index
            if e.hdr ≠ 0 then return { s with calls := s.calls ++ [(e.hdr, e.args)] }
            else return s
          else .ok s

/-- `swm_pin_isr`; `behind` is the memory behind `pin_obj`. -/
def swmPinIsr (behind : List PinRecord) (g : GpioTypeDef) (s : State) : Except Fault State := do
  let s ←
    if s.init = false then do
      let gpio ← fillGpio g (pinRecords behind) 0 s.gpio
      pure { s with init := true, gpio := gpio }
    else pure s
  Run.run isrPin s (List.range 16)

/-- Reset values of the registers, and empty tables. -/
def boot : State where
  regs := ⟨fun _ _ => 0, fun _ _ => 0, fun _ => 0, fun _ => false, []⟩
  tab := Vector.ofFn fun i => ⟨i.val, 0, 0, 0⟩
  init := false
  gpio := Vector.replicate 16 0
  calls := []

end State

end SwmLvgl.Gpio
