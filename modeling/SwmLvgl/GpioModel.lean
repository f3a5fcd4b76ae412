import Mathlib.Logic.Function.Basic
import SwmLvgl.RegBits

/-! The GPIO ports of the SWM341 and the library functions that the pin driver calls
(`SWM341_gpio.c`, `SWM341_exti.c`, `SWM341_port.c`). A register that has one bit for each pin is a
word of 32 bits. Every write of a register is recorded with the pin it is made for; the record
steers nothing. -/

namespace SwmLvgl.Gpio

open RegBits

/-- The ports `GPIOA` to `GPION`, each with its `PORT_TypeDef` registers. -/
inductive GpioTypeDef where
  | gpioA
  | gpioB
  | gpioC
  | gpioD
  | gpioE
  | gpioM
  | gpioN
  deriving DecidableEq, Repr

/-- The registers of `GPIO_TypeDef` and `PORT_TypeDef` with one bit for each pin. -/
inductive PinReg where
  | odr
  | dir
  | intLvlTrg
  | intBe
  | intRiseEn
  | intEn
  | intRawStat
  | idr
  | pullU
  | pullD
  | inEn
  | openD
  deriving DecidableEq, Repr

/-- `GPIOx_IRQn` -/
def GpioTypeDef.irqn : GpioTypeDef → Nat
  | .gpioA => 35
  | .gpioB => 36
  | .gpioC => 37
  | .gpioD => 38
  | .gpioE => 74
  | .gpioM => 39
  | .gpioN => 40

/-- The clock register of the port, 0 for `CLKEN0` and 1 for `CLKEN1`, and its bit there. -/
def GpioTypeDef.clk : GpioTypeDef → Fin 2 × Nat
  | .gpioA => (0, 0)
  | .gpioB => (0, 1)
  | .gpioC => (0, 2)
  | .gpioD => (0, 3)
  | .gpioE => (1, 0)
  | .gpioM => (0, 4)
  | .gpioN => (0, 5)

/-- The registers of all ports; `func` holds `FUNC0` and `FUNC1`, with four bits for each pin, `clken`
the clock enable registers and `nvic` the interrupts enabled in the NVIC. -/
structure Regs where
  reg : GpioTypeDef → PinReg → BitVec 32
  func : GpioTypeDef → Fin 2 → BitVec 32
  clken : Fin 2 → BitVec 32
  nvic : Nat → Bool
  writes : List (GpioTypeDef × Nat)

/-- The EXTI modes. -/
inductive ExtiMode where
  | fallEdge
  | riseEdge
  | bothEdge
  | lowLevel
  | highLevel
  deriving DecidableEq, Repr

/-- The value of `EXTI_FALL_EDGE` and the others. -/
def ExtiMode.code : ExtiMode → UInt32
  | .fallEdge => 0x00
  | .riseEdge => 0x01
  | .bothEdge => 0x02
  | .lowLevel => 0x10
  | .highLevel => 0x11

namespace Regs

/-- The register `k` of port `g` changes, for pin `n`. -/
def modReg (g : GpioTypeDef) (k : PinReg) (n : Nat) (f : BitVec 32 → BitVec 32) (r : Regs) : Regs :=
  { r with
    reg := Function.update r.reg g (Function.update (r.reg g) k (f (r.reg g k)))
    writes := r.writes ++ [(g, n)] }

/-- `GPIOx->K |= (1 << n)` -/
def set (g : GpioTypeDef) (k : PinReg) (n : Nat) (r : Regs) : Regs :=
  r.modReg g k n fun v => setBit v n

/-- `GPIOx->K &= ~(1 << n)` -/
def clr (g : GpioTypeDef) (k : PinReg) (n : Nat) (r : Regs) : Regs :=
  r.modReg g k n fun v => clrBit v n

/-- `if(on) GPIOx->K |= (1 << n); else GPIOx->K &= ~(1 << n);` -/
def put (g : GpioTypeDef) (k : PinReg) (n : Nat) (on : Bool) (r : Regs) : Regs :=
  if on then r.set g k n else r.clr g k n

/-- `SYS->CLKENx |= (1 << SYS_CLKENx_GPIOx_Pos)` -/
def clkEnable (g : GpioTypeDef) (n : Nat) (r : Regs) : Regs :=
  { r with
    clken := Function.update r.clken g.clk.1 (setBit (r.clken g.clk.1) g.clk.2)
    writes := r.writes ++ [(g, n)] }

/-- `PORTx->FUNCi &= ~(0x0F << (m*4))`, for pin `n`. -/
def clrFunc (g : GpioTypeDef) (i : Fin 2) (m n : Nat) (r : Regs) : Regs :=
  { r with
    func := Function.update r.func g
      (Function.update (r.func g) i (clrField (r.func g i) 0x0F (m * 4)))
    writes := r.writes ++ [(g, n)] }

/-- `PORT_Init` with function 0 and the digital input enabled, as `GPIO_Init` calls it; the function
number 0 sets no bit of the field just cleared. -/
def portInit (g : GpioTypeDef) (n : Nat) (r : Regs) : Regs :=
  let r := if n < 8 then r.clrFunc g 0 n n else r.clrFunc g 1 (n - 8) n
  r.set g .inEn n

/-- `GPIO_Init` -/
def gpioInit (g : GpioTypeDef) (n : Nat) (dir pullUp pullDown openDrain : Bool) (r : Regs) : Regs :=
  let r := r.clkEnable g n
  let r := r.portInit g n
  let r := r.put g .dir n dir
  let r := r.put g .pullU n pullUp
  let r := r.put g .pullD n pullDown
  r.put g .openD n openDrain

/-- `GPIO_AtomicSetBit`: the data register of the pin drives its output bit. -/
def gpioAtomicSetBit (g : GpioTypeDef) (n : Nat) (r : Regs) : Regs := r.set g .odr n

/-- `GPIO_AtomicClrBit` -/
def gpioAtomicClrBit (g : GpioTypeDef) (n : Nat) (r : Regs) : Regs := r.clr g .odr n

/-- `GPIO_GetBit`: the data register of the pin reads its input bit. -/
def gpioGetBit (g : GpioTypeDef) (n : Nat) (r : Regs) : Nat := ((r.reg g .idr).getLsbD n).toNat

/-- `INTSTAT`, which is `INTRAWSTAT & INTEN`. -/
def intStat (g : GpioTypeDef) (r : Regs) : BitVec 32 := r.reg g .intRawStat &&& r.reg g .intEn

/-- `EXTI_State` -/
def extiState (g : GpioTypeDef) (n : Nat) (r : Regs) : Bool := (r.intStat g).getLsbD n

/-- A one written to `INTCLR`. It clears the flag of an edge interrupt only; that of a level interrupt goes
with the level, and flags and levels change only between the runs modelled here. -/
def intClr (g : GpioTypeDef) (n : Nat) (r : Regs) : Regs :=
  r.modReg g .intRawStat n fun v => if (r.reg g .intLvlTrg).getLsbD n then v else clrBit v n

/-- `EXTI_Clear` -/
def extiClear (g : GpioTypeDef) (n : Nat) (r : Regs) : Regs := r.intClr g n

/-- `EXTI_Open` -/
def extiOpen (g : GpioTypeDef) (n : Nat) (r : Regs) : Regs := r.set g .intEn n

/-- `EXTI_Close` -/
def extiClose (g : GpioTypeDef) (n : Nat) (r : Regs) : Regs := r.clr g .intEn n

/-- `EXTI_Init` -/
def extiInit (g : GpioTypeDef) (n : Nat) (mode : ExtiMode) (r : Regs) : Regs :=
  let r := r.extiClose g n
  let r :=
    if mode.code &&& 0x10 ≠ 0 then
      let r := r.set g .intLvlTrg n
      r.put g .intRiseEn n (mode.code &&& 0x01 ≠ 0)
    else
      let r := r.clr g .intLvlTrg n
      if mode.code &&& 0x02 ≠ 0 then r.set g .intBe n
      else
        let r := r.clr g .intBe n
        r.put g .intRiseEn n (mode.code &&& 0x01 ≠ 0)
  r.intClr g n

/-- `NVIC_EnableIRQ`, for pin `n`. -/
def nvicEnableIRQ (g : GpioTypeDef) (n : Nat) (irq : Nat) (r : Regs) : Regs :=
  { r with nvic := Function.update r.nvic irq true, writes := r.writes ++ [(g, n)] }

end Regs

end SwmLvgl.Gpio
