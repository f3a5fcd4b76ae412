import SwmLvgl.I2cBitOps

/-! The two open-drain lines of an I2C bus with one device at them, and the byte exchange that a device
keeping to the protocol carries on over them. A line is high where nobody pulls it. The device sees the
level changes and the delays of the master; it may hold the clock line after a falling edge. -/

namespace SwmLvgl.I2c

/-- The levels of the lines. -/
structure Levels where
  scl : Bool
  sda : Bool
  deriving DecidableEq, Repr

/-- A device at the lines: whether it pulls them, and what a change of the levels and a delay of the
master make of it. -/
structure LineDevice (δ : Type) where
  holdsScl : δ → Bool
  pullsSda : δ → Bool
  change : Levels → Levels → δ → δ
  wait : δ → δ

/-- The lines as the master leaves them, each `true` where it does not pull, the device, and the number
of delays so far. -/
structure Bus (δ : Type) where
  scl : Bool
  sda : Bool
  dev : δ
  delays : Nat

namespace Bus

variable {δ : Type} (D : LineDevice δ)

def levels (b : Bus δ) : Levels := ⟨b.scl && !D.holdsScl b.dev, b.sda && !D.pullsSda b.dev⟩

/-- The device sees the levels that follow `old`. -/
def settle (old : Levels) (b : Bus δ) : Bus δ := { b with dev := D.change old (b.levels D) b.dev }

/-- The master pulls and releases the lines. -/
def drive (scl sda : Bool) (b : Bus δ) : Bus δ :=
  ({ b with scl := scl, sda := sda } : Bus δ).settle D (b.levels D)

/-- A delay passes. -/
def pass (b : Bus δ) : Bus δ :=
  ({ b with dev := D.wait b.dev, delays := b.delays + 1 } : Bus δ).settle D (b.levels D)

/-- A line is read. A master that pulls the line itself learns nothing of it. -/
def read (free : Bool) (level : Bool) (b : Bus δ) : Option (Bool × Bus δ) :=
  if free then some (level, b) else none

end Bus

/-- The parameters of `struct rt_i2c_bit_ops`, the kernel's tick counter after each delay, and the fuel
for a wait. -/
structure Timing where
  delayUs : Nat
  timeout : UInt32
  tick : Nat → UInt32
  polls : Nat

/-- The operations of the master on the lines. -/
def busOps {δ : Type} (D : LineDevice δ) (T : Timing) : RtI2cBitOps (Bus δ) where
  setSda v := fun b => some ((), b.drive D b.scl v)
  setScl v := fun b => some ((), b.drive D v b.sda)
  getSda := fun b => b.read b.sda (b.levels D).sda
  getScl := fun b => b.read b.scl (b.levels D).scl
  udelay _ := fun b => some ((), b.pass D)
  delayUs := T.delayUs
  timeout := T.timeout
  rtTickGet := fun b => some (T.tick b.delays, b)
  polls := T.polls

/-! ### A device that keeps to the protocol -/

/-- What a device does with whole bytes: with the address byte behind a start condition and with each
further byte, which it acknowledges or not; with a byte asked of it; and at a stop condition. -/
structure Target (τ : Type) where
  address : UInt8 → τ → Bool × τ
  write : UInt8 → τ → Bool × τ
  read : τ → UInt8 × τ
  stop : τ → τ

/-- What a device is doing: it waits for a start condition; it has `n` bits of a byte, which is the
address byte where `first`; it acknowledges a byte, and then sends or goes on receiving; `n` bits of the
byte it sends have passed; it waits for the acknowledgement of the byte, and whether that has come. -/
inductive Phase where
  | idle
  | receive (n : Nat) (byte : UInt8) (first : Bool)
  | acking (sends : Bool)
  | transmit (n : Nat) (byte : UInt8)
  | awaitAck (acked : Bool)
  deriving DecidableEq, Repr

/-- The device pulls the data line. -/
def Phase.pulls : Phase → Bool
  | .acking _ => true
  | .transmit n byte => !byte.toNat.testBit (7 - n)
  | _ => false

/-- A device with what it holds of the protocol. It holds the clock line for `hold` more delays; `falls`
counts the falling edges of that line. -/
structure Slave (τ : Type) where
  target : τ
  phase : Phase
  hold : Nat
  falls : Nat

namespace Target

variable {τ : Type} (X : Target τ)

/-- A rising edge of the clock line, with the level of the data line. -/
def rise (sda : Bool) : Phase → Phase
  | .receive n byte first => .receive (n + 1) (byte <<< 1 ||| if sda then 1 else 0) first
  | .awaitAck _ => .awaitAck !sda
  | phase => phase

/-- The device has a byte, and begins to acknowledge it or leaves the exchange. -/
def byteIn (byte : UInt8) (first : Bool) (t : τ) : Phase × τ :=
  let (acks, t) := if first then X.address byte t else X.write byte t
  (if acks then .acking (first && byte.toNat.testBit 0) else .idle, t)

/-- The device begins to send its next byte. -/
def byteOut (t : τ) : Phase × τ :=
  let (byte, t) := X.read t
  (.transmit 0 byte, t)

/-- A falling edge of the clock line. -/
def fall : Phase → τ → Phase × τ
  | .receive n byte first, t => if n = 8 then X.byteIn byte first t else (.receive n byte first, t)
  | .acking sends, t => if sends then X.byteOut t else (.receive 0 0 false, t)
  | .transmit n byte, t => (if n = 7 then .awaitAck false else .transmit (n + 1) byte, t)
  | .awaitAck acked, t => if acked then X.byteOut t else (.idle, t)
  | .idle, t => (.idle, t)

/-- The device at the lines. `stretch k` is for how many delays it holds the clock line after its
falling edge number `k`. -/
def device (stretch : Nat → Nat) : LineDevice (Slave τ) where
  holdsScl s := decide (s.hold ≠ 0)
  pullsSda s := s.phase.pulls
  change old new s :=
    if old.scl && !new.scl then
      let (phase, t) := X.fall s.phase s.target
      ⟨t, phase, stretch s.falls, s.falls + 1⟩
    else if !old.scl && new.scl then { s with phase := rise new.sda s.phase }
    else if new.scl && old.sda && !new.sda then { s with phase := .receive 0 0 true }
    else if new.scl && !old.sda && new.sda then { s with phase := .idle, target := X.stop s.target }
    else s
  wait s := { s with hold := s.hold - 1 }

end Target

/-- How far an exchange is: the bus is free; the device takes no part; it expects an address byte, or
another byte; it sends `byte`; the master has that byte and has not answered it yet. -/
inductive Mode where
  | free
  | idle
  | address
  | listen
  | talk (byte : UInt8)
  | handover
  deriving DecidableEq, Repr

/-- The exchange, with the device. -/
structure Wire (τ : Type) where
  target : τ
  mode : Mode
  deriving DecidableEq, Repr

namespace Target

variable {τ : Type} (X : Target τ)

/-- The device begins to send its next byte. -/
def offer (t : τ) : Wire τ :=
  let (byte, t) := X.read t
  ⟨t, .talk byte⟩

/-- A byte of the master and the answer of the device, 1 where it acknowledges the byte. -/
def hear (byte : UInt8) (first : Bool) (t : τ) : Int × Wire τ :=
  let (acks, t) := if first then X.address byte t else X.write byte t
  if acks then (1, if first && byte.toNat.testBit 0 then X.offer t else ⟨t, .listen⟩) else (0, ⟨t, .idle⟩)

/-- The exchange as the upper half of the master carries it on. An operation that does not fit the mode
is undefined: the master and the device would use the lines at once. -/
def link : Link (Wire τ) where
  start := fun w => match w.mode with
    | .free => some ((), { w with mode := .address })
    | _ => none
  restart := fun w => match w.mode with
    | .idle | .address | .listen => some ((), { w with mode := .address })
    | _ => none
  stop := fun w => match w.mode with
    | .idle | .address | .listen => some ((), ⟨X.stop w.target, .free⟩)
    | _ => none
  delay2 := fun w => match w.mode with
    | .free => some ((), w)
    | _ => none
  writeb byte := fun w => match w.mode with
    | .idle => some (0, w)
    | .address => some (X.hear byte true w.target)
    | .listen => some (X.hear byte false w.target)
    | _ => none
  readb := fun w => match w.mode with
    | .idle => some (255, w)
    | .talk byte => some (byte.toNat, { w with mode := .handover })
    | _ => none
  sendAckOrNack ack := fun w => match w.mode with
    | .idle => some (0, w)
    | .handover => some (0, if ack ≠ 0 then X.offer w.target else { w with mode := .idle })
    | _ => none

end Target

end SwmLvgl.I2c
