import Mathlib.Algebra.Ring.Nat
import SwmLvgl.Kerrno
import SwmLvgl.Programs

/-! The I2C master of RT-Thread that moves the lines bit by bit (`dev_i2c_bit_ops.c`). Its lower half
turns bytes into levels through the operations of `struct rt_i2c_bit_ops`; its upper half, from the
loops over the bytes of a message to the transfer of several messages, uses the lower one through six
functions only, which are `Link` here. -/

namespace SwmLvgl.I2c

variable [Errno]

/-- `RT_I2C_RD` -/
def rtI2cRd : UInt16 := (1 : UInt16) <<< 0

/-- `RT_I2C_ADDR_10BIT` -/
def rtI2cAddr10bit : UInt16 := (1 : UInt16) <<< 2

/-- `RT_I2C_NO_START` -/
def rtI2cNoStart : UInt16 := (1 : UInt16) <<< 4

/-- `RT_I2C_IGNORE_NACK` -/
def rtI2cIgnoreNack : UInt16 := (1 : UInt16) <<< 5

/-- `RT_I2C_NO_READ_ACK` -/
def rtI2cNoReadAck : UInt16 := (1 : UInt16) <<< 6

/-- `RT_I2C_NO_STOP` -/
def rtI2cNoStop : UInt16 := (1 : UInt16) <<< 7

/-- `struct rt_i2c_bit_ops`, with the tick counter of the kernel. `polls` is the fuel of the wait for
the clock line. -/
structure RtI2cBitOps (σ : Type) where
  setSda : Bool → Prog σ Unit
  setScl : Bool → Prog σ Unit
  getSda : Prog σ Bool
  getScl : Prog σ Bool
  udelay : Nat → Prog σ Unit
  delayUs : Nat
  timeout : UInt32
  rtTickGet : Prog σ UInt32
  polls : Nat

namespace RtI2cBitOps

variable {σ : Type} (ops : RtI2cBitOps σ)

/-- `i2c_delay` -/
def i2cDelay : Prog σ Unit := ops.udelay ((ops.delayUs + 1) >>> 1)

/-- `i2c_delay2` -/
def i2cDelay2 : Prog σ Unit := ops.udelay ops.delayUs

/-- `SDA_L` -/
def sdaL : Prog σ Unit := ops.setSda false

/-- `SDA_H` -/
def sdaH : Prog σ Unit := ops.setSda true

/-- `SCL_L` -/
def sclL : Prog σ Unit := ops.setScl false

/-- The loop of `SCL_H`, and the delay behind it. -/
def waitScl (start : UInt32) : Nat → Prog σ Int
  | 0 => failure
  | n + 1 => do
      if ← ops.getScl then
        ops.i2cDelay
        return 0
      else if (← ops.rtTickGet) - start > ops.timeout then return -rtEtimeout
      else
        ops.i2cDelay
        waitScl start n

/-- `SCL_H` -/
def sclH : Prog σ Int := do
  ops.setScl true
  let start ← ops.rtTickGet
  ops.waitScl start ops.polls

/-- `i2c_start` -/
def i2cStart : Prog σ Unit := do
  ops.sdaL
  ops.i2cDelay
  ops.sclL

/-- `i2c_restart` -/
def i2cRestart : Prog σ Unit := do
  ops.sdaH
  let _ ← ops.sclH
  ops.i2cDelay
  ops.sdaL
  ops.i2cDelay
  ops.sclL

/-- `i2c_stop` -/
def i2cStop : Prog σ Unit := do
  ops.sdaL
  ops.i2cDelay
  let _ ← ops.sclH
  ops.i2cDelay
  ops.sdaH
  ops.i2cDelay2

/-- `i2c_waitack` -/
def i2cWaitack : Prog σ Int := do
  ops.sdaH
  ops.i2cDelay
  if (← ops.sclH) < 0 then return -rtEtimeout
  else
    let ack := !(← ops.getSda)
    ops.sclL
    return if ack then 1 else 0

/-- The loop of `i2c_writeb` from bit `i - 1` down. -/
def writeBits (data : UInt8) : Nat → Prog σ Int
  | 0 => return 0
  | i + 1 => do
      ops.sclL
      ops.setSda (data.toNat.testBit i)
      ops.i2cDelay
      if (← ops.sclH) < 0 then return -rtEtimeout
      else writeBits data i

/-- `i2c_writeb` -/
def i2cWriteb (data : UInt8) : Prog σ Int := do
  if (← ops.writeBits data 8) < 0 then return -rtEtimeout
  else
    ops.sclL
    ops.i2cDelay
    ops.i2cWaitack

/-- The loop of `i2c_readb` for `n` more bits. -/
def readBits : Nat → UInt8 → Prog σ Int
  | 0, data => return data.toNat
  | n + 1, data => do
      let data := data <<< 1
      if (← ops.sclH) < 0 then return -rtEtimeout
      else
        let data := if ← ops.getSda then data ||| 1 else data
        ops.sclL
        ops.i2cDelay2
        readBits n data

/-- `i2c_readb` -/
def i2cReadb : Prog σ Int := do
  ops.sdaH
  ops.i2cDelay
  ops.readBits 8 0

/-- `i2c_send_ack_or_nack` -/
def i2cSendAckOrNack (ack : Int) : Prog σ Int := do
  if ack ≠ 0 then ops.sdaL
  ops.i2cDelay
  if (← ops.sclH) < 0 then return -rtEtimeout
  else
    ops.sclL
    return 0

end RtI2cBitOps

/-- What the upper half uses of the lower one. -/
structure Link (σ : Type) where
  start : Prog σ Unit
  restart : Prog σ Unit
  stop : Prog σ Unit
  delay2 : Prog σ Unit
  writeb : UInt8 → Prog σ Int
  readb : Prog σ Int
  sendAckOrNack : Int → Prog σ Int

/-- The functions that move the lines. -/
def RtI2cBitOps.link {σ : Type} (ops : RtI2cBitOps σ) : Link σ where
  start := ops.i2cStart
  restart := ops.i2cRestart
  stop := ops.i2cStop
  delay2 := ops.i2cDelay2
  writeb := ops.i2cWriteb
  readb := ops.i2cReadb
  sendAckOrNack := ops.i2cSendAckOrNack

/-- `struct rt_i2c_msg`; the length is that of the buffer, and its field has 16 bits. -/
structure RtI2cMsg where
  addr : UInt16
  flags : UInt16
  buf : List UInt8
  fits : buf.length < 2 ^ 16
  deriving DecidableEq, Repr

/-- `msg->flags & flag` -/
def RtI2cMsg.has (msg : RtI2cMsg) (flag : UInt16) : Bool := msg.flags &&& flag ≠ 0

/-- `msg->len` -/
def RtI2cMsg.len (msg : RtI2cMsg) : Int := msg.buf.length

namespace Link

variable {σ : Type} (link : Link σ)

/-- The loop of `i2c_send_bytes` with `bytes` sent so far. -/
def sendLoop (ignoreNack : Bool) : List UInt8 → Int → Prog σ Int
  | [], bytes => return bytes
  | b :: rest, bytes => do
      let ret ← link.writeb b
      if 0 < ret ∨ (ignoreNack ∧ ret = 0) then sendLoop ignoreNack rest (bytes + 1)
      else if ret = 0 then return 0
      else return ret

/-- `i2c_send_bytes` -/
def i2cSendBytes (msg : RtI2cMsg) : Prog σ Int := link.sendLoop (msg.has rtI2cIgnoreNack) msg.buf 0

/-- The loop of `i2c_recv_bytes` over what is left of the buffer, with `bytes` received so far. The
result comes with the contents of that part of the buffer. -/
def recvLoop (noReadAck : Bool) : List UInt8 → Int → Prog σ (Int × List UInt8)
  | [], bytes => return (bytes, [])
  | old :: rest, bytes => do
      let val ← link.readb
      if 0 ≤ val then
        let byte := UInt8.ofNat val.toNat
        if noReadAck then
          let (ret, buf) ← recvLoop noReadAck rest (bytes + 1)
          return (ret, byte :: buf)
        else
          let val ← link.sendAckOrNack rest.length
          if val < 0 then return (val, byte :: rest)
          else
            let (ret, buf) ← recvLoop noReadAck rest (bytes + 1)
            return (ret, byte :: buf)
      else return (bytes, old :: rest)

/-- `i2c_recv_bytes` -/
def i2cRecvBytes (msg : RtI2cMsg) : Prog σ (Int × List UInt8) :=
  link.recvLoop (msg.has rtI2cNoReadAck) msg.buf 0

/-- The loop of `i2c_send_address` with `n` retries left. -/
def sendAddressLoop (addr : UInt8) : Nat → Prog σ Int
  | 0 => link.writeb addr
  | n + 1 => do
      let ret ← link.writeb addr
      if ret = 1 then return ret
      else
        link.stop
        link.delay2
        link.start
        sendAddressLoop addr n

/-- `i2c_send_address` -/
def i2cSendAddress (addr : UInt8) (retries : Int) : Prog σ Int :=
  if retries < 0 then return 0 else link.sendAddressLoop addr retries.toNat

/-- `addr1` of a 10-bit address. -/
def addr1 (addr : UInt16) : UInt8 := ((0xf0 : UInt16) ||| ((addr >>> 7) &&& 0x06)).toUInt8

/-- `i2c_bit_send_address`; `retries` is the field of the bus. -/
def i2cBitSendAddress (retries : UInt32) (msg : RtI2cMsg) : Prog σ Int :=
  let ignoreNack := msg.has rtI2cIgnoreNack
  let retries := if ignoreNack then 0 else retries.toInt32.toInt
  if msg.has rtI2cAddr10bit then do
    let addr1 := addr1 msg.addr
    let addr2 := (msg.addr &&& 0xff).toUInt8
    let ret ← link.i2cSendAddress addr1 retries
    if ret ≠ 1 ∧ !ignoreNack then return -rtEio
    else
      let ret ← link.writeb addr2
      if ret ≠ 1 ∧ !ignoreNack then return -rtEio
      else if msg.has rtI2cRd then
        link.restart
        let ret ← link.i2cSendAddress (addr1 ||| 0x01) retries
        if ret ≠ 1 ∧ !ignoreNack then return -rtEio else return 0
      else return 0
  else do
    let addr1 := (msg.addr <<< 1).toUInt8
    let addr1 := if msg.has rtI2cRd then addr1 ||| 1 else addr1
    let ret ← link.i2cSendAddress addr1 retries
    if ret ≠ 1 ∧ !ignoreNack then return -rtEio else return 0

/-- The start condition and the address in the body of the loop of `i2c_bit_xfer`, for message `i`. -/
def xferAddress (retries : UInt32) (i : Nat) (msg : RtI2cMsg) : Prog σ Int :=
  if msg.has rtI2cNoStart then return 0
  else do
    if i ≠ 0 then link.restart else link.start
    link.i2cBitSendAddress retries msg

/-- The body of the loop of `i2c_bit_xfer`: the code with which it goes to `out`, if it does, and the
contents of the buffer. -/
def xferMsg (retries : UInt32) (i : Nat) (msg : RtI2cMsg) :
    Prog σ (Option Int × List UInt8) := do
  let ret ← link.xferAddress retries i msg
  if ret ≠ 0 ∧ !msg.has rtI2cIgnoreNack then return (some ret, msg.buf)
  else if msg.has rtI2cRd then
    let (ret, buf) ← link.i2cRecvBytes msg
    if ret < msg.len then return (some (if 0 ≤ ret then -rtEio else ret), buf)
    else return (none, buf)
  else
    let ret ← link.i2cSendBytes msg
    if ret < msg.len then return (some (if 0 ≤ ret then -rtError else ret), msg.buf)
    else return (none, msg.buf)

/-- `out:` of `i2c_bit_xfer`, where `msg` is the message that the loop was at. -/
def xferOut (msg : RtI2cMsg) : Prog σ Unit := if msg.has rtI2cNoStop then return else link.stop

/-- The loop of `i2c_bit_xfer` from message `i` on, and the code behind `out`. -/
def xferLoop (retries : UInt32) : Nat → RtI2cMsg → List RtI2cMsg → Prog σ (Int × List (List UInt8))
  | i, msg, [] => do
      let (err, buf) ← link.xferMsg retries i msg
      link.xferOut msg
      return (err.getD (i + 1), [buf])
  | i, msg, next :: rest => do
      let (err, buf) ← link.xferMsg retries i msg
      match err with
      | some ret => do
          link.xferOut msg
          return (ret, buf :: next.buf :: rest.map RtI2cMsg.buf)
      | none => do
          let (ret, bufs) ← xferLoop retries (i + 1) next rest
          return (ret, buf :: bufs)

/-- `i2c_bit_xfer`: what it returns, and the contents of the buffers of the messages. -/
def i2cBitXfer (retries : UInt32) : List RtI2cMsg → Prog σ (Int × List (List UInt8))
  | [] => return (0, [])
  | msg :: rest => link.xferLoop retries 0 msg rest

end Link

end SwmLvgl.I2c
