import Mathlib.Algebra.Ring.Int.Defs
import Mathlib.Algebra.Ring.Nat
import SwmLvgl.CArray
import SwmLvgl.RegBits
import SwmLvgl.RunSteps

/-! The CAN driver (`drv_can.c`) with `CAN_Receive` of the library (`SWM341_can.c`): the acceptance
filters and the transfer of frames. The `FRAME` registers keep their low eight bits; a read of them
goes to the receive buffer and a write to the transmit buffer. An index outside an array is a fault. -/

namespace SwmLvgl.Can

open RegBits

/-- `RT_CAN_STDID` and `RT_CAN_EXTID`. -/
inductive Ide where
  | stdid
  | extid
  deriving DecidableEq, Repr

/-- `RT_CAN_DTR` and `RT_CAN_RTR`. -/
inductive Rtr where
  | dtr
  | rtr
  deriving DecidableEq, Repr

/-- The part of `struct rt_can_filter_item` that the driver uses. -/
structure RtCanFilterItem where
  id : BitVec 29
  ide : Ide
  mask : BitVec 32
  hdrBank : Int
  deriving DecidableEq, Repr

/-- The part of `struct rt_can_msg` that the driver uses. -/
structure RtCanMsg where
  id : BitVec 29
  ide : Ide
  rtr : Rtr
  len : BitVec 8
  data : Vector (BitVec 8) 8
  deriving DecidableEq, Repr

/-- `FRAME` in `CAN_TypeDef`. -/
structure Frame where
  info : BitVec 8
  data : Vector (BitVec 8) 12
  deriving DecidableEq, Repr

/-- The registers of `CAN_TypeDef` that the driver uses here, with the values written to `CMD`. -/
structure CanTypeDef where
  cr : BitVec 32
  cmd : List (BitVec 32)
  afm : BitVec 32
  afe : BitVec 32
  acr : Vector (BitVec 32) 16
  amr : Vector (BitVec 32) 16
  tx : Frame
  rx : Frame

/-- A controller with cleared registers. -/
def CanTypeDef.reset : CanTypeDef where
  cr := 0
  cmd := []
  afm := 0
  afe := 0
  acr := Vector.replicate 16 0
  amr := Vector.replicate 16 0
  tx := ⟨0, Vector.replicate 12 0⟩
  rx := ⟨0, Vector.replicate 12 0⟩

inductive Fault where
  | bank (i : Nat)
  | frame (i : Nat)
  | data (i : Nat)
  deriving DecidableEq, Repr

namespace CanTypeDef

/-- `CANx->ACR[i] = v` -/
def setAcr (i : Nat) (v : BitVec 32) (c : CanTypeDef) : Except Fault CanTypeDef :=
  match CArray.set c.acr i v with
  | some acr => .ok { c with acr := acr }
  | none => .error (.bank i)

/-- `CANx->AMR[i] = v` -/
def setAmr (i : Nat) (v : BitVec 32) (c : CanTypeDef) : Except Fault CanTypeDef :=
  match CArray.set c.amr i v with
  | some amr => .ok { c with amr := amr }
  | none => .error (.bank i)

end CanTypeDef

/-- `filter_idx` for the item at position `i`. -/
def RtCanFilterItem.filterIdx (item : RtCanFilterItem) (i : Nat) : Nat :=
  if item.hdrBank = -1 then i else (item.hdrBank % 2 ^ 32).toNat

namespace CanTypeDef

/-- The body of the loop of `RT_CAN_CMD_SET_FILTER`, for the item at position `i`. -/
def setFilterItem (c : CanTypeDef) : RtCanFilterItem × Nat → Except Fault CanTypeDef
  | (item, i) =>
      let filterIdx := item.filterIdx i
      let id : BitVec 32 := item.id.setWidth 32
      match item.ide with
      | .stdid => do
          let c := { c with afm := clrBit c.afm filterIdx }
          let c ← c.setAcr filterIdx (rev (id <<< 5))
          let c ← c.setAmr filterIdx (rev (~~~(item.mask <<< 5)))
          return { c with afe := setBit c.afe filterIdx }
      | .extid => do
          let c := { c with afm := setBit c.afm filterIdx }
          let c ← c.setAcr filterIdx (rev (id <<< 3))
          let c ← c.setAmr filterIdx (rev (~~~(item.mask <<< 3)))
          return { c with afe := setBit c.afe filterIdx }

/-- `swm_can_control` with `RT_CAN_CMD_SET_FILTER`; `arg` is none where the pointer is null. -/
def swmCanSetFilter (arg : Option (List RtCanFilterItem)) (c : CanTypeDef) : Except Fault CanTypeDef :=
  match arg with
  | none => .ok c
  | some items => Run.run setFilterItem c items.zipIdx

/-- `CANx->FRAME.DATA[i] = v` -/
def setData (i : Nat) (v : BitVec 32) (c : CanTypeDef) : Except Fault CanTypeDef :=
  match CArray.set c.tx.data i (v.setWidth 8) with
  | some data => .ok { c with tx := { c.tx with data := data } }
  | none => .error (.frame i)

/-- `CANx->FRAME.DATA[i]` -/
def getData (i : Nat) (c : CanTypeDef) : Except Fault (BitVec 32) :=
  match CArray.get c.rx.data i with
  | some v => .ok (v.setWidth 32)
  | none => .error (.frame i)

/-- `CANx->FRAME.INFO = (ff << CAN_INFO_FF_Pos) | (rtr << CAN_INFO_RTR_Pos) | (dlc << CAN_INFO_DLC_Pos)` -/
def setInfo (ff rtr dlc : BitVec 32) (c : CanTypeDef) : CanTypeDef :=
  { c with tx := { c.tx with info := (ff <<< 7 ||| rtr <<< 6 ||| dlc <<< 0).setWidth 8 } }

/-- `CANx->CMD = (1 << pos)` -/
def setCmd (pos : Nat) (c : CanTypeDef) : CanTypeDef := { c with cmd := c.cmd ++ [1#32 <<< pos] }

/-- `CANx->FRAME.DATA[i + off] = pmsg->data[i]` -/
def sendByte (msg : RtCanMsg) (off : Nat) (c : CanTypeDef) (i : Nat) : Except Fault CanTypeDef :=
  match CArray.get msg.data i with
  | some b => c.setData (i + off) (b.setWidth 32)
  | none => .error (.data i)

/-- The loop over the data bytes, and the request to send them: for self reception in the self test
mode, and else for transmission. -/
def sendData (msg : RtCanMsg) (off : Nat) (c : CanTypeDef) : Except Fault CanTypeDef := do
  let c ← Run.run (sendByte msg off) c (List.range msg.len.toNat)
  if c.cr.getLsbD 2 then return c.setCmd 4 else return c.setCmd 0

/-- `swm_can_sendmsg` -/
def swmCanSendmsg (msg : RtCanMsg) (c : CanTypeDef) : Except Fault CanTypeDef := do
  let id : BitVec 32 := msg.id.setWidth 32
  match msg.ide with
  | .stdid =>
      let c ← c.setData 0 (id >>> 3)
      let c ← c.setData 1 (id <<< 5)
      match msg.rtr with
      | .dtr =>
          let c := c.setInfo 0 0 (msg.len.setWidth 32)
          c.sendData msg 2
      | .rtr =>
          let c := c.setInfo 0 1 0
          return c.setCmd 0
  | .extid =>
      let c ← c.setData 0 (id >>> 21)
      let c ← c.setData 1 (id >>> 13)
      let c ← c.setData 2 (id >>> 5)
      let c ← c.setData 3 (id <<< 3)
      match msg.rtr with
      | .dtr =>
          let c := c.setInfo 1 0 (msg.len.setWidth 32)
          c.sendData msg 4
      | .rtr =>
          let c := c.setInfo 1 1 0
          return c.setCmd 0

end CanTypeDef

/-- `CAN_RXMessage` -/
structure CanRXMessage where
  id : BitVec 32
  format : BitVec 8
  remote : BitVec 8
  size : BitVec 8
  data : Vector (BitVec 8) 8

/-- `a[i] = b` for the data bytes of a message. -/
def setByte (a : Vector (BitVec 8) 8) (i : Nat) (b : BitVec 8) : Except Fault (Vector (BitVec 8) 8) :=
  match CArray.set a i b with
  | some a => .ok a
  | none => .error (.data i)

namespace CanTypeDef

/-- `msg->data[i] = CANx->FRAME.DATA[i + off]` -/
def receiveByte (off : Nat) (c : CanTypeDef) (data : Vector (BitVec 8) 8) (i : Nat) :
    Except Fault (Vector (BitVec 8) 8) := do
  let v ← c.getData (i + off)
  setByte data i (v.setWidth 8)

/-- `CAN_Receive`; `data` is what the message holds before. -/
def canReceive (data : Vector (BitVec 8) 8) (c : CanTypeDef) :
    Except Fault (CanRXMessage × CanTypeDef) := do
  let info : BitVec 32 := c.rx.info.setWidth 32
  let format := (info &&& 0x80) >>> 7
  let remote := (info &&& 0x40) >>> 6
  let size := (info &&& 0x0F) >>> 0
  let (id, off) ←
    if format = 0 then do
      let d0 ← c.getData 0
      let d1 ← c.getData 1
      pure (d0 <<< 3 ||| d1 >>> 5, 2)
    else do
      let d0 ← c.getData 0
      let d1 ← c.getData 1
      let d2 ← c.getData 2
      let d3 ← c.getData 3
      pure (d0 <<< 21 ||| d1 <<< 13 ||| d2 <<< 5 ||| d3 >>> 3, 4)
  let data ← Run.run (c.receiveByte off) data (List.range size.toNat)
  return (⟨id, format.setWidth 8, remote.setWidth 8, size.setWidth 8, data⟩, c.setCmd 2)

/-- `pmsg->data[i] = CAN_RXMsg.data[i]` -/
def copyByte (src : Vector (BitVec 8) 8) (data : Vector (BitVec 8) 8) (i : Nat) :
    Except Fault (Vector (BitVec 8) 8) :=
  match CArray.get src i with
  | some b => setByte data i b
  | none => .error (.data i)

/-- `swm_can_recvmsg` into the message `buf`; `stack` is what the local message holds before. -/
def swmCanRecvmsg (stack : Vector (BitVec 8) 8) (buf : RtCanMsg) (c : CanTypeDef) :
    Except Fault (RtCanMsg × CanTypeDef) := do
  let (msg, c) ← c.canReceive stack
  let data ← Run.run (copyByte msg.data) buf.data (List.range msg.size.toNat)
  return ({ id := msg.id.setWidth 29
            ide := if msg.format = 0 then .stdid else .extid
            rtr := if msg.remote = 0 then .dtr else .rtr
            len := msg.size
            data := data }, c)

end CanTypeDef

end SwmLvgl.Can
