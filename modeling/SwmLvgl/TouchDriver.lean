import SwmLvgl.CArray
import SwmLvgl.RunSteps

/-! The GT9147 touch driver (`gt9147.c`): a poll reads the status register and the point registers and
writes events into the slots of the caller's buffer, one slot for each track id. The driver keeps, for
each id, whether it is down and its last point, and the ids of the last frame. An index outside an array
is a fault. -/

namespace SwmLvgl.Touch

/-- `GT9147_MAX_TOUCH` -/
abbrev gt9147MaxTouch : Nat := 5

/-- `RT_TOUCH_EVENT_NONE` -/
def rtTouchEventNone : UInt8 := 0

/-- `RT_TOUCH_EVENT_UP` -/
def rtTouchEventUp : UInt8 := 1

/-- `RT_TOUCH_EVENT_DOWN` -/
def rtTouchEventDown : UInt8 := 2

/-- `RT_TOUCH_EVENT_MOVE` -/
def rtTouchEventMove : UInt8 := 3

/-- `struct rt_touch_data` -/
structure RtTouchData where
  event : UInt8
  trackId : UInt8
  width : UInt8
  xCoordinate : UInt16
  yCoordinate : UInt16
  timestamp : UInt32
  deriving DecidableEq, Repr, Inhabited

/-- The caller's buffer of five slots. -/
abbrev Slots := Vector RtTouchData gt9147MaxTouch

/-- The bytes of the point registers, eight for each point. -/
abbrev ReadBuf := Vector UInt8 (8 * gt9147MaxTouch)

inductive Fault where
  | slot (id : Int8)
  | preId (i : Nat)
  | readBuf (i : Nat)
  deriving DecidableEq, Repr

/-- The statics of the driver. -/
structure Gt9147 where
  preX : Vector Int16 gt9147MaxTouch
  preY : Vector Int16 gt9147MaxTouch
  preW : Vector Int16 gt9147MaxTouch
  sTpDowm : Vector UInt8 gt9147MaxTouch
  preTouch : UInt8
  preId : Vector Int8 gt9147MaxTouch
  deriving DecidableEq, Repr

def Gt9147.init : Gt9147 where
  preX := Vector.replicate _ (-1)
  preY := Vector.replicate _ (-1)
  preW := Vector.replicate _ (-1)
  sTpDowm := Vector.replicate _ 0
  preTouch := 0
  preId := Vector.replicate _ 0

/-- The statics and the buffer that `read_data` points to. -/
structure Reading where
  gt : Gt9147
  readData : Slots
  deriving DecidableEq, Repr

/-- What the transfers of a poll return: the status register, and the point registers where
`gt9147_read_regs` is asked for `5 * 8` bytes; none where a transfer fails. -/
structure Bus where
  status : Option UInt8
  points : Option ReadBuf

/-- `id` as an index of the per-id arrays and of the buffer, which all have five entries. -/
def slotOf (id : Int8) : Except Fault (Fin gt9147MaxTouch) :=
  if h : 0 ≤ id.toInt ∧ id.toInt.toNat < gt9147MaxTouch then .ok ⟨id.toInt.toNat, h.2⟩
  else .error (.slot id)

namespace Reading

/-- The body of `gt9147_touch_up` -/
def up (ts : UInt32) (id : Int8) (k : Fin gt9147MaxTouch) (r : Reading) : Reading :=
  let down := r.gt.sTpDowm.get k
  { gt := { r.gt with
      sTpDowm := if down = 1 then r.gt.sTpDowm.set k 0 else r.gt.sTpDowm
      preX := r.gt.preX.set k (-1)
      preY := r.gt.preY.set k (-1)
      preW := r.gt.preW.set k (-1) }
    readData := r.readData.set k {
      event := if down = 1 then rtTouchEventUp else rtTouchEventNone
      timestamp := ts
      width := (r.gt.preW.get k).toUInt16.toUInt8
      xCoordinate := (r.gt.preX.get k).toUInt16
      yCoordinate := (r.gt.preY.get k).toUInt16
      trackId := id.toUInt8 } }

/-- `gt9147_touch_up` -/
def gt9147TouchUp (ts : UInt32) (id : Int8) (r : Reading) : Except Fault Reading := do
  let k ← slotOf id
  return r.up ts id k

/-- The body of `gt9147_touch_down` -/
def down (ts : UInt32) (id : Int8) (k : Fin gt9147MaxTouch) (x y w : Int16) (r : Reading) :
    Reading :=
  let down := r.gt.sTpDowm.get k
  { gt := { r.gt with
      sTpDowm := if down = 1 then r.gt.sTpDowm else r.gt.sTpDowm.set k 1
      preX := r.gt.preX.set k x
      preY := r.gt.preY.set k y
      preW := r.gt.preW.set k w }
    readData := r.readData.set k {
      event := if down = 1 then rtTouchEventMove else rtTouchEventDown
      timestamp := ts
      width := w.toUInt16.toUInt8
      xCoordinate := x.toUInt16
      yCoordinate := y.toUInt16
      trackId := id.toUInt8 } }

/-- `gt9147_touch_down` -/
def gt9147TouchDown (ts : UInt32) (id : Int8) (x y w : Int16) (r : Reading) :
    Except Fault Reading := do
  let k ← slotOf id
  return r.down ts id k x y w

end Reading

/-- `read_buf[i]` -/
def byteAt (readBuf : ReadBuf) (i : Nat) : Except Fault UInt8 :=
  match CArray.get readBuf i with
  | some b => .ok b
  | none => .error (.readBuf i)

/-- `read_buf[off] & 0x0f` -/
def readId (readBuf : ReadBuf) (off : Nat) : Except Fault Int8 := do
  let b ← byteAt readBuf off
  return (b &&& 0x0f).toInt8

/-- `read_buf[i] | (read_buf[i + 1] << 8)`, stored in an `int16_t`. -/
def readWord (readBuf : ReadBuf) (i : Nat) : Except Fault Int16 := do
  let lo ← byteAt readBuf i
  let hi ← byteAt readBuf (i + 1)
  return (lo.toUInt16 ||| hi.toUInt16 <<< 8).toInt16

namespace Reading

/-- `pre_id[i]` -/
def preId (r : Reading) (i : Nat) : Except Fault Int8 :=
  match CArray.get r.gt.preId i with
  | some id => .ok id
  | none => .error (.preId i)

/-- `pre_id[i] = id` -/
def setPreId (r : Reading) (i : Nat) (id : Int8) : Except Fault Reading :=
  match CArray.set r.gt.preId i id with
  | some ids => .ok { r with gt := { r.gt with preId := ids } }
  | none => .error (.preId i)

/-- The inner loop of the search for lifted ids, over the points `j` still to be compared: the id is
lifted after the last of the `touchNum` points, unless the loop has met it before. -/
def upScan (ts : UInt32) (readBuf : ReadBuf) (touchNum readIndex : Nat) :
    List Nat → Reading → Except Fault Reading
  | [], r => .ok r
  | j :: rest, r => do
      let readId ← readId readBuf (j * 8)
      let preId ← r.preId readIndex
      if preId = readId then return r
      else if (j : Int) ≥ touchNum - 1 then do
        let preId ← r.preId readIndex
        let upId := preId.toUInt8
        let r ← r.gt9147TouchUp ts upId.toInt8
        upScan ts readBuf touchNum readIndex rest r
      else upScan ts readBuf touchNum readIndex rest r

/-- The body of the loop that enters the points of the frame. -/
def pointDown (ts : UInt32) (readBuf : ReadBuf) (r : Reading) (readIndex : Nat) :
    Except Fault Reading := do
  let offSet := readIndex * 8
  let id ← readId readBuf offSet
  let r ← r.setPreId readIndex id
  let inputX ← readWord readBuf (offSet + 1)
  let inputY ← readWord readBuf (offSet + 3)
  let inputW ← readWord readBuf (offSet + 5)
  r.gt9147TouchDown ts id inputX inputY inputW

/-- The body of the loop that lifts the ids of the last frame when the new one is empty. -/
def pointUp (ts : UInt32) (r : Reading) (readIndex : Nat) : Except Fault Reading := do
  let id ← r.preId readIndex
  r.gt9147TouchUp ts id

/-- The part of `gt9147_read_point` under `if (pre_touch > touch_num)`. -/
def liftMissing (ts : UInt32) (readBuf : ReadBuf) (touchNum : UInt8) (r : Reading) :
    Except Fault Reading :=
  if r.gt.preTouch > touchNum then
    Run.run (fun r i => upScan ts readBuf touchNum.toNat i (List.range touchNum.toNat) r) r
      (List.range r.gt.preTouch.toNat)
  else .ok r

/-- The part of `gt9147_read_point` under `if (touch_num)` and its `else`. -/
def enterFrame (ts : UInt32) (readBuf : ReadBuf) (touchNum : UInt8) (r : Reading) :
    Except Fault Reading :=
  if touchNum ≠ 0 then Run.run (pointDown ts readBuf) r (List.range touchNum.toNat)
  else if r.gt.preTouch ≠ 0 then Run.run (pointUp ts) r (List.range r.gt.preTouch.toNat)
  else .ok r

/-- `gt9147_read_point` once the point registers have been read. -/
def frame (ts : UInt32) (readBuf : ReadBuf) (touchNum : UInt8) (r : Reading) :
    Except Fault Reading := do
  let r ← r.liftMissing ts readBuf touchNum
  let r ← r.enterFrame ts readBuf touchNum
  return { r with gt := { r.gt with preTouch := touchNum } }

/-- `gt9147_read_point` for five points. The write that clears the status register has no effect on
the driver. -/
def gt9147ReadPoint (bus : Bus) (ts : UInt32) (r : Reading) : Except Fault (Nat × Reading) :=
  match bus.status with
  | none => .ok (0, r)
  | some pointStatus =>
      if pointStatus = 0 then .ok (0, r)
      else if pointStatus &&& 0x80 = 0 then .ok (0, r)
      else
        let touchNum := pointStatus &&& 0x0f
        if touchNum.toNat > gt9147MaxTouch then .ok (0, r)
        else
          match bus.points with
          | none => .ok (0, r)
          | some readBuf => do
              let r ← r.frame ts readBuf touchNum
              return (gt9147MaxTouch, r)

end Reading

end SwmLvgl.Touch
