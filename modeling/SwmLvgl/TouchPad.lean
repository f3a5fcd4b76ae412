import SwmLvgl.PmModel
import SwmLvgl.TouchDriver

/-! The touchpad of LVGL (`lv_port_indev.c`) over the touch driver: `touchpad_read` polls the driver and
reports whether the pad is pressed, and where. -/

namespace SwmLvgl.Touch

open Pm (lvCoord)

/-- `lv_indev_state_t` -/
inductive LvIndevState where
  | rel
  | pr
  deriving DecidableEq, Repr

/-- The part of `lv_indev_data_t` that `touchpad_read` writes. -/
structure LvIndevData where
  state : LvIndevState
  point : Int × Int
  deriving DecidableEq, Repr

/-- The statics of `lv_port_indev.c`; `tpDev` says whether the touch device was found. -/
structure Indev where
  tpDev : Bool
  tpPoints : Slots
  tpDataReady : Bool
  lastX : Int
  lastY : Int
  tpPressed : Bool
  lastEventTick : UInt32
  deriving DecidableEq, Repr

def Indev.init (tpDev : Bool) : Indev where
  tpDev := tpDev
  tpPoints := Vector.replicate _ default
  tpDataReady := false
  lastX := 0
  lastY := 0
  tpPressed := false
  lastEventTick := 0

/-- `rt_tick_from_millisecond` at 1000 ticks a second. -/
def rtTickFromMillisecond (ms : Int) : UInt32 := if ms < 0 then -1 else UInt32.ofInt ms

/-- `TP_RELEASE_TIMEOUT_MS` -/
def tpReleaseTimeoutMs : Int := 80

/-- The slot that the first loop of `touchpad_read` stops at with a pressed point. -/
def scanDown (points : Slots) : List (Fin gt9147MaxTouch) → Option (Fin gt9147MaxTouch)
  | [] => none
  | i :: rest =>
      if (points.get i).event = rtTouchEventDown ∨ (points.get i).event = rtTouchEventMove then some i
      else if (points.get i).event = rtTouchEventNone then none
      else scanDown points rest

/-- Whether the second loop of `touchpad_read` meets a lifted point. -/
def scanUp (points : Slots) : List (Fin gt9147MaxTouch) → Bool
  | [] => false
  | i :: rest =>
      if (points.get i).event = rtTouchEventUp then true
      else if (points.get i).event = rtTouchEventNone then false
      else scanUp points rest

namespace Indev

/-- The part of `touchpad_read` under `if(tp_dev)`, where `rt_device_read` returns `readn` and leaves
`points` in `tp_points`. -/
def refresh (readn : Int) (points : Slots) (tick : UInt32) (s : Indev) : Indev :=
  let s := { s with tpPoints := points }
  let s := if readn > 0 then { s with tpDataReady := true } else s
  if s.tpDataReady then
    let s :=
      match scanDown s.tpPoints (List.finRange gt9147MaxTouch) with
      | some idx =>
          { s with
            lastX := lvCoord (s.tpPoints.get idx).xCoordinate.toNat
            lastY := lvCoord (s.tpPoints.get idx).yCoordinate.toNat
            tpPressed := true
            lastEventTick := tick }
      | none =>
          if scanUp s.tpPoints (List.finRange gt9147MaxTouch) then
            { s with tpPressed := false, lastEventTick := tick }
          else s
    { s with tpDataReady := false }
  else if s.tpPressed then
    if rtTickFromMillisecond tpReleaseTimeoutMs < tick - s.lastEventTick then
      { s with tpPressed := false }
    else s
  else s

/-- What `touchpad_read` writes to `data`. -/
def report (s : Indev) : LvIndevData where
  state := if s.tpPressed then .pr else .rel
  point := (s.lastX, s.lastY)

/-- `touchpad_read`; the arguments but the last only matter where the device was found. -/
def touchpadRead (readn : Int) (points : Slots) (tick : UInt32) (s : Indev) : LvIndevData × Indev :=
  let s := if s.tpDev then s.refresh readn points tick else s
  (s.report, s)

end Indev

/-- The driver, the touchpad, and what it has reported last. -/
structure Panel where
  gt : Gt9147
  indev : Indev
  data : LvIndevData

/-- A poll: what the bus returns, the time stamp of the driver, and the tick. -/
structure Poll where
  bus : Bus
  ts : UInt32
  tick : UInt32

/-- `touchpad_read` polling the driver with `rt_device_read`. -/
def poll (s : Panel) (p : Poll) : Except Fault Panel := do
  let (readn, r) ←
    if s.indev.tpDev then Reading.gt9147ReadPoint p.bus p.ts ⟨s.gt, s.indev.tpPoints⟩
    else .ok (0, ⟨s.gt, s.indev.tpPoints⟩)
  let (data, indev) := s.indev.touchpadRead readn r.readData p.tick
  return ⟨r.gt, indev, data⟩

/-- The touchpad after `touchpad_init`, before the first poll. -/
def Panel.init (tpDev : Bool) : Panel :=
  ⟨Gt9147.init, Indev.init tpDev, (Indev.init tpDev).report⟩

end SwmLvgl.Touch
