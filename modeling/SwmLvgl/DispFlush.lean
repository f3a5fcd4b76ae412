import SwmLvgl.FlatMemory
import SwmLvgl.PmModel

/-! The display port of LVGL (`lv_port_disp.c`) in the build that copies pixels: the initialisation
from the LCD device and `disp_flush`. Addresses count pixels of type `lv_color_t`. A pixel outside the
accessible memory and a failed assertion of `rt_device_control`, which stops the thread in
`rt_assert_handler`, are faults. -/

namespace SwmLvgl.Disp

open Memory
open Pm (lvCoord lvCoord_of_range)

/-- `lv_color_t` with `LV_COLOR_DEPTH` 16. -/
abbrev LvColor := UInt16

/-- `sizeof(lv_color_t)` -/
def sizeofLvColor : Nat := 2

/-- `MY_DISP_HOR_RES` -/
def myDispHorRes : Nat := 480

/-- `MY_DISP_VER_RES` -/
def myDispVerRes : Nat := 272

/-- The part of `struct rt_device_graphic_info` that the port uses. -/
structure RtDeviceGraphicInfo where
  width : UInt16
  height : UInt16
  framebuffer : Option Nat

/-- `struct rt_device_rect_info` -/
structure RtDeviceRectInfo where
  x : UInt16
  y : UInt16
  width : UInt16
  height : UInt16

/-- `lv_area_t` -/
structure LvArea where
  x1 : Int
  y1 : Int
  x2 : Int
  y2 : Int

/-- The resolution in `lv_disp_drv_t`. -/
structure LvDispDrv where
  horRes : Int
  verRes : Int

/-- The device that `rt_device_find` returns: whether it can be opened, and what it answers to
`RTGRAPHIC_CTRL_GET_INFO`. -/
structure LcdDevice where
  opens : Bool
  info : Option RtDeviceGraphicInfo

inductive Fault where
  | memory
  | assertion
  deriving DecidableEq, Repr

/-- The statics of `lv_port_disp.c` (`lcdDev` says whether the pointer is set), the memory, the
rectangles that the device was told to update and the number of calls of `lv_disp_flush_ready`; the
last two only record the run. -/
structure Port where
  lcdDev : Bool
  lcdInfo : RtDeviceGraphicInfo
  fb : Option Nat
  dispFlushEnabled : Bool
  mem : Mem LvColor
  updates : List RtDeviceRectInfo
  ready : Nat

/-- Conversion to `uint32_t` or `size_t`. -/
def u32 (z : Int) : Nat := (z % 2 ^ 32).toNat

/-- `memcpy` between pixels. -/
def memcpy (dst src bytes : Nat) (m : Mem LvColor) : Except Fault (Mem LvColor) :=
  copy .memory dst src (bytes / sizeofLvColor) m

/-- The resolution that `lv_port_disp_init` sets. -/
def RtDeviceGraphicInfo.drv (info : RtDeviceGraphicInfo) : LvDispDrv where
  horRes := if info.width ≠ 0 then lvCoord info.width.toNat else myDispHorRes
  verRes := if info.height ≠ 0 then lvCoord info.height.toNat else myDispVerRes

/-- `lcd_info.width ? lcd_info.width : MY_DISP_HOR_RES` -/
def RtDeviceGraphicInfo.stride (info : RtDeviceGraphicInfo) : Nat :=
  if info.width ≠ 0 then info.width.toNat else myDispHorRes

/-- The area is the whole screen. -/
def FullScreen (drv : LvDispDrv) (area : LvArea) : Prop :=
  area.x1 = 0 ∧ area.y1 = 0 ∧ area.x2 = drv.horRes - 1 ∧ area.y2 = drv.verRes - 1

instance (drv : LvDispDrv) (area : LvArea) : Decidable (FullScreen drv area) :=
  inferInstanceAs (Decidable (_ ∧ _ ∧ _ ∧ _))

namespace Port

/-- `disp_init` -/
def dispInit (dev : Option LcdDevice) (s : Port) : Port :=
  match dev with
  | none => { s with lcdDev := false }
  | some d =>
      let s := { s with lcdDev := true }
      if d.opens = false then s
      else
        match d.info with
        | none => s
        | some info => { s with lcdInfo := info, fb := info.framebuffer }

/-- `lv_port_disp_init`, up to the registration of the driver. -/
def lvPortDispInit (dev : Option LcdDevice) (s : Port) : LvDispDrv × Port :=
  let s := s.dispInit dev
  (s.lcdInfo.drv, s)

/-- `lv_disp_flush_ready` -/
def lvDispFlushReady (s : Port) : Port := { s with ready := s.ready + 1 }

/-- `rt_device_control(lcd_dev, RTGRAPHIC_CTRL_RECT_UPDATE, &full)` -/
def rectUpdate (full : RtDeviceRectInfo) (s : Port) : Except Fault Port :=
  -- RT_ASSERT(dev != RT_NULL)
  if s.lcdDev then .ok { s with updates := s.updates ++ [full] } else .error .assertion

/-- The body of the loop over the rows of the area, on the memory and `color_p`. -/
def flushRow (fb stride w : Nat) (area : LvArea) (s : Mem LvColor × Nat) (j : Nat) :
    Except Fault (Mem LvColor × Nat) := do
  let y : Int := area.y1 + j
  let dst := fb + (u32 y * stride + u32 area.x1) % 2 ^ 32
  let m ← memcpy dst s.2 (w * sizeofLvColor % 2 ^ 32) s.1
  return (m, s.2 + w)

/-- The loop over the rows of the area. -/
def flushRows (fb : Nat) (area : LvArea) (colorP : Nat) (s : Port) :
    Except Fault (Mem LvColor × Nat) :=
  let w := u32 (area.x2 - area.x1 + 1)
  Run.run (flushRow fb s.lcdInfo.stride w area) (s.mem, colorP)
    (List.range (area.y2 - area.y1 + 1).toNat)

/-- The copy of a whole screen. -/
def flushScreen (drv : LvDispDrv) (colorP : Nat) (s : Port) : Except Fault (Mem LvColor) :=
  match s.fb with
  | none => .ok s.mem
  | some fb =>
      if fb ≠ colorP then
        let bytes := u32 drv.horRes * u32 drv.verRes % 2 ^ 32 * sizeofLvColor % 2 ^ 32
        memcpy fb colorP bytes s.mem
      else .ok s.mem

/-- `disp_flush` -/
def dispFlush (drv : LvDispDrv) (area : LvArea) (colorP : Nat) (s : Port) : Except Fault Port :=
  if s.dispFlushEnabled = false then .ok s.lvDispFlushReady
  else if FullScreen drv area then do
    let m ← s.flushScreen drv colorP
    let full : RtDeviceRectInfo := ⟨0, 0, UInt16.ofInt drv.horRes, UInt16.ofInt drv.verRes⟩
    let s ← { s with mem := m }.rectUpdate full
    return s.lvDispFlushReady
  else
    match s.fb with
    | none => .ok s.lvDispFlushReady
    | some fb => do
        let (m, _) ← s.flushRows fb area colorP
        return { s with mem := m }.lvDispFlushReady

/-- Before `lv_port_disp_init`. -/
def boot (mem : Mem LvColor) : Port where
  lcdDev := false
  lcdInfo := ⟨0, 0, none⟩
  fb := none
  dispFlushEnabled := true
  mem := mem
  updates := []
  ready := 0

end Port

end SwmLvgl.Disp
