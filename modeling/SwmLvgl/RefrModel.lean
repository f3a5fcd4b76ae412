import SwmLvgl.RefrRotate
import SwmLvgl.RefrScene

/-! The refresh of a display (`lv_refr.c`): areas are invalidated, joined, drawn part by part into the draw
buffers and flushed to the panel, whose driver tells with an interrupt when it has taken the pixels over. What
the panel does with an area of pixels is a parameter. -/

namespace SwmLvgl.Refr

open Disp
open Pm (lvCoord)

/-- `lv_disp_rot_t` -/
inductive LvDispRot where
  | none
  | rot90
  | rot180
  | rot270
  deriving DecidableEq, Repr

/-- The part of `lv_disp_drv_t` and of its `lv_disp_draw_buf_t` that does not change. -/
structure Driver where
  horRes : Int
  verRes : Int
  offsetX : Int
  offsetY : Int
  /-- the size of the draw buffers in pixels -/
  size : Nat
  /-- whether there is a second draw buffer -/
  buf2 : Bool
  directMode : Bool
  fullRefresh : Bool
  swRotate : Bool
  rotated : LvDispRot

/-- `LV_INV_BUF_SIZE` -/
def lvInvBufSize : Nat := 32

/-- `LV_DISP_ROT_MAX_BUF` -/
def lvDispRotMaxBuf : Nat := 10 * 1024

inductive Fault (ε : Type) where
  /-- pixels outside the draw buffer -/
  | overflow
  /-- pixels of a draw buffer that the panel is still reading, or a second area for it -/
  | race
  /-- a loop that is never left -/
  | hang
  | panel (e : ε)

/-- What the panel makes of the pixels of an area. -/
abbrev FlushCb (σ ε γ : Type) := σ → LvArea → (Nat → γ) → Except ε σ

/-- An area that the panel has been given: its pixels are in one of the draw buffers, or in the buffer for the
rotation, from `start` on. -/
structure Transfer where
  area : LvArea
  source : Option Bool
  start : Nat

/-- The display: `lv_disp_t` with the changing part of the draw buffer, the panel and what is on the screens. Of
the two draw buffers `true` is `buf2`. `interrupts` says at which of the coming points the interrupt of the
panel comes; `flushes` records the calls of the flush callback with `flushing_last`. -/
structure LvDisp (σ γ μ : Type) where
  panel : σ
  scene : Scene γ μ
  buf : Bool → Nat → γ
  rotBuf : Nat → γ
  bufAct : Bool
  flushing : Bool
  transfer : Option Transfer
  flushingLast : Bool
  lastArea : Bool
  lastPart : Bool
  invAreas : Nat → LvArea
  invAreaJoined : Nat → Bool
  invP : Nat
  invEnCnt : Int
  syncAreas : List LvArea
  renderingInProgress : Bool
  interrupts : List Bool
  flushes : List (LvArea × Bool)

/-- The performance monitor creates its label on the sys layer, or changes the text of it: the objects
afterwards, and the areas that this invalidates. -/
structure Relabel (γ μ : Type) where
  scene : Scene γ μ
  areas : List LvArea

namespace Driver

variable (d : Driver)

/-- `lv_disp_get_hor_res` -/
def lvDispGetHorRes : Int := if d.rotated = .rot90 ∨ d.rotated = .rot270 then d.verRes else d.horRes

/-- `lv_disp_get_ver_res` -/
def lvDispGetVerRes : Int := if d.rotated = .rot90 ∨ d.rotated = .rot270 then d.horRes else d.verRes

/-- The area of the screen. -/
def screen : LvArea := ⟨0, 0, lvCoord (d.lvDispGetHorRes - 1), lvCoord (d.lvDispGetVerRes - 1)⟩

/-- `full_sized` -/
def fullSized : Bool := decide (d.size = u32 (d.horRes * d.verRes))

/-- The check in `lv_disp_drv_register`. -/
def lvDispDrvRegister : Driver :=
  { d with fullRefresh := d.fullRefresh && !decide (d.size < u32 (d.horRes * d.verRes)) }

/-- `get_max_row` -/
def getMaxRow (areaW areaH : Int) : Int :=
  let maxRow : Int := d.size / areaW
  if maxRow > areaH then areaH else maxRow

/-- The rows of a part on the panel after a quarter of a turn, in `draw_buf_rotate`. -/
def rotateRows (area : LvArea) (areaW : Int) : Int × Int :=
  if d.rotated = .rot90 then
    let y2 := lvCoord (d.verRes - area.x1 - 1)
    (lvCoord (y2 - areaW + 1), y2)
  else (area.x1, lvCoord (area.x1 + areaW - 1))

end Driver

/-- The pixel of a buffer for a pixel of the area. -/
def pixelIndex (a : LvArea) (p : Int × Int) : Nat := (p.2 - a.y1).toNat * a.width + (p.1 - a.x1).toNat

/-- The pixel of the area for a pixel of a buffer. -/
def pixelAt (a : LvArea) (i : Nat) : Int × Int := (a.x1 + (i % a.width : Nat), a.y1 + (i / a.width : Nat))

variable {σ ε γ μ : Type}

namespace LvDisp

variable (d : Driver) (flush : FlushCb σ ε γ) (s : LvDisp σ γ μ)

/-- The pixels that the panel reads. -/
def pixels (t : Transfer) : Nat → γ := fun i => (t.source.elim s.rotBuf s.buf) (t.start + i)

/-- `lv_disp_flush_ready` -/
def lvDispFlushReady : LvDisp σ γ μ := { s with flushing := false, flushingLast := false }

/-- The panel takes over the pixels, and its interrupt calls `lv_disp_flush_ready`. -/
def complete : Except (Fault ε) (LvDisp σ γ μ) :=
  match s.transfer with
  | none => .ok s
  | some t =>
      match flush s.panel t.area (s.pixels t) with
      | .error e => .error (.panel e)
      | .ok q => .ok { s with panel := q, transfer := none }.lvDispFlushReady

/-- A point at which the interrupt may come. -/
def interrupt : Except (Fault ε) (LvDisp σ γ μ) :=
  match s.interrupts with
  | [] => .ok s
  | b :: bs => if b then { s with interrupts := bs }.complete flush else .ok { s with interrupts := bs }

/-- `while(draw_buf->flushing)` -/
def waitFlushing : Except (Fault ε) (LvDisp σ γ μ) :=
  if s.flushing then if s.transfer.isSome then s.complete flush else .error .hang else .ok s

/-- `call_flush_cb` -/
def callFlushCb (area : LvArea) (source : Option Bool) (start : Nat) : Except (Fault ε) (LvDisp σ γ μ) :=
  if s.transfer.isSome then .error .race
  else
    let offsetArea : LvArea := ⟨lvCoord (area.x1 + d.offsetX), lvCoord (area.y1 + d.offsetY),
      lvCoord (area.x2 + d.offsetX), lvCoord (area.y2 + d.offsetY)⟩
    { s with
      transfer := some ⟨offsetArea, source, start⟩
      flushes := s.flushes ++ [(offsetArea, s.flushingLast)] }.interrupt flush

/-- The pixels of the active draw buffer from `start` on. -/
def setPixels (start : Nat) (px : Nat → γ) : LvDisp σ γ μ :=
  { s with buf := Function.update s.buf s.bufAct fun i =>
      if start ≤ i then px (i - start) else s.buf s.bufAct i }

/-- `draw_buf_rotate_180` and the flush after it. -/
def flushRotated180 (area : LvArea) : Except (Fault ε) (LvDisp σ γ μ) :=
  match drawBufRotate180 (area.height * area.width) (s.buf s.bufAct) with
  | none => .error .hang
  | some px =>
      let area : LvArea := ⟨lvCoord (d.horRes - area.x2 - 1), lvCoord (d.verRes - area.y2 - 1),
        lvCoord (d.horRes - area.x1 - 1), lvCoord (d.verRes - area.y1 - 1)⟩
      (s.setPixels 0 px).callFlushCb d flush area (some s.bufAct) 0

/-- The rows are turned: a square in the buffer itself, others into the buffer for the rotation. -/
def turnRows (is270 square : Bool) (areaW height : Int) (colorP : Nat) : Except (Fault ε) (LvDisp σ γ μ) :=
  let px : Nat → γ := fun i => s.buf s.bufAct (colorP + i)
  if square then .ok (s.setPixels colorP (drawBufRotate90Sqr is270 areaW.toNat px))
  else if lvDispRotMaxBuf / sizeofLvColor < (areaW * height).toNat then .error .overflow
  else .ok { s with rotBuf := drawBufRotate90 is270 areaW.toNat height.toNat px s.rotBuf }

/-- A pass of the loop of `draw_buf_rotate` over the rows, on `row`, `color_p`, whether `rot_buf` is there, and
the display. `y1` and `y2` are the rows of the area on the panel, `initYOff` was its first row. -/
def rotateChunk (areaW areaH y1 y2 initYOff : Int) (maxRow : Int) (st : Int × Nat × Bool × LvDisp σ γ μ) :
    Except (Fault ε) (Int × Nat × Bool × LvDisp σ γ μ) := do
  let (row, colorP, rotBuf, s) := st
  let square := decide (row = 0 ∧ areaH ≥ areaW)
  let height := if square then areaW else min maxRow (areaH - row)
  let rotBuf := rotBuf || !square
  let is270 := decide (d.rotated = .rot270)
  let s ← { s with flushing := true }.turnRows is270 square areaW height colorP
  let area : LvArea :=
    if d.rotated = .rot90 then ⟨lvCoord (initYOff + row), y1, lvCoord (initYOff + row + height - 1), y2⟩
    else
      let x2 := lvCoord (d.horRes - 1 - initYOff - row)
      ⟨lvCoord (x2 - height + 1), y1, x2, y2⟩
  let s := { s with flushingLast := decide (row + height ≥ areaH) && s.lastArea && s.lastPart }
  let s ← s.callFlushCb d flush area (if rotBuf then none else some s.bufAct) (if rotBuf then 0 else colorP)
  let s ← s.waitFlushing flush
  return (lvCoord (row + height), colorP + (areaW * height).toNat, rotBuf, s)

/-- The loop over the rows. -/
def rotateStep (areaW areaH y1 y2 initYOff : Int) (maxRow : Int) (st : Int × Nat × Bool × LvDisp σ γ μ) :
    (Int × Nat × Bool × LvDisp σ γ μ) ⊕ Except (Fault ε) (LvDisp σ γ μ) :=
  if st.1 < areaH then
    match rotateChunk d flush areaW areaH y1 y2 initYOff maxRow st with
    | .error e => .inr (.error e)
    | .ok st => .inl st
  else .inr (.ok st.2.2.2)

/-- `draw_buf_rotate`, for a quarter of a turn. -/
def flushRotated90 (area : LvArea) : Except (Fault ε) (LvDisp σ γ μ) :=
  let areaW := area.getWidth
  let areaH := area.getHeight
  let maxRow := min (lvCoord ((lvDispRotMaxBuf / sizeofLvColor : Nat) / areaW)) areaH
  let rows := d.rotateRows area areaW
  let step := rotateStep d flush areaW areaH rows.1 rows.2 area.y1 maxRow
  match Loop.run step (areaH.toNat + 1) (0, 0, false, s) with
  | none => .error .hang
  | some r => r

/-- `draw_buf_rotate` -/
def drawBufRotate (area : LvArea) : Except (Fault ε) (LvDisp σ γ μ) :=
  if d.fullRefresh && d.swRotate then .ok s
  else
    match d.rotated with
    | .none => .ok s
    | .rot180 => s.flushRotated180 d flush area
    | _ => s.flushRotated90 d flush area

/-- `draw_buf_flush` -/
def drawBufFlush (bufArea : LvArea) : Except (Fault ε) (LvDisp σ γ μ) := do
  let s ← (if d.buf2 && !d.fullSized then s.waitFlushing flush else .ok s)
  let flushingLast := s.lastArea && s.lastPart
  let s := { s with flushing := true, flushingLast := flushingLast }
  let s ←
    (if d.rotated ≠ .none ∧ d.swRotate then s.drawBufRotate d flush bufArea
    else s.callFlushCb d flush bufArea (some s.bufAct) 0)
  return if d.buf2 && (!d.directMode || flushingLast) then { s with bufAct := !s.bufAct } else s

/-! ### Drawing -/

/-- The objects are drawn into the active draw buffer. -/
def draw (bufArea clip : LvArea) : Except (Fault ε) (LvDisp σ γ μ) :=
  if d.size < bufArea.height * bufArea.width then .error .overflow
  else if s.transfer.any fun t => t.source = some s.bufAct then .error .race
  else
    let canvas := s.scene.render bufArea clip fun p => s.buf s.bufAct (pixelIndex bufArea p)
    .ok { s with buf := Function.update s.buf s.bufAct fun i =>
      if i < bufArea.height * bufArea.width then canvas (pixelAt bufArea i) else s.buf s.bufAct i }

/-- `refr_area_part` -/
def refrAreaPart (bufArea clip : LvArea) : Except (Fault ε) (LvDisp σ γ μ) := do
  let s ← s.interrupt flush
  let s ← (if !d.buf2 || d.fullSized then s.waitFlushing flush else .ok s)
  let s ← s.draw d bufArea clip
  let s ← s.interrupt flush
  s.drawBufFlush d flush bufArea

/-- The loop of `refr_area`, on `row`, `row_last` and the display. -/
def refrAreaStep (area : LvArea) (y2 maxRow : Int) (st : Int × Int × LvDisp σ γ μ) :
    (Int × Int × LvDisp σ γ μ) ⊕ Except (Fault ε) (Int × Int × LvDisp σ γ μ) :=
  let (row, _, s) := st
  if row + maxRow - 1 ≤ y2 then
    let sub : LvArea := ⟨area.x1, row, area.x2, lvCoord (row + maxRow - 1)⟩
    let sub := if sub.y2 > y2 then { sub with y2 := y2 } else sub
    let s := if y2 = sub.y2 then { s with lastPart := true } else s
    match s.refrAreaPart d flush sub sub with
    | .error e => .inr (.error e)
    | .ok s => .inl (lvCoord (row + maxRow), sub.y2, s)
  else .inr (.ok st)

/-- `refr_area` -/
def refrArea (area : LvArea) : Except (Fault ε) (LvDisp σ γ μ) :=
  if d.fullRefresh then { s with lastPart := true }.refrAreaPart d flush d.screen d.screen
  else if d.directMode then { s with lastPart := s.lastArea }.refrAreaPart d flush d.screen area
  else
    let y2 := if area.y2 ≥ d.lvDispGetVerRes then lvCoord (d.lvDispGetVerRes - 1) else area.y2
    let maxRow := d.getMaxRow area.getWidth area.getHeight
    match Loop.run (refrAreaStep d flush area y2 maxRow) (area.height + 1) (area.y1, 0, s) with
    | none => .error .hang
    | some (.error e) => .error e
    | some (.ok (row, rowLast, s)) =>
        if y2 ≠ rowLast then
          let sub : LvArea := ⟨area.x1, row, area.x2, y2⟩
          { s with lastPart := true }.refrAreaPart d flush sub sub
        else .ok s

/-- The last area that will be drawn, in `refr_invalid_areas`. -/
def lastUnjoined : Nat := ((List.range s.invP).reverse.find? fun i => !s.invAreaJoined i).getD 0

/-- The body of the loop of `refr_invalid_areas`. -/
def refrInvalidArea (lastI : Nat) (s : LvDisp σ γ μ) (i : Nat) : Except (Fault ε) (LvDisp σ γ μ) :=
  if s.invAreaJoined i then .ok s
  else
    let s := { s with lastArea := decide (i = lastI) || s.lastArea, lastPart := false }
    s.refrArea d flush (s.invAreas i)

/-- `refr_invalid_areas` -/
def refrInvalidAreas : Except (Fault ε) (LvDisp σ γ μ) :=
  if s.invP = 0 then .ok s
  else do
    let s' := { s with lastArea := false, lastPart := false, renderingInProgress := true }
    let s' ← Run.run (refrInvalidArea d flush s.lastUnjoined) s' (List.range s.invP)
    return { s' with renderingInProgress := false }

/-- `_lv_inv_area`; none deletes the areas. -/
def lvInvArea (areaP : Option LvArea) : LvDisp σ γ μ :=
  if ¬s.invEnCnt > 0 then s
  else if s.renderingInProgress then s
  else
    match areaP with
    | none => { s with invP := 0 }
    | some area =>
        let (com, suc) := area.intersect d.screen
        if suc = false then s
        else if d.fullRefresh then { s with invAreas := Function.update s.invAreas 0 d.screen, invP := 1 }
        else if (List.range s.invP).any fun i => com.isIn (s.invAreas i) then s
        else if s.invP < lvInvBufSize then
          { s with invAreas := Function.update s.invAreas s.invP com, invP := s.invP + 1 }
        else { s with invAreas := Function.update s.invAreas 0 d.screen, invP := 1 }

/-- The objects change, and areas are invalidated. -/
def change (scene : Scene γ μ) (areas : List LvArea) : LvDisp σ γ μ :=
  areas.foldl (fun s area => s.lvInvArea d (some area)) { s with scene := scene }

/-- The body of the inner loop of `lv_refr_join_area`. -/
def joinFrom (joinIn : Nat) (s : LvDisp σ γ μ) (k : Nat) : LvDisp σ γ μ :=
  if s.invAreaJoined k || joinIn == k then s
  else if (s.invAreas joinIn).isOn (s.invAreas k) = false then s
  else
    let joined := (s.invAreas joinIn).join (s.invAreas k)
    if joined.getSize < u32 ((s.invAreas joinIn).getSize + (s.invAreas k).getSize) then
      { s with
        invAreas := Function.update s.invAreas joinIn joined
        invAreaJoined := Function.update s.invAreaJoined k true }
    else s

/-- `lv_refr_join_area` -/
def lvRefrJoinArea : LvDisp σ γ μ :=
  (List.range s.invP).foldl
    (fun s i => if s.invAreaJoined i then s else (List.range s.invP).foldl (joinFrom i) s) s

/-- The areas that have not been joined into others. -/
def unjoined : List LvArea := ((List.range s.invP).filter fun i => !s.invAreaJoined i).map s.invAreas

/-- The loop of `refr_sync_areas` over the areas to synchronize. -/
def syncWithout (sync : List LvArea) (inv : LvArea) : List LvArea :=
  sync.flatMap fun a => (a.diff inv).getD [a]

/-- `lv_draw_sw_buffer_copy` between buffers of the size of the screen. -/
def bufferCopy (area : LvArea) (dst src : Nat → γ) : Nat → γ := fun i =>
  if pixelAt d.screen i ∈ area.points then src i else dst i

/-- `refr_sync_areas` -/
def refrSyncAreas : Except (Fault ε) (LvDisp σ γ μ) :=
  if ¬d.directMode ∨ ¬d.buf2 ∨ s.syncAreas = [] then .ok s
  else if s.transfer.any fun t => t.source = some s.bufAct then .error .race
  else
    let sync := s.unjoined.foldl syncWithout s.syncAreas
    .ok { s with
      buf := Function.update s.buf s.bufAct
        (sync.foldl (fun dst area => bufferCopy d area dst (s.buf !s.bufAct)) (s.buf s.bufAct))
      syncAreas := [] }

/-- `_lv_disp_refr_timer`, from the layout update to the performance monitor. -/
def refrTimerDraw : Except (Fault ε) (LvDisp σ γ μ) := do
  let s := s.lvRefrJoinArea
  let s ← s.refrSyncAreas d
  let s ← s.refrInvalidAreas d flush
  return if s.invP ≠ 0 then
    { s with
      syncAreas := if d.directMode && d.buf2 then s.syncAreas ++ s.unjoined else s.syncAreas
      invAreas := fun _ => ⟨0, 0, 0, 0⟩
      invAreaJoined := fun _ => false
      invP := 0 }
    else s

/-- `_lv_disp_refr_timer`. Whether the performance monitor has something new to show, and what, depends on
the clock. -/
def lvDispRefrTimer (monitor : Option (Relabel γ μ)) : Except (Fault ε) (LvDisp σ γ μ) := do
  let s ← s.refrTimerDraw d flush
  return match monitor with
    | none => s
    | some m => s.change d m.scene m.areas

end LvDisp

end SwmLvgl.Refr
