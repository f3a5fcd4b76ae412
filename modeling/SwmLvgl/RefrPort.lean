import SwmLvgl.RefrRun

/-! The display port under LVGL. `disp_flush` copies exactly the area that it is given, so that after every
refresh the framebuffer holds the picture of the scene, for every resolution that the LCD device may report. -/

namespace SwmLvgl.Refr

open Disp Memory

/-- The driver that `lv_port_disp_init` registers: two draw buffers of the size of the default screen, and full
refreshes where the screen is not larger. -/
def lvPortDispDrv (info : RtDeviceGraphicInfo) : Driver :=
  Driver.lvDispDrvRegister
    { horRes := info.drv.horRes
      verRes := info.drv.verRes
      offsetX := 0
      offsetY := 0
      size := myDispHorRes * myDispVerRes
      buf2 := true
      directMode := false
      fullRefresh := true
      swRotate := false
      rotated := .none }

/-- The port with the pixels of an area in memory, from `colorP` on. -/
def withPixels (q : Port) (colorP : Nat) (area : LvArea) (px : Nat → LvColor) : Port :=
  { q with mem := fun a =>
      if colorP ≤ a ∧ a < colorP + area.height * area.width then some (px (a - colorP)) else q.mem a }

/-- `disp_flush` as the flush callback. -/
def portFlush (info : RtDeviceGraphicInfo) (colorP : Nat) : FlushCb Port Disp.Fault LvColor := fun q area px =>
  (withPixels q colorP area px).dispFlush info.drv area colorP

/-- The port when it has found the LCD device: the framebuffer is accessible, and apart from the pixels. -/
structure PortReady (info : RtDeviceGraphicInfo) (fb colorP : Nat) (q : Port) : Prop where
  dev : q.lcdDev = true
  lcdInfo : q.lcdInfo = info
  framebuffer : q.fb = some fb
  enabled : q.dispFlushEnabled = true
  screen : Accessible q.mem fb info.drv.pixels
  apart : Apart fb info.drv.pixels colorP info.drv.pixels

/-- A pixel of the framebuffer; off the screen there is none. -/
def framePixel (info : RtDeviceGraphicInfo) (fb : Nat) (q : Port) (p : Int × Int) : LvColor :=
  if (0 ≤ p.1 ∧ p.1 < info.drv.horRes) ∧ 0 ≤ p.2 ∧ p.2 < info.drv.verRes then
    (q.mem (fb + p.2.toNat * info.drv.horRes.toNat + p.1.toNat)).getD 0
  else 0

section Port

variable {info : RtDeviceGraphicInfo} {fb colorP : Nat} {q q' : Port} {area : LvArea} {px : Nat → LvColor}

theorem lvPortDispDrv_ok (hx : 0 < info.drv.horRes) (hy : 0 < info.drv.verRes) : (lvPortDispDrv info).Ok := by
  obtain ⟨hhor, hver⟩ := lcdInfo_range info
  have hw := (hhor hx).2
  have hh := hver hy
  refine ⟨⟨hx, hy⟩, ⟨Int.le_refl 0, Int.le_refl 0⟩, ?_, ?_, fun hwhole => ?_, nofun, nofun, nofun⟩
  · constructor
    · show info.drv.horRes + 0 < 2 ^ 15
      omega
    · show info.drv.verRes + 0 < 2 ^ 15
      omega
  · show info.drv.horRes ≤ ((myDispHorRes * myDispVerRes : Nat) : Int)
    have hsize : myDispHorRes * myDispVerRes = 130560 := rfl
    omega
  · have hfull := hwhole.resolve_right nofun
    have hnot : ¬(myDispHorRes * myDispVerRes) < u32 (info.drv.horRes * info.drv.verRes) := by
      simpa [lvPortDispDrv, Driver.lvDispDrvRegister] using hfull
    show info.drv.horRes * info.drv.verRes ≤ ((myDispHorRes * myDispVerRes : Nat) : Int)
    have hle : info.drv.horRes * info.drv.verRes ≤ 2 ^ 15 * 2 ^ 15 := Int.mul_le_mul (by omega) (by omega) (by omega)
      (by decide)
    have hpos : 0 < info.drv.horRes * info.drv.verRes := Int.mul_pos hx hy
    rw [u32_of_lt (by omega) (by omega)] at hnot
    omega

/-- What `disp_flush` leaves as it is. -/
theorem dispFlush_frame {drv : LvDispDrv} (h : q.dispFlush drv area colorP = .ok q') :
    q'.lcdDev = q.lcdDev ∧ q'.lcdInfo = q.lcdInfo ∧ q'.fb = q.fb ∧ q'.dispFlushEnabled = q.dispFlushEnabled := by
  rw [Port.dispFlush] at h
  split at h
  · cases h
    exact ⟨rfl, rfl, rfl, rfl⟩
  · split at h
    · cases hm : q.flushScreen drv colorP with
      | error e =>
          rw [hm] at h
          cases h
      | ok m =>
          rw [hm] at h
          by_cases hdev : q.lcdDev = true
          · simp only [bind, Except.bind, Port.rectUpdate, hdev, if_true] at h
            cases h
            exact ⟨hdev.symm, rfl, rfl, rfl⟩
          · simp only [bind, Except.bind, Port.rectUpdate, hdev, if_false, Bool.false_eq_true] at h
            cases h
    · split at h
      · cases h
        exact ⟨rfl, rfl, rfl, rfl⟩
      · next fb' _ =>
        cases hm : q.flushRows fb' area colorP with
        | error e =>
            rw [hm] at h
            cases h
        | ok r =>
            rw [hm] at h
            cases h
            exact ⟨rfl, rfl, rfl, rfl⟩

theorem area_pixels_le (hx : 0 ≤ area.x1 ∧ area.x1 ≤ area.x2 ∧ area.x2 < info.drv.horRes)
    (hy : 0 ≤ area.y1 ∧ area.y1 ≤ area.y2 ∧ area.y2 < info.drv.verRes) :
    area.height * area.width ≤ info.drv.pixels := by
  refine Nat.mul_le_mul ?_ ?_
  · unfold LvArea.height
    omega
  · unfold LvArea.width
    omega

theorem PortReady.fits (h : PortReady info fb colorP q)
    (hx : 0 ≤ area.x1 ∧ area.x1 ≤ area.x2 ∧ area.x2 < info.drv.horRes)
    (hy : 0 ≤ area.y1 ∧ area.y1 ≤ area.y2 ∧ area.y2 < info.drv.verRes) :
    Fits (withPixels q colorP area px) area colorP := by
  have hinfo : (withPixels q colorP area px).lcdInfo = info := h.lcdInfo
  have hsize := area_pixels_le hx hy
  have hfb : ∀ fb', (withPixels q colorP area px).fb = some fb' → fb' = fb := by
    intro fb' hfb'
    have hfb' : q.fb = some fb' := hfb'
    rw [h.framebuffer] at hfb'
    cases hfb'
    rfl
  refine ⟨by rwa [hinfo], by rwa [hinfo], fun i hi => ?_, fun fb' hfb' i hi => ?_, fun fb' hfb' => ?_⟩
  · show (if _ then _ else _ : Option LvColor).isSome = true
    rw [if_pos ⟨Nat.le_add_right _ _, Nat.add_lt_add_left hi _⟩]
    rfl
  · rw [hfb fb' hfb']
    show (if _ then _ else _ : Option LvColor).isSome = true
    split
    · rfl
    · rw [hinfo] at hi
      exact h.screen i hi
  · rw [hfb fb' hfb', hinfo]
    exact h.apart.imp_right fun hle => by omega

theorem withPixels_mem {a : Nat} : (withPixels q colorP area px).mem a =
    if colorP ≤ a ∧ a < colorP + area.height * area.width then some (px (a - colorP)) else q.mem a := rfl

/-- The cells of the framebuffer are its pixels. -/
theorem framebuffer_cell {i : Nat} (hi : i < info.drv.pixels) : ∃ x y, i = y * info.drv.horRes.toNat + x ∧
    x < info.drv.horRes.toNat ∧ y < info.drv.verRes.toNat := by
  rw [LvDispDrv.pixels] at hi
  have hpos : 0 < info.drv.horRes.toNat := by
    by_contra hzero
    rw [Nat.eq_zero_of_not_pos hzero, Nat.mul_zero] at hi
    omega
  refine ⟨i % info.drv.horRes.toNat, i / info.drv.horRes.toNat, (Nat.div_add_mod' i _).symm, Nat.mod_lt _ hpos, ?_⟩
  exact Nat.div_lt_of_lt_mul (by rwa [Nat.mul_comm])

theorem cell_lt {x y : Nat} (hx : x < info.drv.horRes.toNat) (hy : y < info.drv.verRes.toNat) :
    y * info.drv.horRes.toNat + x < info.drv.pixels := by
  calc y * info.drv.horRes.toNat + x < (y + 1) * info.drv.horRes.toNat := by
        rw [Nat.succ_mul]
        omega
    _ ≤ info.drv.pixels := Nat.mul_le_mul_right _ hy

theorem framePixel_natCast {x y : Nat} (hx : x < info.drv.horRes.toNat) (hy : y < info.drv.verRes.toNat) :
    framePixel info fb q (x, y) = (q.mem (fb + y * info.drv.horRes.toNat + x)).getD 0 := by
  rw [framePixel, if_pos (by dsimp only; omega)]
  rfl

theorem framePixel_off {p : Int × Int}
    (h : ¬((0 ≤ p.1 ∧ p.1 < info.drv.horRes) ∧ 0 ≤ p.2 ∧ p.2 < info.drv.verRes)) : framePixel info fb q p = 0 :=
  if_neg h

/-- The cells of the framebuffer hold its pixels. -/
theorem PortReady.mem_cell (h : PortReady info fb colorP q) {x y : Nat} (hx : x < info.drv.horRes.toNat)
    (hy : y < info.drv.verRes.toNat) :
    q.mem (fb + y * info.drv.horRes.toNat + x) = some (framePixel info fb q (x, y)) := by
  obtain ⟨v, hv⟩ := Option.isSome_iff_exists.mp (h.screen _ (cell_lt hx hy))
  rw [← Nat.add_assoc] at hv
  rw [framePixel_natCast hx hy, hv]
  rfl

theorem mem_points_natCast {x y : Nat} : ((x : Int), (y : Int)) ∈ area.points ↔ area.Contains x y := by
  unfold LvArea.Contains
  rw [LvArea.mem_points]
  exact ⟨fun h => ⟨h.1.1, h.1.2, h.2.1, h.2.2⟩, fun h => ⟨⟨h.1, h.2.1⟩, h.2.2.1, h.2.2.2⟩⟩

/-- The flush is exact, for every area of the screen. -/
theorem portFlush_spec (h : PortReady info fb colorP q)
    (hx : 0 ≤ area.x1 ∧ area.x1 ≤ area.x2 ∧ area.x2 < info.drv.horRes)
    (hy : 0 ≤ area.y1 ∧ area.y1 ≤ area.y2 ∧ area.y2 < info.drv.verRes) (px : Nat → LvColor) :
    ∃ q', portFlush info colorP q area px = .ok q' ∧ PortReady info fb colorP q' ∧ ∀ p,
      framePixel info fb q' p = if p ∈ area.points then px (pixelIndex area p) else framePixel info fb q p := by
  have hfits := @PortReady.fits info fb colorP q area px h hx hy
  let q₁ := withPixels q colorP area px
  have hinfo : q₁.lcdInfo = info := h.lcdInfo
  obtain ⟨q', hq', hflushed⟩ : ∃ q', q₁.dispFlush q₁.lcdInfo.drv area colorP = .ok q' ∧
      Disp.Flushed q₁ area colorP q' := by
    by_cases hfull : FullScreen q₁.lcdInfo.drv area
    · exact hfits.dispFlush_screen h.enabled hfull h.dev
    · exact hfits.dispFlush_area (.inr hfull)
  obtain ⟨hdev, hinfo', hfb, henabled⟩ := dispFlush_frame hq'
  have hblitted := hflushed.drawn h.enabled fb h.framebuffer
  rw [hinfo] at hblitted hq'
  have hcell : ∀ x y : Nat, x < info.drv.horRes.toNat → y < info.drv.verRes.toNat →
      q'.mem (fb + y * info.drv.horRes.toNat + x) =
        some (if ((x : Int), (y : Int)) ∈ area.points then px (pixelIndex area (x, y))
          else framePixel info fb q (x, y)) := by
    intro x y hxlt hylt
    by_cases hin : area.Contains x y
    · have hlt : pixelIndex area (x, y) < area.height * area.width :=
        pixelIndex_lt (mem_points_natCast.mpr hin)
      rw [if_pos (mem_points_natCast.mpr hin), hblitted.inside x y hin, Nat.add_assoc, withPixels_mem,
        if_pos ⟨Nat.le_add_right _ _, Nat.add_lt_add_left hlt _⟩, Nat.add_sub_cancel_left]
      rfl
    · have hlt := cell_lt hxlt hylt
      have hsize := area_pixels_le hx hy
      have hapart := h.apart
      unfold Apart at hapart
      rw [if_neg (mt mem_points_natCast.mp hin), hblitted.outside x hxlt y hylt hin, withPixels_mem,
        if_neg (by omega), h.mem_cell hxlt hylt]
  refine ⟨q', hq', ⟨hdev.trans h.dev, hinfo'.trans h.lcdInfo, hfb.trans h.framebuffer, henabled.trans h.enabled,
    fun i hi => ?_, h.apart⟩, fun p => ?_⟩
  · obtain ⟨x, y, rfl, hxlt, hylt⟩ := framebuffer_cell hi
    rw [← Nat.add_assoc, hcell x y hxlt hylt]
    rfl
  · by_cases hrange : (0 ≤ p.1 ∧ p.1 < info.drv.horRes) ∧ 0 ≤ p.2 ∧ p.2 < info.drv.verRes
    · obtain ⟨x, hx'⟩ := Int.eq_ofNat_of_zero_le hrange.1.1
      obtain ⟨y, hy'⟩ := Int.eq_ofNat_of_zero_le hrange.2.1
      obtain rfl : p = ((x : Int), (y : Int)) := Prod.ext hx' hy'
      dsimp only at hrange
      rw [framePixel_natCast (by omega) (by omega), hcell x y (by omega) (by omega)]
      rfl
    · rw [framePixel_off hrange, framePixel_off hrange, if_neg]
      rw [LvArea.mem_points]
      omega

/-- The port as a panel. -/
def portPanel (info : RtDeviceGraphicInfo) (fb colorP : Nat) :
    Panel (lvPortDispDrv info) Port Disp.Fault LvColor where
  flush := portFlush info colorP
  Ready := PortReady info fb colorP
  shows := framePixel info fb
  exact := by
    intro q a px hq ha
    have hshift : (lvPortDispDrv info).shift a = a := by
      show (⟨a.x1 + 0, a.y1 + 0, a.x2 + 0, a.y2 + 0⟩ : LvArea) = a
      simp only [Int.add_zero]
    rw [hshift]
    exact portFlush_spec hq ha.x ha.y px

end Port

end SwmLvgl.Refr
