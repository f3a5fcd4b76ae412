import SwmLvgl.DispFlush

/-! `disp_flush` as the copy of a rectangle. The row loop and the copy of a whole screen both leave the
memory that the two-dimensional picture asks for. The one thing in the way is that a whole screen is
also announced to the LCD device, which has to be there for that. -/

namespace SwmLvgl.Disp

open Memory
open Pm (lvCoord lvCoord_of_range)

def LvArea.width (area : LvArea) : Nat := (area.x2 - area.x1 + 1).toNat

def LvArea.height (area : LvArea) : Nat := (area.y2 - area.y1 + 1).toNat

/-- The pixels of the framebuffer. -/
def LvDispDrv.pixels (drv : LvDispDrv) : Nat := drv.verRes.toNat * drv.horRes.toNat

/-- What LVGL passes to `disp_flush`: a non-empty area of the screen and the pixels for it, which lie in
the accessible memory as the framebuffer does, and apart from it. -/
structure Fits (s : Port) (area : LvArea) (colorP : Nat) : Prop where
  x : 0 ≤ area.x1 ∧ area.x1 ≤ area.x2 ∧ area.x2 < s.lcdInfo.drv.horRes
  y : 0 ≤ area.y1 ∧ area.y1 ≤ area.y2 ∧ area.y2 < s.lcdInfo.drv.verRes
  source : Accessible s.mem colorP (area.height * area.width)
  screen : ∀ fb, s.fb = some fb → Accessible s.mem fb s.lcdInfo.drv.pixels
  apart : ∀ fb, s.fb = some fb → Apart fb s.lcdInfo.drv.pixels colorP (area.height * area.width)

theorem u32_of_lt {z : Int} (h : 0 ≤ z) (h' : z < 2 ^ 32) : u32 z = z.toNat := by
  rw [u32, Int.emod_eq_of_lt h h']

/-- A pixel count as bytes and back. -/
theorem pixels_bytes {n : Nat} (h : n < 2 ^ 31) :
    n * sizeofLvColor % 2 ^ 32 / sizeofLvColor = n := by
  rw [sizeofLvColor, Nat.mod_eq_of_lt (by omega), Nat.mul_div_cancel n (by omega)]

/-- A resolution is below 2^15 where it is positive, and then it is the stride. -/
theorem lcdInfo_range (info : RtDeviceGraphicInfo) :
    (0 < info.drv.horRes → info.drv.horRes = info.stride ∧ info.drv.horRes < 2 ^ 15) ∧
      (0 < info.drv.verRes → info.drv.verRes < 2 ^ 15) := by
  have hcoord : ∀ v : UInt16, 0 < lvCoord v.toNat → lvCoord v.toNat = v.toNat ∧ v.toNat < 2 ^ 15 := by
    intro v hpos
    by_contra hne
    have hv := v.toNat_lt
    by_cases hlt : v.toNat < 2 ^ 15
    · exact hne ⟨lvCoord_of_range (by omega) (by omega), hlt⟩
    · rw [lvCoord, Int.bmod_def] at hpos
      split at hpos <;> omega
  constructor
  · intro hpos
    simp only [RtDeviceGraphicInfo.drv, RtDeviceGraphicInfo.stride] at hpos ⊢
    by_cases hw : info.width ≠ 0
    · rw [if_pos hw] at hpos ⊢
      rw [if_pos hw]
      obtain ⟨heq, hlt⟩ := hcoord _ hpos
      exact ⟨heq, by omega⟩
    · rw [if_neg hw, if_neg hw]
      exact ⟨rfl, by decide⟩
  · intro hpos
    simp only [RtDeviceGraphicInfo.drv] at hpos ⊢
    by_cases hh : info.height ≠ 0
    · rw [if_pos hh] at hpos ⊢
      obtain ⟨heq, hlt⟩ := hcoord _ hpos
      omega
    · rw [if_neg hh]
      decide

section Paths

variable {s : Port} {area : LvArea} {colorP fb : Nat}

/-- The pixel of the framebuffer at the corner of the area. -/
def corner (s : Port) (area : LvArea) (fb : Nat) : Nat :=
  fb + area.y1.toNat * s.lcdInfo.stride + area.x1.toNat

/-- The geometry in natural numbers. -/
theorem Fits.nat (h : Fits s area colorP) :
    area.x1.toNat + area.width ≤ s.lcdInfo.stride ∧
      area.y1.toNat + area.height ≤ s.lcdInfo.drv.verRes.toNat ∧
      s.lcdInfo.drv.horRes.toNat = s.lcdInfo.stride ∧
      s.lcdInfo.stride < 2 ^ 15 ∧ s.lcdInfo.drv.verRes.toNat < 2 ^ 15 ∧ 0 < s.lcdInfo.drv.verRes := by
  obtain ⟨hx1, hx2, hx3⟩ := h.x
  obtain ⟨hy1, hy2, hy3⟩ := h.y
  obtain ⟨hhor, hver⟩ := lcdInfo_range s.lcdInfo
  obtain ⟨heq, hlt⟩ := hhor (by omega)
  have hlt' := hver (by omega)
  unfold LvArea.width LvArea.height
  omega

/-- A row of the area lies within the framebuffer. -/
theorem Fits.row_lt (h : Fits s area colorP) {j i : Nat} (hj : j < area.height) (hi : i < area.width) :
    (area.y1.toNat + j) * s.lcdInfo.stride + (area.x1.toNat + i) < s.lcdInfo.drv.pixels := by
  obtain ⟨hx, hy, heq, -⟩ := h.nat
  rw [LvDispDrv.pixels, heq]
  calc (area.y1.toNat + j) * s.lcdInfo.stride + (area.x1.toNat + i)
      < (area.y1.toNat + j) * s.lcdInfo.stride + s.lcdInfo.stride := by omega
    _ = (area.y1.toNat + j + 1) * s.lcdInfo.stride := (Nat.succ_mul _ _).symm
    _ ≤ s.lcdInfo.drv.verRes.toNat * s.lcdInfo.stride := Nat.mul_le_mul_right _ (by omega)

theorem Fits.pixels_lt (h : Fits s area colorP) : s.lcdInfo.drv.pixels < 2 ^ 30 := by
  obtain ⟨-, -, heq, hlt, hlt', hpos⟩ := h.nat
  have hver : 0 < s.lcdInfo.drv.verRes.toNat := by omega
  rw [LvDispDrv.pixels, heq]
  calc s.lcdInfo.drv.verRes.toNat * s.lcdInfo.stride
      < s.lcdInfo.drv.verRes.toNat * 2 ^ 15 := Nat.mul_lt_mul_of_pos_left hlt hver
    _ ≤ 2 ^ 15 * 2 ^ 15 := Nat.mul_le_mul_right _ hlt'.le

theorem corner_row (j : Nat) : corner s area fb + j * s.lcdInfo.stride =
    fb + ((area.y1.toNat + j) * s.lcdInfo.stride + area.x1.toNat) := by
  rw [corner, Nat.add_mul]
  omega

/-- A pass of the row loop. -/
theorem Fits.flushRow_eq (h : Fits s area colorP) {j : Nat} (hj : j < area.height) (m : Mem LvColor)
    (p : Nat) :
    Port.flushRow fb s.lcdInfo.stride area.width area (m, p) j =
      (copy .memory (corner s area fb + j * s.lcdInfo.stride) p area.width m).map
        fun m' => (m', p + area.width) := by
  obtain ⟨hx, hy, heq, hlt, hlt', -⟩ := h.nat
  obtain ⟨hx1, hx2, -⟩ := h.x
  obtain ⟨hy1, -, -⟩ := h.y
  have hwidth : 0 < area.width := by
    unfold LvArea.width
    omega
  have hrow := h.row_lt hj hwidth
  have hpixels := h.pixels_lt
  have hy : u32 (area.y1 + j) = area.y1.toNat + j := by
    rw [u32_of_lt (by omega) (by omega)]
    omega
  have hx : u32 area.x1 = area.x1.toNat := u32_of_lt hx1 (by omega)
  rw [Port.flushRow, hy, hx, corner_row]
  have hoff : ((area.y1.toNat + j) * s.lcdInfo.stride + area.x1.toNat) % 2 ^ 32 =
      (area.y1.toNat + j) * s.lcdInfo.stride + area.x1.toNat := Nat.mod_eq_of_lt (by omega)
  simp only [hoff, memcpy, pixels_bytes (show area.width < 2 ^ 31 by omega)]
  cases copy Fault.memory _ p area.width m <;> rfl

/-- The row loop copies the area. -/
theorem Fits.flushRows_spec (h : Fits s area colorP) (hfb : s.fb = some fb) :
    ∃ m p, s.flushRows fb area colorP = .ok (m, p) ∧
      RectCopied (corner s area fb) s.lcdInfo.stride colorP area.width area.height s.mem m := by
  obtain ⟨hx, hy, heq, hlt, hlt', -⟩ := h.nat
  have hw : u32 (area.x2 - area.x1 + 1) = area.width := by
    obtain ⟨hx1, hx2, -⟩ := h.x
    unfold LvArea.width at hx ⊢
    exact u32_of_lt (by omega) (by omega)
  have hstep : ∀ j < area.height, ∀ m,
      Port.flushRow fb s.lcdInfo.stride area.width area (m, colorP + j * area.width) j =
        (copy .memory (corner s area fb + j * s.lcdInfo.stride) (colorP + j * area.width)
          area.width m).map fun m' => (m', colorP + j * area.width + area.width) :=
    fun j hj m => h.flushRow_eq hj m _
  have hdst : ∀ j < area.height,
      Accessible s.mem (corner s area fb + j * s.lcdInfo.stride) area.width := by
    intro j hj i hi
    have hrow := h.row_lt hj hi
    rw [corner_row, Nat.add_assoc, Nat.add_assoc]
    exact h.screen fb hfb _ hrow
  have hapart : ∀ j < area.height, Apart (corner s area fb + j * s.lcdInfo.stride) area.width colorP
      (area.height * area.width) := by
    intro j hj
    have hall := h.apart fb hfb
    have hwidth : 0 < area.width := by
      obtain ⟨-, hx2, -⟩ := h.x
      unfold LvArea.width
      omega
    have hrow := h.row_lt hj (i := area.width - 1) (by omega)
    rw [corner_row]
    unfold Apart at hall ⊢
    omega
  obtain ⟨m, hm, hrect⟩ := copyRows_spec (by omega) hstep h.source hdst hapart
  exact ⟨m, _, by rw [Port.flushRows, hw]; exact hm, hrect⟩

/-- The whole screen as an area. -/
theorem Fits.fullScreen (h : Fits s area colorP) (hfull : FullScreen s.lcdInfo.drv area) :
    area.width = s.lcdInfo.stride ∧ area.height = s.lcdInfo.drv.verRes.toNat ∧
      corner s area fb = fb := by
  obtain ⟨hx1, hy1, hx2, hy2⟩ := hfull
  obtain ⟨-, -, heq, -⟩ := h.nat
  refine ⟨?_, ?_, ?_⟩
  · rw [LvArea.width, hx1, hx2, ← heq]
    omega
  · rw [LvArea.height, hy1, hy2]
    omega
  · rw [corner, hx1, hy1]
    simp

/-- The copy of the whole screen leaves the memory that the row loop would leave. -/
theorem Fits.flushScreen_spec (h : Fits s area colorP) (hfull : FullScreen s.lcdInfo.drv area)
    (hfb : s.fb = some fb) : ∃ m, s.flushScreen s.lcdInfo.drv colorP = .ok m ∧
      RectCopied (corner s area fb) s.lcdInfo.stride colorP area.width area.height s.mem m := by
  obtain ⟨hwidth, hheight, hcorner⟩ : _ ∧ _ ∧ corner s area fb = fb := h.fullScreen hfull
  obtain ⟨hx, hy, heq, hlt, hlt', hpos⟩ := h.nat
  have hpixels := h.pixels_lt
  have hsize : s.lcdInfo.drv.pixels = area.height * area.width := by
    rw [LvDispDrv.pixels, heq, hwidth, hheight]
  have hne : fb ≠ colorP := by
    have hrow := h.row_lt (j := 0) (i := 0) (by omega) (by
      obtain ⟨-, hx2, -⟩ := h.x
      unfold LvArea.width
      omega)
    have hall := h.apart fb hfb
    unfold Apart at hall
    omega
  have hbytes : u32 s.lcdInfo.drv.horRes * u32 s.lcdInfo.drv.verRes % 2 ^ 32 =
      area.height * area.width := by
    obtain ⟨hx1, hx2, hx3⟩ := h.x
    have hhor : u32 s.lcdInfo.drv.horRes = area.width := by
      rw [u32_of_lt (by omega) (by omega), heq, hwidth]
    have hver : u32 s.lcdInfo.drv.verRes = area.height := by
      rw [u32_of_lt (by omega) (by omega), hheight]
    rw [hhor, hver, Nat.mul_comm, ← hsize, Nat.mod_eq_of_lt (by omega)]
  have hscreen := h.screen fb hfb
  have hapart := h.apart fb hfb
  rw [hsize] at hscreen hapart hpixels
  obtain ⟨m, hm, hcopied⟩ := copy_spec Fault.memory h.source hscreen hapart
  refine ⟨m, ?_, ?_⟩
  · rw [Port.flushScreen, hfb]
    simp only [if_pos hne, hbytes, memcpy, pixels_bytes (show area.height * area.width < 2 ^ 31 by omega)]
    exact hm
  · rw [hcorner, ← hwidth]
    exact hcopied.rect

end Paths

/-! ### The picture -/

/-- The point lies in the area. -/
def LvArea.Contains (area : LvArea) (x y : Nat) : Prop :=
  area.x1 ≤ x ∧ x ≤ area.x2 ∧ area.y1 ≤ y ∧ y ≤ area.y2

instance (area : LvArea) (x y : Nat) : Decidable (area.Contains x y) :=
  inferInstanceAs (Decidable (_ ∧ _ ∧ _ ∧ _))

/-- The memory `m'` is `m` with the area of the framebuffer drawn from the pixels at `colorP`. -/
structure Blitted (drv : LvDispDrv) (area : LvArea) (colorP fb : Nat) (m m' : Mem LvColor) : Prop where
  inside : ∀ x y, area.Contains x y → m' (fb + y * drv.horRes.toNat + x) =
    m (colorP + (y - area.y1).toNat * area.width + (x - area.x1).toNat)
  outside : ∀ x < drv.horRes.toNat, ∀ y < drv.verRes.toNat, ¬area.Contains x y →
    m' (fb + y * drv.horRes.toNat + x) = m (fb + y * drv.horRes.toNat + x)
  frame : ∀ a, ¬(fb ≤ a ∧ a < fb + drv.pixels) → m' a = m a

theorem Fits.blitted {s : Port} {area : LvArea} {colorP fb : Nat} {m : Mem LvColor}
    (h : Fits s area colorP)
    (hrect : RectCopied (corner s area fb) s.lcdInfo.stride colorP area.width area.height s.mem m) :
    Blitted s.lcdInfo.drv area colorP fb s.mem m := by
  obtain ⟨hx, hy, heq, -⟩ := h.nat
  obtain ⟨hx1, -, -⟩ := h.x
  obtain ⟨hy1, -, -⟩ := h.y
  constructor
  · rintro x y ⟨hxl, hxr, hyl, hyr⟩
    have hj : (y - area.y1).toNat < area.height := by
      unfold LvArea.height
      omega
    have hi : (x - area.x1).toNat < area.width := by
      unfold LvArea.width
      omega
    have hrow : area.y1.toNat + (y - area.y1).toNat = y := by omega
    have hcol : area.x1.toNat + (x - area.x1).toNat = x := by omega
    have hin := hrect.inside _ hj _ hi
    rw [corner_row, hrow, Nat.add_assoc, Nat.add_assoc, hcol, ← Nat.add_assoc] at hin
    rw [heq]
    exact hin
  · intro x hxw y _ hout
    rw [heq] at hxw ⊢
    apply hrect.outside
    intro j hj i hi heq'
    rw [corner_row] at heq'
    apply hout
    -- equal addresses have equal rows and columns
    have hcol : area.x1.toNat + i < s.lcdInfo.stride := by omega
    have hy' : y = area.y1.toNat + j := by
      rcases Nat.lt_trichotomy y (area.y1.toNat + j) with hlt | heq'' | hlt
      · have hne : fb + y * s.lcdInfo.stride + x ≠
            fb + (area.y1.toNat + j) * s.lcdInfo.stride + (area.x1.toNat + i) := row_ne le_rfl hxw hlt
        omega
      · exact heq''
      · have hne : fb + (area.y1.toNat + j) * s.lcdInfo.stride + (area.x1.toNat + i) ≠
            fb + y * s.lcdInfo.stride + x := row_ne le_rfl hcol hlt
        omega
    subst hy'
    unfold LvArea.Contains LvArea.width LvArea.height at *
    omega
  · intro a ha
    apply hrect.outside
    intro j hj i hi heq'
    have hrow := h.row_lt hj hi
    rw [corner_row] at heq'
    omega

/-- The flush has drawn the area, as the row loop alone would have; where flushing is disabled or there
is no framebuffer it has drawn nothing; and LVGL has been told once that the flush is ready. -/
structure Flushed (s : Port) (area : LvArea) (colorP : Nat) (t : Port) : Prop where
  drawn : s.dispFlushEnabled = true → ∀ fb, s.fb = some fb →
    Blitted s.lcdInfo.drv area colorP fb s.mem t.mem
  rows : s.dispFlushEnabled = true → ∀ fb, s.fb = some fb →
    ∃ p, s.flushRows fb area colorP = .ok (t.mem, p)
  kept : s.dispFlushEnabled = false ∨ s.fb = none → t.mem = s.mem
  ready : t.ready = s.ready + 1

/-- Any other flush than that of a whole screen. -/
theorem Fits.dispFlush_area {s : Port} {area : LvArea} {colorP : Nat} (h : Fits s area colorP)
    (hsome : s.dispFlushEnabled = false ∨ ¬FullScreen s.lcdInfo.drv area) :
    ∃ t, s.dispFlush s.lcdInfo.drv area colorP = .ok t ∧ Flushed s area colorP t := by
  rw [Port.dispFlush]
  by_cases hen : s.dispFlushEnabled = false
  · rw [if_pos hen]
    refine ⟨_, rfl, ⟨?_, ?_, fun _ => rfl, rfl⟩⟩
    · exact fun h' => absurd h' (by simp [hen])
    · exact fun h' => absurd h' (by simp [hen])
  · rw [if_neg hen, if_neg (hsome.resolve_left hen)]
    cases hfb : s.fb with
    | none => exact ⟨_, rfl, ⟨fun _ fb hfb' => (by simp [hfb] at hfb'),
        fun _ fb hfb' => (by simp [hfb] at hfb'), fun _ => rfl, rfl⟩⟩
    | some fb =>
        obtain ⟨m, p, hm, hrect⟩ := h.flushRows_spec hfb
        simp only [hm]
        refine ⟨_, rfl, ⟨fun _ fb' hfb' => ?_, fun _ fb' hfb' => ?_, fun hno => ?_, rfl⟩⟩
        · cases hfb.symm.trans hfb'
          exact h.blitted hrect
        · cases hfb.symm.trans hfb'
          exact ⟨p, hm⟩
        · exact absurd (hno.resolve_left hen) (by simp [hfb])

/-- The flush of a whole screen, with the device there. -/
theorem Fits.dispFlush_screen {s : Port} {area : LvArea} {colorP : Nat} (h : Fits s area colorP)
    (hen : s.dispFlushEnabled = true) (hfull : FullScreen s.lcdInfo.drv area) (hdev : s.lcdDev = true) :
    ∃ t, s.dispFlush s.lcdInfo.drv area colorP = .ok t ∧ Flushed s area colorP t := by
  have hen' : ¬s.dispFlushEnabled = false := by simp [hen]
  rw [Port.dispFlush, if_neg hen', if_pos hfull]
  cases hfb : s.fb with
  | none =>
      have hcopy : s.flushScreen s.lcdInfo.drv colorP = .ok s.mem := by rw [Port.flushScreen, hfb]
      simp only [hcopy, bind, Except.bind, Port.rectUpdate, hdev, if_true]
      exact ⟨_, rfl, ⟨fun _ fb hfb' => (by simp [hfb] at hfb'), fun _ fb hfb' => (by simp [hfb] at hfb'),
        fun _ => rfl, rfl⟩⟩
  | some fb =>
      obtain ⟨m, hm, hrect⟩ := h.flushScreen_spec hfull hfb
      simp only [hm, bind, Except.bind, Port.rectUpdate, hdev, if_true]
      refine ⟨_, rfl, ⟨fun _ fb' hfb' => ?_, fun _ fb' hfb' => ?_, fun hno => ?_, rfl⟩⟩
      · cases hfb.symm.trans hfb'
        exact h.blitted hrect
      · cases hfb.symm.trans hfb'
        obtain ⟨m', p, hm', hrect'⟩ := h.flushRows_spec hfb
        exact ⟨p, by rw [hm', hrect'.unique hrect]; rfl⟩
      · exact absurd (hno.resolve_left hen') (by simp [hfb])

/-- Without the device, the flush of a whole screen never returns. -/
theorem Fits.dispFlush_noDevice {s : Port} {area : LvArea} {colorP : Nat} (h : Fits s area colorP)
    (hen : s.dispFlushEnabled = true) (hfull : FullScreen s.lcdInfo.drv area)
    (hdev : ¬s.lcdDev = true) :
    s.dispFlush s.lcdInfo.drv area colorP = .error .assertion := by
  have hcopy : ∃ m, s.flushScreen s.lcdInfo.drv colorP = .ok m := by
    cases hfb : s.fb with
    | none => exact ⟨s.mem, by rw [Port.flushScreen, hfb]⟩
    | some fb =>
        obtain ⟨m, hm, -⟩ := h.flushScreen_spec hfull hfb
        exact ⟨m, hm⟩
  obtain ⟨m, hm⟩ := hcopy
  rw [Port.dispFlush, if_neg (by simp [hen]), if_pos hfull]
  simp only [hm, bind, Except.bind, Port.rectUpdate, if_neg hdev]

/-- **Flush.** For every area of the screen and all pixels for it, the flush draws the area and tells
LVGL once that it is ready, if and only if flushing is disabled, the area is not the whole screen, or
the LCD device was found. No memory but the framebuffer and the pixels needs to be accessible. -/
theorem flush_exact {s : Port} {area : LvArea} {colorP : Nat} (h : Fits s area colorP) :
    (∃ t, s.dispFlush s.lcdInfo.drv area colorP = .ok t ∧ Flushed s area colorP t) ↔
      s.dispFlushEnabled = false ∨ ¬FullScreen s.lcdInfo.drv area ∨ s.lcdDev = true := by
  by_cases hsome : s.dispFlushEnabled = false ∨ ¬FullScreen s.lcdInfo.drv area
  · exact iff_of_true (h.dispFlush_area hsome) (or_assoc.mp (Or.inl hsome))
  · have hen : s.dispFlushEnabled = true := by simpa using fun h' => hsome (Or.inl h')
    have hfull : FullScreen s.lcdInfo.drv area := not_not.mp fun h' => hsome (Or.inr h')
    by_cases hdev : s.lcdDev = true
    · exact iff_of_true (h.dispFlush_screen hen hfull hdev) (Or.inr (Or.inr hdev))
    · refine iff_of_false ?_ (by simp [hen, hfull, hdev])
      rintro ⟨t, ht, -⟩
      rw [h.dispFlush_noDevice hen hfull hdev] at ht
      cases ht

/-- A framebuffer of 3 by 2 pixels at 0, and four more pixels behind it. -/
def smallPort : Port where
  lcdDev := true
  lcdInfo := ⟨3, 2, some 0⟩
  fb := some 0
  dispFlushEnabled := true
  mem := fun a => if a < 10 then some a.toUInt16 else none
  updates := []
  ready := 0

/-- Drawing the two columns on the right. -/
theorem flush_exact_demo : ∃ t, smallPort.dispFlush smallPort.lcdInfo.drv ⟨1, 0, 2, 1⟩ 6 = .ok t ∧
    Flushed smallPort ⟨1, 0, 2, 1⟩ 6 t := by
  refine (flush_exact ⟨by decide, by decide, ?_, fun fb hfb => ?_, fun fb hfb => ?_⟩).mpr
    (Or.inr (Or.inr rfl))
  · unfold Accessible
    decide
  · cases hfb
    unfold Accessible
    decide
  · cases hfb
    exact Or.inl (by decide)

/-- Where no LCD device is found, LVGL waits forever for its first whole screen. -/
theorem flush_without_device :
    let s := (Port.boot fun _ => some 0).lvPortDispInit none
    Fits s.2 ⟨0, 0, 479, 271⟩ 0 ∧ s.2.fb = none ∧
      s.2.dispFlush s.1 ⟨0, 0, 479, 271⟩ 0 = .error .assertion :=
  ⟨⟨by decide, by decide, fun _ _ => rfl, nofun, nofun⟩, rfl, rfl⟩

end SwmLvgl.Disp
