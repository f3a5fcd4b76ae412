import SwmLvgl.RefrFlush

/-! Flushing a part of the screen, turned in software where that is asked for: every pixel of the part gets to
its place on the panel, whatever the number of chunks. -/

namespace SwmLvgl.Refr

open Disp
open Pm (lvCoord lvCoord_of_range)

namespace Driver

variable (d : Driver)

/-- The picture is turned in software. -/
def Turning : Prop := d.rotated ≠ .none ∧ d.swRotate = true

instance : Decidable d.Turning := inferInstanceAs (Decidable (_ ∧ _))

/-- A non-empty area of the screen. -/
structure OnScreen (a : LvArea) : Prop where
  x : 0 ≤ a.x1 ∧ a.x1 ≤ a.x2 ∧ a.x2 < d.lvDispGetHorRes
  y : 0 ≤ a.y1 ∧ a.y1 ≤ a.y2 ∧ a.y2 < d.lvDispGetVerRes

variable {d} {a : LvArea} {p : Int × Int}

theorem turn_eq (h : ¬d.Turning) (p : Int × Int) : d.turn p = p := by
  rw [turn]
  split
  · next hsw =>
    have hnone : d.rotated = .none := by
      by_contra hne
      exact h ⟨hne, hsw⟩
    rw [hnone]
  · rfl

theorem panelRes_eq (h : ¬d.Turning) : d.panelRes = (d.lvDispGetHorRes, d.lvDispGetVerRes) := by
  rw [panelRes]
  split
  · next hsw =>
    have hnone : d.rotated = .none := by
      by_contra hne
      exact h ⟨hne, hsw⟩
    rw [lvDispGetHorRes, lvDispGetVerRes, hnone]
    rfl
  · rfl

theorem OnScreen.onPanel (ha : d.OnScreen a) (h : ¬d.Turning) : d.OnPanel a := by
  obtain ⟨hx, hy⟩ := ha
  constructor <;>
  · rw [panelRes_eq h]
    assumption

theorem Ok.range_screen (hd : d.Ok) : d.lvDispGetHorRes < 2 ^ 15 ∧ d.lvDispGetVerRes < 2 ^ 15 ∧
    0 < d.lvDispGetHorRes ∧ 0 < d.lvDispGetVerRes ∧ d.horRes < 2 ^ 15 ∧ d.verRes < 2 ^ 15 := by
  have hres := hd.res
  have hoffset := hd.offset
  have hrange := hd.range
  rw [panelRes, lvDispGetHorRes, lvDispGetVerRes] at hrange
  rw [lvDispGetHorRes, lvDispGetVerRes]
  by_cases hrot : d.rotated = .rot90 ∨ d.rotated = .rot270 <;> by_cases hsw : d.swRotate = true <;>
  · simp only [hrot, hsw, if_true, if_false, Bool.false_eq_true] at hrange ⊢
    omega

theorem OnScreen.size (hd : d.Ok) (ha : d.OnScreen a) : a.getWidth = a.width ∧ a.getHeight = a.height ∧
    a.width = a.x2 - a.x1 + 1 ∧ a.height = a.y2 - a.y1 + 1 := by
  obtain ⟨hx, hy⟩ := ha
  obtain ⟨hw, hh, -⟩ := hd.range_screen
  rw [LvArea.getWidth, LvArea.getHeight, lvCoord_of_range (by omega) (by omega),
    lvCoord_of_range (by omega) (by omega), LvArea.width, LvArea.height]
  omega

end Driver

variable {d : Driver} {σ ε γ μ : Type} {s s' s'' : LvDisp σ γ μ} {c : Canvas γ} {P : Panel d σ ε γ}
  {area : LvArea}

/-- The flush callback has been called without the flag, if at all. -/
def Unflagged (s s' : LvDisp σ γ μ) : Prop := ∃ l, s'.flushes = s.flushes ++ l ∧ ∀ e ∈ l, e.2 = false

/-- The flush callback has been called, the last time with the given flag and before that without it. -/
def Flagged (s s' : LvDisp σ γ μ) (last : Bool) : Prop :=
  ∃ l a, s'.flushes = s.flushes ++ (l ++ [(a, last)]) ∧ ∀ e ∈ l, e.2 = false

theorem Unflagged.of_eq (h : s'.flushes = s.flushes) : Unflagged s s' := ⟨[], by rw [h, List.append_nil], nofun⟩

theorem Flagged.unflagged (h : Flagged s s' false) : Unflagged s s' := by
  obtain ⟨l, a, hl, hfalse⟩ := h
  refine ⟨l ++ [(a, false)], hl, fun e he => ?_⟩
  rcases List.mem_append.mp he with he | he
  · exact hfalse e he
  · rw [List.mem_singleton.mp he]

theorem Unflagged.flagged {last : Bool} (h : Unflagged s s') (h' : Flagged s' s'' last) : Flagged s s'' last := by
  obtain ⟨l, hl, hfalse⟩ := h
  obtain ⟨l', a, hl', hfalse'⟩ := h'
  refine ⟨l ++ l', a, by simp only [hl', hl, List.append_assoc], fun e he => ?_⟩
  rcases List.mem_append.mp he with he | he
  · exact hfalse e he
  · exact hfalse' e he

/-- One more call, with the flag if it is the last one. -/
theorem Unflagged.flush (h : Unflagged s s') {a : LvArea} {done last : Bool}
    (hflush : s''.flushes = s'.flushes ++ [(a, done && last)]) :
    if done = false then Unflagged s s'' else Flagged s s'' last := by
  have hcall : Flagged s s'' (done && last) := h.flagged ⟨[], a, hflush, nofun⟩
  cases done with
  | false =>
      rw [Bool.false_and] at hcall
      exact hcall.unflagged
  | true =>
      rw [Bool.true_and] at hcall
      exact hcall

/-- The part has been given to the panel. -/
structure Flushed (P : Panel d σ ε γ) (area : LvArea) (last : Bool) (s : LvDisp σ γ μ) (c : Canvas γ)
    (s' : LvDisp σ γ μ) : Prop where
  shown : Shown P s' fun p => if p ∈ area.points then s.buf s.bufAct (pixelIndex area p) else c p
  flag : s'.flushing = s'.transfer.isSome
  source : ∀ t, s'.transfer = some t → t.source = some s.bufAct
  kept : Kept s s'
  bufAct : s'.bufAct = s.bufAct
  buf : ¬d.Turning → s'.buf = s.buf
  flushes : Flagged s s' last

theorem flush_spec (hd : d.Ok) (hshows : P.Shows s.panel c) (hflag : s.flushing = true)
    (hnone : s.transfer = none) (harea : d.OnScreen area) (hturn : ¬d.Turning) :
    ∃ s', s.callFlushCb d P.flush area (some s.bufAct) 0 = .ok s' ∧ Flushed P area s.flushingLast s c s' := by
  obtain ⟨s', hs', hshown, hflag', hsource, hkept, hbuf, hact, hflushes⟩ :=
    callFlushCb_spec hd hshows hflag hnone (harea.onPanel hturn) (some s.bufAct) 0
  refine ⟨s', hs', ?_, hflag', hsource, hkept, hact, fun _ => hbuf, [], d.shift area, hflushes, nofun⟩
  simpa only [Driver.turn_eq hturn, Option.elim_some, Nat.zero_add] using hshown

@[simp] theorem setPixels_buf (start : Nat) (px : Nat → γ) (i : Nat) : (s.setPixels start px).buf s.bufAct i =
    if start ≤ i then px (i - start) else s.buf s.bufAct i := by
  show Function.update s.buf s.bufAct _ s.bufAct i = _
  rw [Function.update_self]

theorem reverse_index {w h x y : Nat} (hx : x < w) (hy : y < h) :
    (h - 1 - y) * w + (w - 1 - x) + (y * w + x) = h * w - 1 := by
  have hrows : (h - 1 - y) * w + (y * w + w) = h * w := by
    rw [← Nat.succ_mul, ← Nat.add_mul]
    congr 1
    omega
  omega

theorem flushRotated180_spec (hd : d.Ok) (hshows : P.Shows s.panel c) (hflag : s.flushing = true)
    (hnone : s.transfer = none) (harea : d.OnScreen area) (hsw : d.swRotate = true) (hrot : d.rotated = .rot180) :
    ∃ s', s.flushRotated180 d P.flush area = .ok s' ∧ Flushed P area s.flushingLast s c s' := by
  have hturning : d.Turning := ⟨by simp [hrot], hsw⟩
  obtain ⟨-, -, hw, hh⟩ := harea.size hd
  obtain ⟨hhor, hver, -, -, -, -⟩ := hd.range_screen
  have hx := harea.x
  have hy := harea.y
  have hres : d.lvDispGetHorRes = d.horRes ∧ d.lvDispGetVerRes = d.verRes := by
    simp [Driver.lvDispGetHorRes, Driver.lvDispGetVerRes, hrot]
  obtain ⟨px, hpx, hrev, -⟩ := drawBufRotate180_spec (area.height * area.width) (s.buf s.bufAct)
  have harea' : (⟨lvCoord (d.horRes - area.x2 - 1), lvCoord (d.verRes - area.y2 - 1),
      lvCoord (d.horRes - area.x1 - 1), lvCoord (d.verRes - area.y1 - 1)⟩ : LvArea) =
      ⟨d.horRes - area.x2 - 1, d.verRes - area.y2 - 1, d.horRes - area.x1 - 1, d.verRes - area.y1 - 1⟩ := by
    rw [lvCoord_of_range (by omega) (by omega), lvCoord_of_range (by omega) (by omega),
      lvCoord_of_range (by omega) (by omega), lvCoord_of_range (by omega) (by omega)]
  rw [LvDisp.flushRotated180, hpx]
  simp only [harea']
  have honPanel : d.OnPanel ⟨d.horRes - area.x2 - 1, d.verRes - area.y2 - 1, d.horRes - area.x1 - 1,
      d.verRes - area.y1 - 1⟩ := by
    constructor <;>
    · simp only [Driver.panelRes, hsw, if_true]
      omega
  obtain ⟨s', hs', hshown, hflag', hsource, hkept, -, hact, hflushes⟩ :=
    callFlushCb_spec hd (show P.Shows (s.setPixels 0 px).panel c from hshows) hflag hnone honPanel
      (some s.bufAct) 0
  refine ⟨s', hs', hshown.congr fun p hp => ?_, hflag', hsource, ⟨hkept.scene, hkept.invAreas, hkept.invAreaJoined,
    hkept.invP, hkept.invEnCnt, hkept.syncAreas, hkept.renderingInProgress, hkept.lastArea, hkept.lastPart⟩,
    hact, fun h => absurd hturning h, [], _, hflushes, nofun⟩
  have hplace : d.turn p = (d.horRes - 1 - p.1, d.verRes - 1 - p.2) := by
    simp only [Driver.turn, hsw, hrot, if_true]
  have hiff : d.turn p ∈ LvArea.points ⟨d.horRes - area.x2 - 1, d.verRes - area.y2 - 1, d.horRes - area.x1 - 1,
      d.verRes - area.y1 - 1⟩ ↔ p ∈ area.points := by
    rw [hplace, LvArea.mem_points, LvArea.mem_points]
    dsimp only
    omega
  simp only [hiff]
  split
  · next hp =>
    obtain ⟨hxlt, hylt⟩ := mem_offsets hp
    have hrev' := reverse_index hxlt hylt
    have hpos := pixelIndex_lt hp
    have hindex : pixelIndex ⟨d.horRes - area.x2 - 1, d.verRes - area.y2 - 1, d.horRes - area.x1 - 1,
        d.verRes - area.y1 - 1⟩ (d.turn p) = (area.height - 1 - (p.2 - area.y1).toNat) * area.width +
          (area.width - 1 - (p.1 - area.x1).toNat) := by
      rw [LvArea.mem_points] at hp
      have hwidth : LvArea.width ⟨d.horRes - area.x2 - 1, d.verRes - area.y2 - 1, d.horRes - area.x1 - 1,
          d.verRes - area.y1 - 1⟩ = area.width := by
        unfold LvArea.width
        dsimp only
        congr 1
        omega
      rw [hplace, pixelIndex, hwidth]
      dsimp only
      congr 1
      · congr 1
        omega
      · omega
    rw [hindex]
    show (s.setPixels 0 px).buf s.bufAct _ = _
    rw [setPixels_buf, if_pos (Nat.zero_le _), Nat.sub_zero, Nat.zero_add, hrev]
    · rw [pixelIndex]
      congr 1
      omega
    · omega
  · rfl

/-! ### A quarter of a turn -/

/-- Where the rows from `row` on go to on the panel. -/
def Driver.chunk (d : Driver) (area : LvArea) (row height : Int) : LvArea :=
  if d.rotated = .rot90 then
    ⟨area.y1 + row, d.verRes - area.x2 - 1, area.y1 + row + height - 1, d.verRes - area.x1 - 1⟩
  else ⟨d.horRes - area.y1 - row - height, area.x1, d.horRes - 1 - area.y1 - row, area.x2⟩

section Quarter

variable {row height : Int}

theorem quarter_res (hrot : d.rotated = .rot90 ∨ d.rotated = .rot270) :
    d.lvDispGetHorRes = d.verRes ∧ d.lvDispGetVerRes = d.horRes := by
  rw [Driver.lvDispGetHorRes, Driver.lvDispGetVerRes, if_pos hrot, if_pos hrot]
  exact ⟨rfl, rfl⟩

theorem chunk_onPanel (harea : d.OnScreen area) (hsw : d.swRotate = true)
    (hrot : d.rotated = .rot90 ∨ d.rotated = .rot270) (hrow : 0 ≤ row) (hheight : 0 < height)
    (hle : row + height ≤ area.height) : d.OnPanel (d.chunk area row height) := by
  obtain ⟨hhor, hver⟩ := quarter_res hrot
  have hx := harea.x
  have hy := harea.y
  have hh : (area.height : Int) = area.y2 - area.y1 + 1 := by
    unfold LvArea.height
    omega
  constructor <;>
  · simp only [Driver.panelRes, hsw, if_true, Driver.chunk]
    split <;> dsimp only <;> omega

theorem mem_chunk (hsw : d.swRotate = true) (hrot : d.rotated = .rot90 ∨ d.rotated = .rot270) {p : Int × Int} :
    d.turn p ∈ (d.chunk area row height).points ↔
      (area.x1 ≤ p.1 ∧ p.1 ≤ area.x2) ∧ area.y1 + row ≤ p.2 ∧ p.2 < area.y1 + row + height := by
  rcases hrot with hrot | hrot
  · simp only [Driver.chunk, Driver.turn, hsw, hrot, if_true, LvArea.mem_points]
    omega
  · simp only [Driver.chunk, Driver.turn, hsw, hrot, if_true, LvArea.mem_points]
    simp only [reduceCtorEq, if_false]
    omega

theorem pixelIndex_chunk (hsw : d.swRotate = true) (hrot : d.rotated = .rot90 ∨ d.rotated = .rot270)
    {p : Int × Int} (hp : d.turn p ∈ (d.chunk area row height).points) :
    pixelIndex (d.chunk area row height) (d.turn p) =
      turned (decide (d.rotated = .rot270)) area.width height.toNat (p.2 - area.y1 - row).toNat
        (p.1 - area.x1).toNat := by
  rw [mem_chunk hsw hrot] at hp
  rcases hrot with hrot | hrot
  · have hwidth : (d.chunk area row height).width = height.toNat := by
      simp only [Driver.chunk, hrot, if_true, LvArea.width]
      congr 1
      omega
    rw [pixelIndex, hwidth]
    simp only [Driver.chunk, Driver.turn, hsw, hrot, if_true, turned, reduceCtorEq, decide_false,
      Bool.false_eq_true, if_false, LvArea.width]
    congr 1
    · congr 1
      omega
    · congr 1
      omega
  · have hwidth : (d.chunk area row height).width = height.toNat := by
      simp only [Driver.chunk, hrot, reduceCtorEq, if_false, LvArea.width]
      congr 1
      omega
    rw [pixelIndex, hwidth]
    simp only [Driver.chunk, Driver.turn, hsw, hrot, if_true, turned, decide_true, reduceCtorEq, if_false]
    congr 1
    omega

/-- A chunk that is turned is flushed, and the panel takes it over. -/
theorem chunk_flush (hd : d.Ok) (harea : d.OnScreen area) (hsw : d.swRotate = true)
    (hrot : d.rotated = .rot90 ∨ d.rotated = .rot270) (hrow : 0 ≤ row) (hheight : 0 < height)
    (hle : row + height ≤ area.height) {px : Nat → γ}
    (hshows : P.Shows s.panel fun p =>
      if p ∈ area.points ∧ p.2 < area.y1 + row then px (pixelIndex area p) else c p)
    (hflag : s.flushing = true) (hnone : s.transfer = none) {source : Option Bool} {start : Nat}
    (hpx : ∀ y < height.toNat, ∀ x < area.width, source.elim s.rotBuf s.buf
      (start + turned (decide (d.rotated = .rot270)) area.width height.toNat y x) =
        px ((row.toNat + y) * area.width + x)) :
    ∃ s₁ s', s.callFlushCb d P.flush (d.chunk area row height) source start = .ok s₁ ∧
      s₁.waitFlushing P.flush = .ok s' ∧ P.Shows s'.panel (fun p =>
        if p ∈ area.points ∧ p.2 < area.y1 + (row + height) then px (pixelIndex area p) else c p) ∧
      s'.flushing = false ∧ s'.transfer = none ∧ Kept s s' ∧ s'.buf = s.buf ∧ s'.bufAct = s.bufAct ∧
      s'.flushes = s.flushes ++ [(d.shift (d.chunk area row height), s.flushingLast)] := by
  obtain ⟨s₁, hs₁, hshown, hflag₁, -, hkept, hbuf, hact, hflushes⟩ :=
    callFlushCb_spec hd hshows hflag hnone (chunk_onPanel harea hsw hrot hrow hheight hle) source start
  obtain ⟨s', hs', hshows', hflag', hnone', hquiet⟩ := waitFlushing_spec hshown hflag₁
  refine ⟨s₁, s', hs₁, hs', hshows'.congr fun p _ => ?_, hflag', hnone', hkept.trans hquiet.toKept,
    hquiet.buf.trans hbuf, hquiet.bufAct.trans hact, hquiet.flushes.trans hflushes⟩
  by_cases hp : d.turn p ∈ (d.chunk area row height).points
  · have hmem := (mem_chunk hsw hrot).mp hp
    have hin : p ∈ area.points := by
      have hh := (harea.size hd).2.2.2
      rw [LvArea.mem_points]
      omega
    obtain ⟨hxlt, -⟩ := mem_offsets hin
    rw [if_pos hp, if_pos ⟨hin, by omega⟩, pixelIndex_chunk hsw hrot hp, hpx _ (by omega) _ hxlt, pixelIndex,
      show row.toNat + (p.2 - area.y1 - row).toNat = (p.2 - area.y1).toNat by omega]
  · rw [if_neg hp]
    rw [mem_chunk hsw hrot] at hp
    apply if_congr _ rfl rfl
    rw [LvArea.mem_points]
    omega

/-- The area that `draw_buf_rotate` gives to the callback. -/
theorem chunk_eq (hd : d.Ok) (harea : d.OnScreen area) (hrot : d.rotated = .rot90 ∨ d.rotated = .rot270)
    (hrow : 0 ≤ row) (hheight : 0 < height) (hle : row + height ≤ area.height) {y1 y2 : Int}
    (hy1 : y1 = if d.rotated = .rot90 then d.verRes - area.x2 - 1 else area.x1)
    (hy2 : y2 = if d.rotated = .rot90 then d.verRes - area.x1 - 1 else area.x2) :
    (if d.rotated = .rot90 then ⟨lvCoord (area.y1 + row), y1, lvCoord (area.y1 + row + height - 1), y2⟩
      else ⟨lvCoord (lvCoord (d.horRes - 1 - area.y1 - row) - height + 1), y1,
        lvCoord (d.horRes - 1 - area.y1 - row), y2⟩ : LvArea) = d.chunk area row height := by
  obtain ⟨hhor, hver⟩ := quarter_res hrot
  obtain ⟨hw, hh, -, -, hhor', -⟩ := hd.range_screen
  have hx := harea.x
  have hy := harea.y
  have hheight' := (harea.size hd).2.2.2
  rw [Driver.chunk]
  split
  · next h90 =>
    rw [if_pos h90] at hy1 hy2
    rw [hy1, hy2, lvCoord_of_range (by omega) (by omega), lvCoord_of_range (by omega) (by omega)]
  · next h270 =>
    rw [if_neg h270] at hy1 hy2
    rw [hy1, hy2, @lvCoord_of_range (d.horRes - 1 - area.y1 - row) (by omega) (by omega),
      lvCoord_of_range (by omega) (by omega)]
    congr 1
    omega

end Quarter

/-- The display in the course of the rotation, when the rows before `row` have been flushed. -/
structure PartFlushed (P : Panel d σ ε γ) (area : LvArea) (s₀ : LvDisp σ γ μ) (c : Canvas γ) (row : Int)
    (colorP : Nat) (rotBuf : Bool) (s : LvDisp σ γ μ) : Prop where
  rows : 0 ≤ row ∧ row ≤ area.height
  start : colorP = row.toNat * area.width
  copied : row = 0 → rotBuf = false
  shows : P.Shows s.panel fun p =>
    if p ∈ area.points ∧ p.2 < area.y1 + row then s₀.buf s₀.bufAct (pixelIndex area p) else c p
  idle : s.transfer = none
  flag : 0 < row → s.flushing = false
  kept : Kept s₀ s
  bufAct : s.bufAct = s₀.bufAct
  pixels : ∀ i, colorP ≤ i → s.buf s₀.bufAct i = s₀.buf s₀.bufAct i
  flushes : if row < area.height then Unflagged s₀ s else Flagged s₀ s (s₀.lastArea && s₀.lastPart)

/-- What turning the rows does to the display. -/
theorem turnRows_spec {is270 square : Bool} {w colorP : Nat} {height : Int} (hw : 0 < w) (hheight : 0 < height)
    (hsq : square = true → height = w)
    (hfit : square = false → w * height.toNat ≤ lvDispRotMaxBuf / sizeofLvColor) :
    ∃ s', s.turnRows is270 square w height colorP = (.ok s' : Except (Fault ε) _) ∧ Kept s s' ∧ s'.panel = s.panel ∧
      s'.transfer = s.transfer ∧ s'.flushing = s.flushing ∧ s'.bufAct = s.bufAct ∧ s'.flushes = s.flushes ∧
      (∀ i, colorP + w * height.toNat ≤ i → s'.buf s.bufAct i = s.buf s.bufAct i) ∧
      ∀ y < height.toNat, ∀ x < w, (if square then s'.buf s.bufAct (colorP + turned is270 w height.toNat y x)
        else s'.rotBuf (turned is270 w height.toNat y x)) = s.buf s.bufAct (colorP + (y * w + x)) := by
  cases square with
  | true =>
      obtain rfl := hsq rfl
      rw [Int.toNat_natCast]
      refine ⟨_, rfl, ⟨rfl, rfl, rfl, rfl, rfl, rfl, rfl, rfl, rfl⟩, rfl, rfl, rfl, rfl, rfl, fun i hi => ?_,
        fun y hy x hx => ?_⟩
      · rw [setPixels_buf, if_pos (by omega), Int.toNat_natCast,
          drawBufRotate90Sqr_of_le (Nat.le_sub_of_add_le' hi), Nat.add_sub_cancel' (by omega)]
      · rw [if_pos rfl, setPixels_buf, if_pos (Nat.le_add_right _ _), Nat.add_sub_cancel_left, Int.toNat_natCast,
          drawBufRotate90Sqr_turned hx hy]
  | false =>
      have hfit := hfit rfl
      have hnat : ((w : Int) * height).toNat = w * height.toNat := by
        rw [Int.toNat_mul (by omega) (by omega), Int.toNat_natCast]
      have hlt : w * height.toNat < 2 ^ 32 := by
        refine Nat.lt_of_le_of_lt hfit ?_
        decide
      let px : Nat → γ := fun i => s.buf s.bufAct (colorP + i)
      refine ⟨{ s with rotBuf := drawBufRotate90 is270 w height.toNat px s.rotBuf }, ?_, ⟨rfl, rfl, rfl, rfl, rfl,
        rfl, rfl, rfl, rfl⟩, rfl, rfl, rfl, rfl, rfl, fun _ _ => rfl, fun y hy x hx => ?_⟩
      · rw [LvDisp.turnRows, if_neg Bool.false_ne_true, hnat, if_neg (by omega), Int.toNat_natCast]
      · rw [if_neg Bool.false_ne_true]
        exact drawBufRotate90_spec hw hlt _ hy hx

/-- A pass of the loop. The first one takes the square in the buffer itself if there is one. -/
theorem rotateChunk_spec (hd : d.Ok) (harea : d.OnScreen area) (hsw : d.swRotate = true)
    (hrot : d.rotated = .rot90 ∨ d.rotated = .rot270) {s₀ : LvDisp σ γ μ} {row : Int} {colorP : Nat}
    {rotBuf : Bool} (h : PartFlushed P area s₀ c row colorP rotBuf s) (hrow : row < area.height) {maxRow : Int}
    (hmax : 0 < maxRow) (hfit : area.width * maxRow.toNat ≤ lvDispRotMaxBuf / sizeofLvColor) {y1 y2 : Int}
    (hy1 : y1 = if d.rotated = .rot90 then d.verRes - area.x2 - 1 else area.x1)
    (hy2 : y2 = if d.rotated = .rot90 then d.verRes - area.x1 - 1 else area.x2) :
    ∃ row' colorP' rotBuf' s', LvDisp.rotateChunk d P.flush area.width area.height y1 y2 area.y1 maxRow
        (row, colorP, rotBuf, s) = .ok (row', colorP', rotBuf', s') ∧ row < row' ∧
      PartFlushed P area s₀ c row' colorP' rotBuf' s' := by
  obtain ⟨-, -, hw, hh⟩ := harea.size hd
  obtain ⟨hres, hres', -⟩ := hd.range_screen
  have hx := harea.x
  have hy := harea.y
  have hrow0 := h.rows.1
  obtain ⟨square, hsquare⟩ : ∃ b, b = decide (row = 0 ∧ (area.height : Int) ≥ area.width) := ⟨_, rfl⟩
  obtain ⟨height, hheight⟩ : ∃ k, k = if square = true then (area.width : Int)
      else min maxRow (area.height - row) := ⟨_, rfl⟩
  have hsq : square = true → row = 0 ∧ (area.height : Int) ≥ area.width := by
    rw [hsquare]
    exact of_decide_eq_true
  obtain ⟨hpos, hle, hheq, hhle⟩ : 0 < height ∧ row + height ≤ area.height ∧
      (square = true → height = area.width) ∧ (square = false → height ≤ maxRow) := by
    rw [hheight]
    split
    · next h =>
      obtain ⟨h0, hge⟩ := hsq h
      exact ⟨by omega, by omega, fun _ => rfl, fun h' => absurd h (by rw [h']; exact Bool.false_ne_true)⟩
    · next h => exact ⟨by omega, by omega, fun h' => absurd h' h, fun _ => by omega⟩
  have hwpos : 0 < area.width := by omega
  obtain ⟨s₁, hs₁, hkept₁, hpanel₁, htrans₁, hflag₁, hact₁, hflushes₁, hbuf₁, hpx₁⟩ :=
    @turnRows_spec σ ε γ μ { s with flushing := true } (decide (d.rotated = .rot270)) square area.width colorP
      height hwpos hpos hheq fun h => (Nat.mul_le_mul_left _ (Int.toNat_le_toNat (hhle h))).trans hfit
  have hchunk := chunk_eq hd harea hrot hrow0 hpos hle hy1 hy2
  -- the panel gets the pixels from where they have been put
  obtain ⟨rotBuf', hrotBuf⟩ : ∃ b, b = (rotBuf || !square) := ⟨_, rfl⟩
  let source : Option Bool := if rotBuf' = true then none else some s₁.bufAct
  let start : Nat := if rotBuf' = true then 0 else colorP
  let s₂ : LvDisp σ γ μ :=
    { s₁ with flushingLast := decide (row + height ≥ area.height) && s₁.lastArea && s₁.lastPart }
  have hpx : ∀ y < height.toNat, ∀ x < area.width, source.elim s₂.rotBuf s₂.buf
      (start + turned (decide (d.rotated = .rot270)) area.width height.toNat y x) =
        s₀.buf s₀.bufAct ((row.toNat + y) * area.width + x) := by
    intro y hy x hx
    have hfrom : colorP + (y * area.width + x) = (row.toNat + y) * area.width + x := by
      rw [h.start, Nat.add_mul, Nat.add_assoc]
    have hpixel := h.pixels _ (Nat.le_add_right colorP (y * area.width + x))
    rw [hfrom] at hpixel
    rw [← hpixel, ← hfrom, ← h.bufAct]
    refine Eq.trans ?_ (hpx₁ y hy x hx)
    cases square with
    | true =>
        have hrot' : rotBuf' = false := by
          rw [hrotBuf, h.copied (hsq rfl).1]
          rfl
        simp only [source, start, hrot', Bool.false_eq_true, if_false, if_true, Option.elim_some]
        show s₁.buf s₁.bufAct _ = _
        rw [hact₁]
    | false =>
        have hrot' : rotBuf' = true := by rw [hrotBuf, Bool.not_false, Bool.or_true]
        simp only [source, start, hrot', Bool.false_eq_true, if_false, if_true, Option.elim_none, Nat.zero_add]
        rfl
  have hshows₂ : P.Shows s₂.panel fun p =>
      if p ∈ area.points ∧ p.2 < area.y1 + row then s₀.buf s₀.bufAct (pixelIndex area p) else c p := by
    show P.Shows s₁.panel _
    rw [hpanel₁]
    exact h.shows
  obtain ⟨s₃, s', hs₃, hs', hshows', hflag', hnone', hkept', hbuf', hact', hflushes'⟩ :=
    chunk_flush hd harea hsw hrot hrow0 hpos hle hshows₂ hflag₁ (htrans₁.trans h.idle) hpx
  have hnext : lvCoord (row + height) = row + height := lvCoord_of_range (by omega) (by omega)
  have hcolorP : ((area.width : Int) * height).toNat = area.width * height.toNat := by
    rw [Int.toNat_mul (by omega) (by omega), Int.toNat_natCast]
  refine ⟨row + height, colorP + area.width * height.toNat, rotBuf', s', ?_, by omega, ?_⟩
  · rw [LvDisp.rotateChunk]
    dsimp only
    rw [← hsquare, ← hheight, ← hrotBuf, hs₁]
    change (s₂.callFlushCb d P.flush _ source start >>= _) = _
    rw [hchunk, hs₃]
    change (s₃.waitFlushing P.flush >>= _) = _
    rw [hs', hcolorP]
    change Except.ok (lvCoord (row + height), _) = _
    rw [hnext]
  · refine ⟨by omega, ?_, fun h0 => by omega, hshows', hnone', fun _ => hflag', ?_, ?_, fun i hi => ?_, ?_⟩
    · rw [h.start, Int.toNat_add hrow0 (by omega), Nat.add_mul, Nat.mul_comm area.width]
    · have hkept₀ : Kept s { s with flushing := true } := ⟨rfl, rfl, rfl, rfl, rfl, rfl, rfl, rfl, rfl⟩
      have hkept₂ : Kept s₁ s₂ := ⟨rfl, rfl, rfl, rfl, rfl, rfl, rfl, rfl, rfl⟩
      exact h.kept.trans (hkept₀.trans (hkept₁.trans (hkept₂.trans hkept')))
    · exact hact'.trans (hact₁.trans h.bufAct)
    · have hback := hbuf₁ i hi
      rw [hbuf']
      rw [show ({ s with flushing := true } : LvDisp σ γ μ).bufAct = s₀.bufAct from h.bufAct] at hback
      exact hback.trans (h.pixels i (by omega))
    · have hbefore := h.flushes
      rw [if_pos hrow] at hbefore
      have hflush : s'.flushes = s.flushes ++ [(d.shift (d.chunk area row height),
          decide (row + height ≥ area.height) && (s₀.lastArea && s₀.lastPart))] := by
        rw [hflushes']
        show s₁.flushes ++ [(_, decide (row + height ≥ area.height) && s₁.lastArea && s₁.lastPart)] = _
        rw [hflushes₁, hkept₁.lastArea, hkept₁.lastPart, ← h.kept.lastArea, ← h.kept.lastPart, Bool.and_assoc]
      simpa only [decide_eq_false_iff_not, ge_iff_le, Int.not_le] using hbefore.flush hflush

/-- The rows that fit into the buffer for the rotation: at least one, as a line of the screen does. -/
theorem maxRow_spec (hd : d.Ok) (harea : d.OnScreen area) (hturning : d.Turning) :
    0 < min (lvCoord ((lvDispRotMaxBuf / sizeofLvColor : Nat) / area.width)) (area.height : Int) ∧
      area.width * (min (lvCoord ((lvDispRotMaxBuf / sizeofLvColor : Nat) / area.width)) (area.height : Int)).toNat ≤
        lvDispRotMaxBuf / sizeofLvColor := by
  obtain ⟨-, -, hw, hh⟩ := harea.size hd
  have hx := harea.x
  have hy := harea.y
  have hline := (hd.turned hturning.2 hturning.1).2.2
  have hbuf : lvDispRotMaxBuf / sizeofLvColor = 5120 := rfl
  rw [hbuf] at hline ⊢
  have hwpos : 0 < area.width := by omega
  have hdiv : lvCoord (((5120 : Nat) : Int) / area.width) = (5120 / area.width : Nat) := by
    have hle := Nat.div_le_self 5120 area.width
    rw [← Int.natCast_ediv]
    exact lvCoord_of_range (Int.le_trans (by decide) (Int.natCast_nonneg _)) (by norm_cast; omega)
  have hone : 1 ≤ 5120 / area.width := by
    rw [Nat.le_div_iff_mul_le hwpos]
    omega
  rw [hdiv]
  refine ⟨by omega, ?_⟩
  calc area.width * (min ((5120 / area.width : Nat) : Int) area.height).toNat
      ≤ area.width * (5120 / area.width) := Nat.mul_le_mul_left _ (by omega)
    _ ≤ 5120 := Nat.mul_div_le 5120 area.width

theorem rotateRows_eq (hd : d.Ok) (harea : d.OnScreen area) (hrot : d.rotated = .rot90 ∨ d.rotated = .rot270) :
    d.rotateRows area area.width = (if d.rotated = .rot90 then d.verRes - area.x2 - 1 else area.x1,
      if d.rotated = .rot90 then d.verRes - area.x1 - 1 else area.x2) := by
  obtain ⟨-, -, hw, -⟩ := harea.size hd
  obtain ⟨hres, hres', -⟩ := hd.range_screen
  obtain ⟨hhor, -⟩ := quarter_res hrot
  have hx := harea.x
  rw [Driver.rotateRows]
  split
  · dsimp only
    rw [@lvCoord_of_range (d.verRes - area.x1 - 1) (by omega) (by omega), lvCoord_of_range (by omega) (by omega), hw]
    congr 1
    omega
  · rw [lvCoord_of_range (by omega) (by omega), hw]
    congr 1
    omega

theorem flushRotated90_spec (hd : d.Ok) (hshows : P.Shows s.panel c) (hnone : s.transfer = none)
    (harea : d.OnScreen area) (hsw : d.swRotate = true) (hrot : d.rotated = .rot90 ∨ d.rotated = .rot270) :
    ∃ s', s.flushRotated90 d P.flush area = .ok s' ∧ Flushed P area (s.lastArea && s.lastPart) s c s' := by
  have hturning : d.Turning := ⟨by rcases hrot with h | h <;> simp [h], hsw⟩
  obtain ⟨hgw, hgh, hw, hh⟩ := harea.size hd
  obtain ⟨hmax, hfit⟩ := maxRow_spec hd harea hturning
  obtain ⟨hres, hres', -⟩ := hd.range_screen
  have hx := harea.x
  have hy := harea.y
  have hrows := rotateRows_eq hd harea hrot
  let I : Int × Nat × Bool × LvDisp σ γ μ → Prop := fun st =>
    PartFlushed P area s c st.1 st.2.1 st.2.2.1 st.2.2.2
  have hstart : I (0, 0, false, s) := by
    refine ⟨⟨Int.le_refl 0, by omega⟩, by simp, fun _ => rfl, hshows.congr fun p _ => ?_, hnone,
      fun h => absurd h (Int.lt_irrefl 0), .refl s, rfl, fun _ _ => rfl, ?_⟩
    · dsimp only
      rw [if_neg]
      rw [LvArea.mem_points]
      omega
    · rw [if_pos (by omega)]
      exact .of_eq rfl
  obtain ⟨r, hr, hflushed⟩ : ∃ r, Loop.run (LvDisp.rotateStep d P.flush area.width area.height
      (d.rotateRows area area.width).1 (d.rotateRows area area.width).2 area.y1
      (min (lvCoord ((lvDispRotMaxBuf / sizeofLvColor : Nat) / area.width)) area.height)) (area.height + 1)
      (0, 0, false, s) = some r ∧ ∃ s', r = .ok s' ∧ Flushed P area (s.lastArea && s.lastPart) s c s' := by
    refine Loop.run_of_measure (I := I) (fun st => (area.height - st.1).toNat) (fun st hI => ?_) hstart (by omega)
    obtain ⟨row, colorP, rotBuf, s₁⟩ := st
    have hI : PartFlushed P area s c row colorP rotBuf s₁ := hI
    by_cases hrow : row < area.height
    · obtain ⟨row', colorP', rotBuf', s', hs', hlt, hI'⟩ :=
        rotateChunk_spec hd harea hsw hrot hI hrow hmax hfit (congrArg Prod.fst hrows) (congrArg Prod.snd hrows)
      refine .inl ⟨(row', colorP', rotBuf', s'), ?_, hI', by dsimp only; omega⟩
      rw [LvDisp.rotateStep, if_pos hrow, hs']
    · refine .inr ⟨.ok s₁, if_neg hrow, s₁, rfl, ?_⟩
      have hflags := hI.flushes
      rw [if_neg hrow] at hflags
      have hidle := hI.flag (by omega)
      refine ⟨.of_shows hI.idle (hI.shows.congr fun p _ => ?_), by rw [hidle, hI.idle]; rfl, fun t ht => ?_, hI.kept,
        hI.bufAct, fun h => absurd hturning h, hflags⟩
      · apply if_congr _ rfl rfl
        rw [LvArea.mem_points]
        omega
      · rw [hI.idle] at ht
        cases ht
  obtain ⟨s', rfl, hs'⟩ := hflushed
  refine ⟨s', ?_, hs'⟩
  rw [LvDisp.flushRotated90, hgw, hgh, Int.toNat_natCast, hr]

/-- The part is given to the panel, turned or as it is. -/
theorem turnedFlush_spec (hd : d.Ok) (hshows : P.Shows s.panel c) (hflag : s.flushing = true)
    (hnone : s.transfer = none) (hlast : s.flushingLast = (s.lastArea && s.lastPart)) (harea : d.OnScreen area) :
    ∃ s', (if d.rotated ≠ .none ∧ d.swRotate then s.drawBufRotate d P.flush area
      else s.callFlushCb d P.flush area (some s.bufAct) 0) = .ok s' ∧
      Flushed P area (s.lastArea && s.lastPart) s c s' := by
  by_cases hturning : d.Turning
  · have hfull := (hd.turned hturning.2 hturning.1).1
    rw [if_pos (show d.rotated ≠ .none ∧ d.swRotate = true from hturning), LvDisp.drawBufRotate, hfull,
      Bool.false_and, if_neg Bool.false_ne_true]
    cases hrot : d.rotated with
    | none => exact absurd hrot hturning.1
    | rot90 => exact flushRotated90_spec hd hshows hnone harea hturning.2 (.inl hrot)
    | rot180 =>
        rw [← hlast]
        exact flushRotated180_spec hd hshows hflag hnone harea hturning.2 hrot
    | rot270 => exact flushRotated90_spec hd hshows hnone harea hturning.2 (.inr hrot)
  · rw [if_neg (show ¬(d.rotated ≠ .none ∧ d.swRotate = true) from hturning), ← hlast]
    exact flush_spec hd hshows hflag hnone harea hturning

end SwmLvgl.Refr
