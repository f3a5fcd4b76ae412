import SwmLvgl.RefrModel

/-! Flushing. The panel may take over an area at any of the points at which its interrupt can come, and what it
shows in the end does not depend on when. -/

namespace SwmLvgl.Refr

open Disp
open Pm (lvCoord lvCoord_of_range)

section Pixels

variable {a : LvArea} {p : Int × Int} {i : Nat}

theorem mem_offsets (h : p ∈ a.points) :
    (p.1 - a.x1).toNat < a.width ∧ (p.2 - a.y1).toNat < a.height := by
  rw [LvArea.mem_points] at h
  unfold LvArea.width LvArea.height
  omega

theorem pixelIndex_lt (h : p ∈ a.points) : pixelIndex a p < a.height * a.width := by
  obtain ⟨hx, hy⟩ := mem_offsets h
  calc pixelIndex a p < (p.2 - a.y1).toNat * a.width + a.width := Nat.add_lt_add_left hx _
    _ = ((p.2 - a.y1).toNat + 1) * a.width := (Nat.succ_mul _ _).symm
    _ ≤ a.height * a.width := Nat.mul_le_mul_right _ hy

theorem pixelAt_pixelIndex (h : p ∈ a.points) : pixelAt a (pixelIndex a p) = p := by
  obtain ⟨hx, -⟩ := mem_offsets h
  have hpos : 0 < a.width := by omega
  have hmod : pixelIndex a p % a.width = (p.1 - a.x1).toNat := by
    rw [pixelIndex, Nat.mul_comm, Nat.mul_add_mod, Nat.mod_eq_of_lt hx]
  have hdiv : pixelIndex a p / a.width = (p.2 - a.y1).toNat := by
    rw [pixelIndex, Nat.mul_comm, Nat.mul_add_div hpos, Nat.div_eq_of_lt hx, Nat.add_zero]
  rw [LvArea.mem_points] at h
  rw [pixelAt, hmod, hdiv]
  ext
  · show a.x1 + ((p.1 - a.x1).toNat : Int) = p.1
    omega
  · show a.y1 + ((p.2 - a.y1).toNat : Int) = p.2
    omega

end Pixels

namespace Driver

variable (d : Driver)

/-- The size of the panel as the flush callback sees it: a driver that turns the picture itself gets the areas
of the turned screen. -/
def panelRes : Int × Int :=
  if d.swRotate then (d.horRes, d.verRes) else (d.lvDispGetHorRes, d.lvDispGetVerRes)

/-- Where the software rotation puts a pixel. -/
def turn (p : Int × Int) : Int × Int :=
  if d.swRotate then
    match d.rotated with
    | .none => p
    | .rot90 => (p.2, d.verRes - 1 - p.1)
    | .rot180 => (d.horRes - 1 - p.1, d.verRes - 1 - p.2)
    | .rot270 => (d.horRes - 1 - p.2, p.1)
  else p

/-- The pixel of the panel for a pixel of the screen. -/
def place (p : Int × Int) : Int × Int := ((d.turn p).1 + d.offsetX, (d.turn p).2 + d.offsetY)

/-- A non-empty area of the panel, before the offset is added. -/
structure OnPanel (a : LvArea) : Prop where
  x : 0 ≤ a.x1 ∧ a.x1 ≤ a.x2 ∧ a.x2 < d.panelRes.1
  y : 0 ≤ a.y1 ∧ a.y1 ≤ a.y2 ∧ a.y2 < d.panelRes.2

/-- The area with the offset. -/
def shift (a : LvArea) : LvArea := ⟨a.x1 + d.offsetX, a.y1 + d.offsetY, a.x2 + d.offsetX, a.y2 + d.offsetY⟩

/-- The resolution is positive and has room for the offset. The draw buffers have at least one row, and a whole
screen where they are drawn as one; two buffers that are drawn to in turn are not larger. Only a display that is
drawn in parts is turned in software. -/
structure Ok : Prop where
  res : 0 < d.horRes ∧ 0 < d.verRes
  offset : 0 ≤ d.offsetX ∧ 0 ≤ d.offsetY
  range : d.panelRes.1 + d.offsetX < 2 ^ 15 ∧ d.panelRes.2 + d.offsetY < 2 ^ 15
  row : d.lvDispGetHorRes ≤ d.size
  whole : d.fullRefresh ∨ d.directMode → d.horRes * d.verRes ≤ d.size
  direct : d.directMode → d.buf2 → d.fullSized
  modes : d.directMode → d.fullRefresh = false
  turned : d.swRotate → d.rotated ≠ .none →
    d.fullRefresh = false ∧ d.directMode = false ∧ d.lvDispGetHorRes ≤ (lvDispRotMaxBuf / sizeofLvColor : Nat)

end Driver

/-- A panel whose driver copies exactly the area that it is given, as long as it is ready. -/
structure Panel (d : Driver) (σ ε γ : Type) where
  flush : FlushCb σ ε γ
  Ready : σ → Prop
  shows : σ → Int × Int → γ
  exact : ∀ q a px, Ready q → d.OnPanel a → ∃ q', flush q (d.shift a) px = .ok q' ∧ Ready q' ∧
    ∀ p, shows q' p = if p ∈ (d.shift a).points then px (pixelIndex (d.shift a) p) else shows q p

variable {d : Driver} {σ ε γ μ : Type} {s s' s'' : LvDisp σ γ μ} {c : Canvas γ}

/-- The panel is ready and shows a picture of the screen. -/
def Panel.Shows (P : Panel d σ ε γ) (q : σ) (c : Canvas γ) : Prop :=
  P.Ready q ∧ ∀ p ∈ d.screen.points, P.shows q (d.place p) = c p

/-- What flushing leaves as it is. -/
structure Kept (s s' : LvDisp σ γ μ) : Prop where
  scene : s'.scene = s.scene
  invAreas : s'.invAreas = s.invAreas
  invAreaJoined : s'.invAreaJoined = s.invAreaJoined
  invP : s'.invP = s.invP
  invEnCnt : s'.invEnCnt = s.invEnCnt
  syncAreas : s'.syncAreas = s.syncAreas
  renderingInProgress : s'.renderingInProgress = s.renderingInProgress
  lastArea : s'.lastArea = s.lastArea
  lastPart : s'.lastPart = s.lastPart

theorem Kept.refl (s : LvDisp σ γ μ) : Kept s s := ⟨rfl, rfl, rfl, rfl, rfl, rfl, rfl, rfl, rfl⟩

theorem Kept.trans (h : Kept s s') (h' : Kept s' s'') : Kept s s'' where
  scene := h'.scene.trans h.scene
  invAreas := h'.invAreas.trans h.invAreas
  invAreaJoined := h'.invAreaJoined.trans h.invAreaJoined
  invP := h'.invP.trans h.invP
  invEnCnt := h'.invEnCnt.trans h.invEnCnt
  syncAreas := h'.syncAreas.trans h.syncAreas
  renderingInProgress := h'.renderingInProgress.trans h.renderingInProgress
  lastArea := h'.lastArea.trans h.lastArea
  lastPart := h'.lastPart.trans h.lastPart

/-- What the interrupt leaves as it is. -/
structure Quiet (s s' : LvDisp σ γ μ) : Prop extends Kept s s' where
  buf : s'.buf = s.buf
  rotBuf : s'.rotBuf = s.rotBuf
  bufAct : s'.bufAct = s.bufAct
  flushes : s'.flushes = s.flushes

theorem Quiet.refl (s : LvDisp σ γ μ) : Quiet s s := ⟨.refl s, rfl, rfl, rfl, rfl⟩

theorem Quiet.trans (h : Quiet s s') (h' : Quiet s' s'') : Quiet s s'' where
  toKept := h.toKept.trans h'.toKept
  buf := h'.buf.trans h.buf
  rotBuf := h'.rotBuf.trans h.rotBuf
  bufAct := h'.bufAct.trans h.bufAct
  flushes := h'.flushes.trans h.flushes

/-- Once the panel has taken over what it has been given, it shows `c`. -/
def Shown (P : Panel d σ ε γ) (s : LvDisp σ γ μ) (c : Canvas γ) : Prop :=
  s.transfer.elim (P.Shows s.panel c) fun t =>
    ∃ q, P.flush s.panel t.area (s.pixels t) = .ok q ∧ P.Shows q c

/-- Between two flushes. A draw buffer that is filled while the other one is read is not the one that is
read. -/
structure Steady (P : Panel d σ ε γ) (s : LvDisp σ γ μ) (c : Canvas γ) : Prop where
  shown : Shown P s c
  flag : s.flushing = s.transfer.isSome
  apart : d.buf2 = true → d.fullSized = false → ∀ t, s.transfer = some t → t.source ≠ some s.bufAct

section Interrupt

variable {P : Panel d σ ε γ}

theorem Shown.of_none (h : Shown P s c) (hnone : s.transfer = none) : P.Shows s.panel c := by
  rwa [Shown, hnone] at h

theorem Shown.of_shows (hnone : s.transfer = none) (h : P.Shows s.panel c) : Shown P s c := by
  rwa [Shown, hnone]

theorem Shown.of_some {t : Transfer} (hsome : s.transfer = some t) {q : σ}
    (hq : P.flush s.panel t.area (s.pixels t) = .ok q) (h : P.Shows q c) : Shown P s c := by
  rw [Shown, hsome]
  exact ⟨q, hq, h⟩

theorem Panel.Shows.congr {q : σ} (h : P.Shows q c) {c' : Canvas γ} (hc : ∀ p ∈ d.screen.points, c p = c' p) :
    P.Shows q c' := ⟨h.1, fun p hp => (h.2 p hp).trans (hc p hp)⟩

theorem Shown.congr (h : Shown P s c) {c' : Canvas γ} (hc : ∀ p ∈ d.screen.points, c p = c' p) :
    Shown P s c' := by
  rw [Shown] at h ⊢
  cases htrans : s.transfer with
  | none =>
      rw [htrans] at h
      exact Panel.Shows.congr h hc
  | some t =>
      rw [htrans] at h
      obtain ⟨q, hq, hshows⟩ := h
      exact ⟨q, hq, hshows.congr hc⟩

theorem Steady.of_shows (h : P.Shows s.panel c) (hflag : s.flushing = false) (hnone : s.transfer = none) :
    Steady P s c where
  shown := .of_shows hnone h
  flag := by rw [hflag, hnone]; rfl
  apart _ _ t ht := by rw [hnone] at ht; cases ht

theorem complete_spec (h : Shown P s c) (hflag : s.flushing = s.transfer.isSome) :
    ∃ s', s.complete P.flush = .ok s' ∧ P.Shows s'.panel c ∧ s'.flushing = false ∧ s'.transfer = none ∧
      Quiet s s' := by
  rw [LvDisp.complete]
  cases htrans : s.transfer with
  | none =>
      rw [htrans] at hflag
      exact ⟨s, rfl, h.of_none htrans, hflag, htrans, .refl s⟩
  | some t =>
      rw [Shown, htrans] at h
      obtain ⟨q, hq, hshows⟩ := h
      simp only [hq]
      exact ⟨_, rfl, hshows, rfl, rfl, ⟨⟨rfl, rfl, rfl, rfl, rfl, rfl, rfl, rfl, rfl⟩, rfl, rfl, rfl, rfl⟩⟩

/-- The interrupt may come or not. -/
theorem interrupt_spec (h : Shown P s c) (hflag : s.flushing = s.transfer.isSome) :
    ∃ s', s.interrupt P.flush = .ok s' ∧ Shown P s' c ∧ s'.flushing = s'.transfer.isSome ∧ Quiet s s' ∧
      (s'.transfer = none ∨ s'.transfer = s.transfer) := by
  rw [LvDisp.interrupt]
  cases hbs : s.interrupts with
  | nil => exact ⟨s, rfl, h, hflag, .refl s, .inr rfl⟩
  | cons b bs =>
      have hquiet : Quiet s { s with interrupts := bs } :=
        ⟨⟨rfl, rfl, rfl, rfl, rfl, rfl, rfl, rfl, rfl⟩, rfl, rfl, rfl, rfl⟩
      cases b with
      | false => exact ⟨_, rfl, h, hflag, hquiet, .inr rfl⟩
      | true =>
          obtain ⟨s', hs', hshows, hflag', hnone, hquiet'⟩ :=
            complete_spec (show Shown P { s with interrupts := bs } c from h) hflag
          exact ⟨s', hs', .of_shows hnone hshows, by rw [hflag', hnone]; rfl, hquiet.trans hquiet', .inl hnone⟩

theorem Steady.interrupt (h : Steady P s c) : ∃ s', s.interrupt P.flush = .ok s' ∧ Steady P s' c ∧
    Quiet s s' ∧ (s'.transfer = none ∨ s'.transfer = s.transfer) := by
  obtain ⟨s', hs', hshown, hflag, hquiet, htrans⟩ := interrupt_spec h.shown h.flag
  refine ⟨s', hs', ⟨hshown, hflag, fun hbuf2 hsize t ht => ?_⟩, hquiet, htrans⟩
  rw [hquiet.bufAct]
  rcases htrans with hnone | heq
  · rw [hnone] at ht
    cases ht
  · exact h.apart hbuf2 hsize t (heq ▸ ht)

/-- After the wait the panel is idle. -/
theorem waitFlushing_spec (h : Shown P s c) (hflag : s.flushing = s.transfer.isSome) :
    ∃ s', s.waitFlushing P.flush = .ok s' ∧ P.Shows s'.panel c ∧ s'.flushing = false ∧ s'.transfer = none ∧
      Quiet s s' := by
  rw [LvDisp.waitFlushing, hflag]
  cases htrans : s.transfer with
  | none =>
      rw [htrans] at hflag
      exact ⟨s, rfl, h.of_none htrans, hflag, htrans, .refl s⟩
  | some t =>
      obtain ⟨s', hs', hrest⟩ := complete_spec h hflag
      exact ⟨s', by simpa using hs', hrest⟩

end Interrupt

/-! ### The flush callback -/

section Callback

variable {P : Panel d σ ε γ}

theorem Driver.OnPanel.lvCoord_eq (hd : d.Ok) {a : LvArea} (ha : d.OnPanel a) :
    (⟨lvCoord (a.x1 + d.offsetX), lvCoord (a.y1 + d.offsetY), lvCoord (a.x2 + d.offsetX),
      lvCoord (a.y2 + d.offsetY)⟩ : LvArea) = d.shift a := by
  have hx := ha.x
  have hy := ha.y
  have hoffset := hd.offset
  have hrange := hd.range
  rw [lvCoord_of_range (by omega) (by omega), lvCoord_of_range (by omega) (by omega),
    lvCoord_of_range (by omega) (by omega), lvCoord_of_range (by omega) (by omega), Driver.shift]

theorem mem_shift {a : LvArea} {p : Int × Int} :
    (p.1 + d.offsetX, p.2 + d.offsetY) ∈ (d.shift a).points ↔ p ∈ a.points := by
  simp only [Driver.shift, LvArea.mem_points]
  omega

theorem pixelIndex_shift {a : LvArea} {p : Int × Int} :
    pixelIndex (d.shift a) (p.1 + d.offsetX, p.2 + d.offsetY) = pixelIndex a p := by
  have hw : (d.shift a).width = a.width := by
    simp only [LvArea.width, Driver.shift]
    congr 1
    omega
  have hy : p.2 + d.offsetY - (a.y1 + d.offsetY) = p.2 - a.y1 := by omega
  have hx : p.1 + d.offsetX - (a.x1 + d.offsetX) = p.1 - a.x1 := by omega
  simp only [pixelIndex, hw]
  simp only [Driver.shift, hy, hx]

/-- The panel is given an area: on the screen that is where the pixels of the area are put. -/
theorem callFlushCb_spec (hd : d.Ok) (hshows : P.Shows s.panel c) (hflag : s.flushing = true)
    (hnone : s.transfer = none) {area : LvArea} (harea : d.OnPanel area) (source : Option Bool) (start : Nat) :
    ∃ s', s.callFlushCb d P.flush area source start = .ok s' ∧
      Shown P s' (fun p => if d.turn p ∈ area.points then
        source.elim s.rotBuf s.buf (start + pixelIndex area (d.turn p)) else c p) ∧
      s'.flushing = s'.transfer.isSome ∧ (∀ t, s'.transfer = some t → t.source = source) ∧ Kept s s' ∧
      s'.buf = s.buf ∧ s'.bufAct = s.bufAct ∧ s'.flushes = s.flushes ++ [(d.shift area, s.flushingLast)] := by
  simp only [LvDisp.callFlushCb, hnone, harea.lvCoord_eq hd, Option.isSome_none]
  rw [if_neg Bool.false_ne_true]
  obtain ⟨q', hq', hready, hexact⟩ := P.exact s.panel area
    (fun i => source.elim s.rotBuf s.buf (start + i)) hshows.1 harea
  have hshown : Shown P
      { s with
        transfer := some ⟨d.shift area, source, start⟩
        flushes := s.flushes ++ [(d.shift area, s.flushingLast)] }
      (fun p => if d.turn p ∈ area.points then
        source.elim s.rotBuf s.buf (start + pixelIndex area (d.turn p)) else c p) := by
    refine .of_some rfl hq' ⟨hready, fun p hp => ?_⟩
    rw [hexact, Driver.place]
    simp only [mem_shift, pixelIndex_shift]
    split
    · rfl
    · exact hshows.2 p hp
  obtain ⟨s', hs', hshown', hflag', hquiet, htrans⟩ := interrupt_spec hshown hflag
  refine ⟨s', hs', hshown', hflag', fun t ht => ?_, ⟨hquiet.scene, hquiet.invAreas, hquiet.invAreaJoined,
    hquiet.invP, hquiet.invEnCnt, hquiet.syncAreas, hquiet.renderingInProgress, hquiet.lastArea,
    hquiet.lastPart⟩, hquiet.buf, hquiet.bufAct, hquiet.flushes⟩
  rcases htrans with hnone' | heq
  · rw [hnone'] at ht
    cases ht
  · rw [heq] at ht
    cases ht
    rfl

end Callback

end SwmLvgl.Refr
