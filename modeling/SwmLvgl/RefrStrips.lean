import SwmLvgl.RefrParts

/-! An area is refreshed: as the whole screen, in the buffer that is the screen, or strip by strip. The strips
are the area, and only the last one of the last area carries the flag. -/

namespace SwmLvgl.Refr

open Disp
open Pm (lvCoord lvCoord_of_range)

variable {d : Driver} {σ ε γ μ : Type} {s s' s'' s₀ : LvDisp σ γ μ} {c : Canvas γ} {P : Panel d σ ε γ}
  {area : LvArea} {b : Bool} {D : Set (Int × Int)}

/-- What the refresh of an area leaves as it is. -/
structure Fixed (s s' : LvDisp σ γ μ) : Prop where
  scene : s'.scene = s.scene
  invAreas : s'.invAreas = s.invAreas
  invAreaJoined : s'.invAreaJoined = s.invAreaJoined
  invP : s'.invP = s.invP
  invEnCnt : s'.invEnCnt = s.invEnCnt
  syncAreas : s'.syncAreas = s.syncAreas

theorem Fixed.refl (s : LvDisp σ γ μ) : Fixed s s := ⟨rfl, rfl, rfl, rfl, rfl, rfl⟩

theorem Fixed.trans (h : Fixed s s') (h' : Fixed s' s'') : Fixed s s'' where
  scene := h'.scene.trans h.scene
  invAreas := h'.invAreas.trans h.invAreas
  invAreaJoined := h'.invAreaJoined.trans h.invAreaJoined
  invP := h'.invP.trans h.invP
  invEnCnt := h'.invEnCnt.trans h.invEnCnt
  syncAreas := h'.syncAreas.trans h.syncAreas

theorem Kept.fixed (h : Kept s s') : Fixed s s' :=
  ⟨h.scene, h.invAreas, h.invAreaJoined, h.invP, h.invEnCnt, h.syncAreas⟩

/-- Outside of `D` the panel shows the scene, and in direct mode the draw buffer `b` holds it. -/
structure Clean (P : Panel d σ ε γ) (b : Bool) (D : Set (Int × Int)) (s : LvDisp σ γ μ) : Prop where
  picture : ∃ c, Steady P s c ∧ ∀ p ∈ d.screen.points, p ∉ D → s.scene.Fits p (c p)
  buffer : d.directMode → ∀ p ∈ d.screen.points, p ∉ D → s.scene.Fits p (s.buf b (pixelIndex d.screen p))

/-- An area has been refreshed, with the draw buffer `b` in direct mode. -/
structure Refreshed (P : Panel d σ ε γ) (b : Bool) (area : LvArea) (D : Set (Int × Int)) (s s' : LvDisp σ γ μ) :
    Prop where
  clean : Clean P b (D \ area.points) s'
  fixed : Fixed s s'
  rendering : s'.renderingInProgress = s.renderingInProgress
  lastArea : s'.lastArea = s.lastArea
  flushes : Flagged s s' s.lastArea
  direct : d.directMode → s'.bufAct = (if d.buf2 && s.lastArea then !b else b) ∧ s'.buf (!b) = s.buf (!b) ∧
    ∀ t, s'.transfer = some t → t.source = some b

namespace Driver

theorem Ok.screen_eq (hd : d.Ok) : d.screen = ⟨0, 0, d.lvDispGetHorRes - 1, d.lvDispGetVerRes - 1⟩ := by
  obtain ⟨hw, hh, hw0, hh0, -⟩ := hd.range_screen
  rw [screen, lvCoord_of_range (by omega) (by omega), lvCoord_of_range (by omega) (by omega)]

theorem Ok.onScreen (hd : d.Ok) : d.OnScreen d.screen := by
  obtain ⟨-, -, hw0, hh0, -⟩ := hd.range_screen
  rw [hd.screen_eq]
  constructor <;> dsimp only <;> omega

theorem OnScreen.subset (hd : d.Ok) (harea : d.OnScreen area) : area.points ⊆ d.screen.points := by
  intro p hp
  obtain ⟨hx, hy⟩ := harea
  rw [hd.screen_eq, LvArea.mem_points]
  rw [LvArea.mem_points] at hp
  dsimp only
  omega

/-- A draw buffer that is drawn as a whole is as large as the screen. -/
theorem Ok.screen_fits (hd : d.Ok) (hwhole : d.fullRefresh ∨ d.directMode) :
    d.screen.height * d.screen.width ≤ d.size := by
  obtain ⟨hw, hh, hw0, hh0, -⟩ := hd.range_screen
  have hsize := hd.whole hwhole
  have hres := hd.res
  have hprod : d.lvDispGetHorRes * d.lvDispGetVerRes = d.horRes * d.verRes := by
    rw [lvDispGetHorRes, lvDispGetVerRes]
    split
    · exact Int.mul_comm _ _
    · rfl
  obtain ⟨-, -, hwidth, hheight⟩ := hd.onScreen.size hd
  rw [hd.screen_eq] at hwidth hheight ⊢
  have hcast : ((LvArea.height ⟨0, 0, d.lvDispGetHorRes - 1, d.lvDispGetVerRes - 1⟩ *
      LvArea.width ⟨0, 0, d.lvDispGetHorRes - 1, d.lvDispGetVerRes - 1⟩ : Nat) : Int) ≤ d.size := by
    rw [Int.natCast_mul, hwidth, hheight]
    dsimp only
    rw [show d.lvDispGetVerRes - 1 - 0 + 1 = d.lvDispGetVerRes by omega,
      show d.lvDispGetHorRes - 1 - 0 + 1 = d.lvDispGetHorRes by omega, Int.mul_comm, hprod]
    exact hsize
  exact Int.ofNat_le.mp hcast

end Driver

theorem refrArea_full (hd : d.Ok) (hs : d.Solid s.scene) (h : Clean P b D s) (hfull : d.fullRefresh = true)
    (area : LvArea) : ∃ s', s.refrArea d P.flush area = .ok s' ∧ Refreshed P b area D s s' := by
  obtain ⟨c, hsteady, -⟩ := h.picture
  have hdirect : ¬d.directMode := fun hdirect => by
    have := hd.modes hdirect
    rw [hfull] at this
    cases this
  let s₁ : LvDisp σ γ μ := { s with lastPart := true }
  obtain ⟨s', hs', hdrawn⟩ := refrAreaPart_spec hd (show Steady P s₁ c from ⟨hsteady.shown, hsteady.flag,
    hsteady.apart⟩) hs.honest hd.onScreen (hd.screen_fits (.inl hfull)) (fun _ hp => hp)
  have hfixed₁ : Fixed s s₁ := ⟨rfl, rfl, rfl, rfl, rfl, rfl⟩
  have hfixed : Fixed s s' := hfixed₁.trans hdrawn.kept.fixed
  refine ⟨s', by rw [LvDisp.refrArea, if_pos hfull, hs'], ⟨⟨_, hdrawn.steady, fun p hp _ => ?_⟩,
    fun h => absurd h hdirect⟩, hfixed, hdrawn.kept.renderingInProgress, hdrawn.kept.lastArea, ?_,
    fun h => absurd h hdirect⟩
  · rw [if_pos hp, LvDisp.drawn, if_pos hp, hfixed.scene]
    exact hs.fits hp _
  · have hflags := hdrawn.flushes
    rwa [show (s₁.lastArea && s₁.lastPart) = s.lastArea from Bool.and_true _] at hflags

/-- In direct mode the flush shows the whole buffer. -/
theorem refrArea_direct (hd : d.Ok) (hs : d.Solid s.scene) (h : Clean P b D s) (hdirect : d.directMode = true)
    (hb : s.bufAct = b) (harea : d.OnScreen area) :
    ∃ s', s.refrArea d P.flush area = .ok s' ∧ Refreshed P b area D s s' := by
  obtain ⟨c, hsteady, -⟩ := h.picture
  subst hb
  have hturn : ¬d.Turning := fun hturning => by
    have := (hd.turned hturning.2 hturning.1).2.1
    rw [hdirect] at this
    cases this
  let s₁ : LvDisp σ γ μ := { s with lastPart := s.lastArea }
  obtain ⟨s', hs', hdrawn⟩ := refrAreaPart_spec hd (show Steady P s₁ c from ⟨hsteady.shown, hsteady.flag,
    hsteady.apart⟩) hs.honest hd.onScreen (hd.screen_fits (.inr hdirect)) (harea.subset hd)
  have hfixed₁ : Fixed s s₁ := ⟨rfl, rfl, rfl, rfl, rfl, rfl⟩
  have hfixed : Fixed s s' := hfixed₁.trans hdrawn.kept.fixed
  have hlast : (s₁.lastArea && s₁.lastPart) = s.lastArea := Bool.and_self _
  have hfits : ∀ p ∈ d.screen.points, p ∉ D \ area.points → s.scene.Fits p (s₁.drawn d.screen area p) := by
    intro p hp hD
    rw [LvDisp.drawn]
    split
    · exact hs.fits hp _
    · next hnot => exact h.buffer hdirect p hp fun hpD => hD ⟨hpD, hnot⟩
  refine ⟨s', by rw [LvDisp.refrArea, hd.modes hdirect, if_neg Bool.false_ne_true, if_pos hdirect, hs'],
    ⟨⟨_, hdrawn.steady, fun p hp hD => ?_⟩, fun _ p hp hD => ?_⟩, hfixed, hdrawn.kept.renderingInProgress,
    hdrawn.kept.lastArea, ?_, fun _ => ⟨?_, hdrawn.other hturn, hdrawn.source⟩⟩
  · rw [if_pos hp, hfixed.scene]
    exact hfits p hp hD
  · rw [hfixed.scene, hdrawn.pixels hturn p hp]
    exact hfits p hp hD
  · have hflags := hdrawn.flushes
    rwa [hlast] at hflags
  · rw [hdrawn.bufAct, hlast, hdirect]
    rfl

/-! ### Strip by strip -/

/-- The strips before `row` have been refreshed. -/
structure Strips (P : Panel d σ ε γ) (area : LvArea) (s₀ : LvDisp σ γ μ) (c : Canvas γ) (row rowLast : Int)
    (s : LvDisp σ γ μ) : Prop where
  rows : area.y1 ≤ row ∧ row ≤ area.y2 + 1
  rowLast : row = area.y1 ∨ rowLast = row - 1
  picture : ∃ c', Steady P s c' ∧ ∀ p ∈ d.screen.points,
    if p ∈ area.points ∧ p.2 < row then s₀.scene.Fits p (c' p) else c' p = c p
  fixed : Fixed s₀ s
  rendering : s.renderingInProgress = s₀.renderingInProgress
  lastArea : s.lastArea = s₀.lastArea
  lastPart : row ≤ area.y2 → s.lastPart = false
  flushes : if row ≤ area.y2 then Unflagged s₀ s else Flagged s₀ s s₀.lastArea

section Strip

variable {row rowLast height : Int}

/-- The last strip is the one that ends with the area. -/
theorem strip_spec (hd : d.Ok) (hs : d.Solid s₀.scene) (harea : d.OnScreen area)
    (h : Strips P area s₀ c row rowLast s) (hheight : 0 < height) (hend : row + height - 1 ≤ area.y2)
    (hfit : height.toNat * area.width ≤ d.size) : ∃ s',
    LvDisp.refrAreaPart d P.flush { s with lastPart := decide (area.y2 = row + height - 1) }
        ⟨area.x1, row, area.x2, row + height - 1⟩ ⟨area.x1, row, area.x2, row + height - 1⟩ = .ok s' ∧
      Strips P area s₀ c (row + height) (row + height - 1) s' := by
  obtain ⟨c', hsteady, hc'⟩ := h.picture
  have hx := harea.x
  have hy := harea.y
  have hrows := h.rows
  let sub : LvArea := ⟨area.x1, row, area.x2, row + height - 1⟩
  let s₁ : LvDisp σ γ μ := { s with lastPart := decide (area.y2 = row + height - 1) }
  have hsub : d.OnScreen sub := ⟨hx, ⟨by dsimp only [sub]; omega, by dsimp only [sub]; omega⟩⟩
  have hsize : sub.height * sub.width ≤ d.size := by
    have hh : sub.height = height.toNat := by
      simp only [sub, LvArea.height]
      congr 1
      omega
    rw [hh]
    exact hfit
  have hscene : s₁.scene = s₀.scene := h.fixed.scene
  obtain ⟨s', hs', hdrawn⟩ := refrAreaPart_spec hd (show Steady P s₁ c' from ⟨hsteady.shown, hsteady.flag,
    hsteady.apart⟩) (hscene ▸ hs.honest) hsub hsize (fun _ hp => hp)
  have hfixed₁ : Fixed s s₁ := ⟨rfl, rfl, rfl, rfl, rfl, rfl⟩
  refine ⟨s', hs', ⟨⟨by omega, by omega⟩, .inr rfl, ⟨_, hdrawn.steady, fun p hp => ?_⟩,
    h.fixed.trans (hfixed₁.trans hdrawn.kept.fixed), hdrawn.kept.renderingInProgress.trans h.rendering,
    hdrawn.kept.lastArea.trans h.lastArea, fun hle => ?_, ?_⟩⟩
  · have hold := hc' p hp
    have hmem : p ∈ sub.points ↔ p ∈ area.points ∧ row ≤ p.2 ∧ p.2 < row + height := by
      simp only [sub, LvArea.mem_points]
      omega
    by_cases hin : p ∈ sub.points
    · rw [if_pos hin, LvDisp.drawn, if_pos hin, hscene, if_pos ⟨(hmem.mp hin).1, (hmem.mp hin).2.2⟩]
      exact hs.fits hp _
    · rw [if_neg hin]
      rw [hmem] at hin
      by_cases hbefore : p ∈ area.points ∧ p.2 < row
      · rw [if_pos hbefore] at hold
        rw [if_pos ⟨hbefore.1, by omega⟩]
        exact hold
      · rw [if_neg hbefore] at hold
        rw [if_neg fun h => ?_]
        · exact hold
        · by_cases hrow : row ≤ p.2
          · exact hin ⟨h.1, hrow, h.2⟩
          · exact hbefore ⟨h.1, by omega⟩
  · rw [hdrawn.kept.lastPart]
    exact decide_eq_false (by omega)
  · have hbefore := h.flushes
    rw [if_pos (by omega)] at hbefore
    have hflags : Flagged s s' _ := hdrawn.flushes
    have hlast : (s₁.lastArea && s₁.lastPart) = (s₀.lastArea && decide (area.y2 = row + height - 1)) := by
      rw [← h.lastArea]
    rw [hlast] at hflags
    by_cases hlast : area.y2 = row + height - 1
    · rw [if_neg (by omega)]
      rw [decide_eq_true hlast, Bool.and_true] at hflags
      exact hbefore.flagged hflags
    · rw [if_pos (by omega)]
      rw [decide_eq_false hlast, Bool.and_false] at hflags
      exact (hbefore.flagged hflags).unflagged

/-- `get_max_row` gives at least one row, and no more than fit into the draw buffer. -/
theorem getMaxRow_spec (hd : d.Ok) (harea : d.OnScreen area) :
    0 < d.getMaxRow area.width area.height ∧ d.getMaxRow area.width area.height ≤ area.height ∧
      (d.getMaxRow area.width area.height).toNat * area.width ≤ d.size := by
  obtain ⟨-, -, hw, hh⟩ := harea.size hd
  have hx := harea.x
  have hy := harea.y
  have hrow := hd.row
  have hwpos : 0 < area.width := by omega
  have hone : 1 ≤ d.size / area.width := by
    rw [Nat.le_div_iff_mul_le hwpos]
    omega
  have hle : (d.getMaxRow area.width area.height).toNat ≤ d.size / area.width := by
    rw [Driver.getMaxRow, ← Int.natCast_ediv]
    split <;> omega
  refine ⟨?_, ?_, ?_⟩
  · rw [Driver.getMaxRow, ← Int.natCast_ediv]
    split <;> omega
  · rw [Driver.getMaxRow, ← Int.natCast_ediv]
    split <;> omega
  · exact (Nat.mul_le_mul_right _ hle).trans (Nat.div_mul_le_self _ _)

theorem refrArea_partial (hd : d.Ok) (hs : d.Solid s.scene) (h : Clean P b D s) (hpart : s.lastPart = false)
    (hfull : d.fullRefresh = false) (hdirect : d.directMode = false) (harea : d.OnScreen area) :
    ∃ s', s.refrArea d P.flush area = .ok s' ∧ Refreshed P b area D s s' := by
  obtain ⟨c, hsteady, hc⟩ := h.picture
  obtain ⟨hgw, hgh, hw, hh⟩ := harea.size hd
  obtain ⟨hres, hres', -⟩ := hd.range_screen
  obtain ⟨hone, hmax, hfit⟩ := getMaxRow_spec hd harea
  have hx := harea.x
  have hy := harea.y
  let maxRow := d.getMaxRow area.width area.height
  have hstart : Strips P area s c area.y1 0 s := by
    refine ⟨⟨Int.le_refl _, by omega⟩, .inl rfl, ⟨c, hsteady, fun p _ => ?_⟩, .refl s, rfl, rfl, fun _ => hpart, ?_⟩
    · rw [if_neg]
      rw [LvArea.mem_points]
      omega
    · rw [if_pos (by omega)]
      exact .of_eq rfl
  obtain ⟨r, hr, row, rowLast, s₁, rfl, hstrips, hrow⟩ : ∃ r, Loop.run (LvDisp.refrAreaStep d P.flush area area.y2
      maxRow) (area.height + 1) (area.y1, 0, s) = some r ∧ ∃ row rowLast s₁, r = .ok (row, rowLast, s₁) ∧
        Strips P area s c row rowLast s₁ ∧ area.y2 < row + maxRow - 1 := by
    refine Loop.run_of_measure (I := fun st => Strips P area s c st.1 st.2.1 st.2.2)
      (fun st => (area.y2 + 1 - st.1).toNat) (fun st hI => ?_) hstart (by dsimp only; omega)
    obtain ⟨row, rowLast, s₁⟩ := st
    have hI : Strips P area s c row rowLast s₁ := hI
    have hrows := hI.rows
    by_cases hle : row + maxRow - 1 ≤ area.y2
    · obtain ⟨s', hs', hstrips⟩ := strip_spec hd hs harea hI hone hle hfit
      refine .inl ⟨(row + maxRow, row + maxRow - 1, s'), ?_, hstrips, by dsimp only; omega⟩
      have hlast : (if area.y2 = row + maxRow - 1 then { s₁ with lastPart := true } else s₁) =
          { s₁ with lastPart := decide (area.y2 = row + maxRow - 1) } := by
        split
        · next heq => rw [decide_eq_true heq]
        · next hne => rw [decide_eq_false hne, ← hI.lastPart (by omega)]
      simp only [LvDisp.refrAreaStep, if_pos hle]
      rw [@lvCoord_of_range (row + maxRow - 1) (by omega) (by omega), lvCoord_of_range (by omega) (by omega),
        if_neg (show ¬row + maxRow - 1 > area.y2 by omega), hlast, hs']
    · exact .inr ⟨_, if_neg hle, row, rowLast, s₁, rfl, hI, by omega⟩
  have hrows := hstrips.rows
  have hrowLast : rowLast = row - 1 := hstrips.rowLast.resolve_left (by omega)
  -- the rows that are left are fewer than fit into the buffer
  obtain ⟨s', rowLast', hs', hdone⟩ : ∃ s' rowLast', (if area.y2 ≠ rowLast then
      LvDisp.refrAreaPart d P.flush { s₁ with lastPart := true } ⟨area.x1, row, area.x2, area.y2⟩
        ⟨area.x1, row, area.x2, area.y2⟩
      else .ok s₁) = .ok s' ∧ Strips P area s c (area.y2 + 1) rowLast' s' := by
    by_cases hleft : area.y2 = rowLast
    · refine ⟨s₁, rowLast, if_neg (by simpa using hleft), ?_⟩
      rwa [show area.y2 + 1 = row by omega]
    · have hfew : (area.y2 + 1 - row).toNat * area.width ≤ d.size :=
        (Nat.mul_le_mul_right _ (Int.toNat_le_toNat (by omega))).trans hfit
      obtain ⟨s', hs', hstrips'⟩ := strip_spec hd hs harea hstrips (by omega) (by omega) hfew
      rw [show row + (area.y2 + 1 - row) - 1 = area.y2 by omega] at hs' hstrips'
      rw [show row + (area.y2 + 1 - row) = area.y2 + 1 by omega] at hstrips'
      rw [decide_eq_true rfl] at hs'
      exact ⟨s', area.y2, by rw [if_pos hleft, hs'], hstrips'⟩
  obtain ⟨c', hsteady', hc'⟩ := hdone.picture
  have hflags := hdone.flushes
  rw [if_neg (by omega)] at hflags
  have hdirect' : ¬d.directMode := by
    rw [hdirect]
    exact Bool.false_ne_true
  refine ⟨s', ?_, ⟨⟨c', hsteady', fun p hp hD => ?_⟩, fun h => absurd h hdirect'⟩, hdone.fixed, hdone.rendering,
    hdone.lastArea, hflags, fun h => absurd h hdirect'⟩
  · rw [LvDisp.refrArea, hfull, if_neg Bool.false_ne_true, if_neg hdirect', if_neg (by omega), hgw, hgh]
    dsimp only
    rw [hr]
    exact hs'
  · have hnew := hc' p hp
    rw [hdone.fixed.scene]
    split at hnew
    · exact hnew
    · next hout =>
      rw [hnew]
      refine hc p hp fun hpD => hD ⟨hpD, fun hin => hout ⟨hin, ?_⟩⟩
      rw [LvArea.mem_points] at hin
      omega

end Strip

/-- **An area is refreshed**: the panel shows the scene there too, and the last part of the last area carries
the flag. -/
theorem refrArea_spec (hd : d.Ok) (hs : d.Solid s.scene) (h : Clean P b D s) (hpart : s.lastPart = false)
    (hb : d.directMode → s.bufAct = b) (harea : d.OnScreen area) :
    ∃ s', s.refrArea d P.flush area = .ok s' ∧ Refreshed P b area D s s' := by
  cases hfull : d.fullRefresh with
  | true => exact refrArea_full hd hs h hfull area
  | false =>
      cases hdirect : d.directMode with
      | true => exact refrArea_direct hd hs h hdirect (hb hdirect) harea
      | false => exact refrArea_partial hd hs h hpart hfull hdirect harea

end SwmLvgl.Refr
