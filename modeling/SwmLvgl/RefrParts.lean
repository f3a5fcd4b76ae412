import SwmLvgl.RefrTurn

/-! A part of the screen is drawn into the active draw buffer and flushed. No draw buffer is drawn to while the
panel reads it, and nothing is drawn outside of it. -/

namespace SwmLvgl.Refr

open Disp
open Pm (lvCoord lvCoord_of_range)

variable {d : Driver} {σ ε γ μ : Type} {s s' s'' : LvDisp σ γ μ} {c : Canvas γ} {P : Panel d σ ε γ}
  {bufArea clip area : LvArea}

/-- A scene whose objects keep the contracts of their classes, and that covers the screen. -/
structure Driver.Solid (d : Driver) (scene : Scene γ μ) : Prop where
  honest : scene.Honest
  covers : ∀ p ∈ d.screen.points, ∀ x y, scene.paint p x = scene.paint p y

/-- The colour of a pixel in the picture of the scene. -/
def Scene.Fits (scene : Scene γ μ) (p : Int × Int) (v : γ) : Prop := ∀ x, v = scene.paint p x

theorem Driver.Solid.fits {scene : Scene γ μ} (h : d.Solid scene) {p : Int × Int} (hp : p ∈ d.screen.points)
    (x : γ) : scene.Fits p (scene.paint p x) := h.covers p hp x

/-- What the draw buffer holds for an area after the objects have been drawn in the clip area. -/
def LvDisp.drawn (s : LvDisp σ γ μ) (bufArea clip : LvArea) : Canvas γ := fun p =>
  if p ∈ clip.points then s.scene.paint p (s.buf s.bufAct (pixelIndex bufArea p))
  else s.buf s.bufAct (pixelIndex bufArea p)

/-- The panel may go on reading while pixels change that it does not read. -/
theorem Steady.of_pixels (h : Steady P s c) (hpanel : s'.panel = s.panel) (htrans : s'.transfer = s.transfer)
    (hflag : s'.flushing = s.flushing) (hact : s'.bufAct = s.bufAct)
    (hpixels : ∀ t, s.transfer = some t → s'.pixels t = s.pixels t) : Steady P s' c := by
  refine ⟨?_, by rw [hflag, htrans, h.flag], by rw [htrans, hact]; exact h.apart⟩
  have hshown := h.shown
  rw [Shown, htrans, hpanel]
  rw [Shown] at hshown
  cases hsome : s.transfer with
  | none =>
      rw [hsome] at hshown
      exact hshown
  | some t =>
      rw [hsome] at hshown
      obtain ⟨q, hq, hshows⟩ := hshown
      exact ⟨q, by rw [hpixels t hsome, hq], hshows⟩

/-- Only a draw buffer that the panel does not read is changed. -/
theorem pixels_update {buf : Nat → γ} (hfree : ∀ t, s.transfer = some t → t.source ≠ some s.bufAct) (t : Transfer)
    (ht : s.transfer = some t) :
    LvDisp.pixels { s with buf := Function.update s.buf s.bufAct buf } t = s.pixels t := by
  funext i
  show (t.source.elim s.rotBuf (Function.update s.buf s.bufAct buf)) _ = (t.source.elim s.rotBuf s.buf) _
  cases hsource : t.source with
  | none => rfl
  | some b =>
      have hne : b ≠ s.bufAct := fun heq => hfree t ht (by rw [hsource, heq])
      rw [Option.elim_some, Option.elim_some, Function.update_of_ne hne]

theorem draw_spec (h : Steady P s c) (hs : s.scene.Honest) (hfit : bufArea.height * bufArea.width ≤ d.size)
    (hfree : ∀ t, s.transfer = some t → t.source ≠ some s.bufAct) (hsub : clip.points ⊆ bufArea.points) :
    ∃ s', s.draw d bufArea clip = (.ok s' : Except (Fault ε) _) ∧ Steady P s' c ∧ Kept s s' ∧
      s'.transfer = s.transfer ∧ s'.bufAct = s.bufAct ∧ s'.flushes = s.flushes ∧
      s'.buf (!s.bufAct) = s.buf (!s.bufAct) ∧
      ∀ p ∈ bufArea.points, s'.buf s.bufAct (pixelIndex bufArea p) = s.drawn bufArea clip p := by
  have hrace : (s.transfer.any fun t => t.source = some s.bufAct) = false := by
    cases htrans : s.transfer with
    | none => rfl
    | some t => simpa using hfree t htrans
  let canvas := s.scene.render bufArea clip fun p => s.buf s.bufAct (pixelIndex bufArea p)
  refine ⟨{ s with buf := Function.update s.buf s.bufAct fun i =>
      if i < bufArea.height * bufArea.width then canvas (pixelAt bufArea i) else s.buf s.bufAct i }, ?_,
    h.of_pixels rfl rfl rfl rfl (pixels_update hfree), ⟨rfl, rfl, rfl, rfl, rfl, rfl, rfl, rfl, rfl⟩, rfl, rfl, rfl,
    ?_, fun p hp => ?_⟩
  · rw [LvDisp.draw, if_neg (by omega), hrace, if_neg Bool.false_ne_true]
  · exact Function.update_of_ne (by cases s.bufAct <;> decide) _ _
  · show Function.update s.buf s.bufAct _ s.bufAct (pixelIndex bufArea p) = _
    rw [Function.update_self, if_pos (pixelIndex_lt hp), pixelAt_pixelIndex hp]
    exact Scene.render_apply hs hsub _

/-- A part has been drawn, and given to the panel. -/
structure Drawn (P : Panel d σ ε γ) (bufArea clip : LvArea) (s : LvDisp σ γ μ) (c : Canvas γ)
    (s' : LvDisp σ γ μ) : Prop where
  steady : Steady P s' fun p => if p ∈ bufArea.points then s.drawn bufArea clip p else c p
  kept : Kept s s'
  bufAct : s'.bufAct =
    if d.buf2 && (!d.directMode || (s.lastArea && s.lastPart)) then !s.bufAct else s.bufAct
  pixels : ¬d.Turning → ∀ p ∈ bufArea.points, s'.buf s.bufAct (pixelIndex bufArea p) = s.drawn bufArea clip p
  other : ¬d.Turning → s'.buf (!s.bufAct) = s.buf (!s.bufAct)
  source : ∀ t, s'.transfer = some t → t.source = some s.bufAct
  flushes : Flagged s s' (s.lastArea && s.lastPart)

/-- Before the buffers are exchanged the panel has to be ready for the next one. -/
theorem drawBufFlush_spec (hd : d.Ok) (h : Steady P s c) (harea : d.OnScreen area)
    (hidle : (d.buf2 && !d.fullSized) = false → s.transfer = none) :
    ∃ s', s.drawBufFlush d P.flush area = .ok s' ∧
      Steady P s' (fun p => if p ∈ area.points then s.buf s.bufAct (pixelIndex area p) else c p) ∧ Kept s s' ∧
      s'.bufAct = (if d.buf2 && (!d.directMode || (s.lastArea && s.lastPart)) then !s.bufAct else s.bufAct) ∧
      (¬d.Turning → s'.buf = s.buf) ∧ (∀ t, s'.transfer = some t → t.source = some s.bufAct) ∧
      Flagged s s' (s.lastArea && s.lastPart) := by
  -- the wait leaves the panel idle, whether it is made or not needed
  obtain ⟨s₁, hs₁, hshows, hnone, hquiet⟩ : ∃ s₁, (if d.buf2 && !d.fullSized then s.waitFlushing P.flush
      else .ok s) = .ok s₁ ∧ P.Shows s₁.panel c ∧ s₁.transfer = none ∧ Quiet s s₁ := by
    by_cases hwait : (d.buf2 && !d.fullSized) = true
    · obtain ⟨s₁, hs₁, hshows, -, hnone, hquiet⟩ := waitFlushing_spec h.shown h.flag
      exact ⟨s₁, by rw [if_pos hwait, hs₁], hshows, hnone, hquiet⟩
    · have hnone := hidle (eq_false_of_ne_true hwait)
      exact ⟨s, if_neg hwait, h.shown.of_none hnone, hnone, .refl s⟩
  let s₂ : LvDisp σ γ μ := { s₁ with flushing := true, flushingLast := s₁.lastArea && s₁.lastPart }
  obtain ⟨s₃, hs₃, hflushed⟩ := turnedFlush_spec hd (show P.Shows s₂.panel c from hshows) rfl hnone rfl harea
  have hlast : (s₂.lastArea && s₂.lastPart) = (s.lastArea && s.lastPart) :=
    congrArg₂ and hquiet.lastArea hquiet.lastPart
  have hact : s₂.bufAct = s.bufAct := hquiet.bufAct
  have hkept₂ : Kept s₁ s₂ := ⟨rfl, rfl, rfl, rfl, rfl, rfl, rfl, rfl, rfl⟩
  have hkept : Kept s s₃ := hquiet.toKept.trans (hkept₂.trans hflushed.kept)
  have hbuf : s₂.buf = s.buf := hquiet.buf
  have hflush : s.drawBufFlush d P.flush area = .ok
      (if d.buf2 && (!d.directMode || (s.lastArea && s.lastPart)) then { s₃ with bufAct := !s₃.bufAct }
        else s₃) := by
    rw [LvDisp.drawBufFlush]
    refine (Run.bind_of_ok hs₁).trans ?_
    refine (Run.bind_of_ok hs₃).trans ?_
    rw [← hlast]
    rfl
  have hshown : Shown P s₃ fun p => if p ∈ area.points then s.buf s.bufAct (pixelIndex area p) else c p := by
    have hshown := hflushed.shown
    rwa [hbuf, hact] at hshown
  have hsource : ∀ t, s₃.transfer = some t → t.source = some s.bufAct := by
    rw [← hact]
    exact hflushed.source
  have hbuf₃ : ¬d.Turning → s₃.buf = s.buf := fun h => (hflushed.buf h).trans hbuf
  have hact₃ : s₃.bufAct = s.bufAct := hflushed.bufAct.trans hact
  have hflags : Flagged s s₃ (s.lastArea && s.lastPart) := by
    rw [← hlast]
    exact (Unflagged.of_eq (show s₂.flushes = s.flushes from hquiet.flushes)).flagged hflushed.flushes
  rw [hflush]
  by_cases hswap : (d.buf2 && (!d.directMode || (s.lastArea && s.lastPart))) = true
  · rw [if_pos hswap]
    refine ⟨_, rfl, ⟨hshown, hflushed.flag, fun _ _ t ht => ?_⟩, ⟨hkept.scene, hkept.invAreas,
      hkept.invAreaJoined, hkept.invP, hkept.invEnCnt, hkept.syncAreas, hkept.renderingInProgress, hkept.lastArea,
      hkept.lastPart⟩, by rw [if_pos hswap, ← hact₃], hbuf₃, hsource, hflags⟩
    rw [hsource t ht, hact₃]
    simp
  · rw [if_neg hswap]
    refine ⟨s₃, rfl, ⟨hshown, hflushed.flag, fun hbuf2 hsize => ?_⟩, hkept, by rw [if_neg hswap, hact₃], hbuf₃,
      hsource, hflags⟩
    have hdirect : d.directMode = false := by
      by_contra hdirect
      have := hd.direct (by simpa using hdirect) hbuf2
      rw [hsize] at this
      cases this
    rw [hbuf2, hdirect] at hswap
    exact absurd rfl hswap

/-- **A part of the screen**: it is drawn and flushed, whenever the interrupts come. -/
theorem refrAreaPart_spec (hd : d.Ok) (h : Steady P s c) (hs : s.scene.Honest) (harea : d.OnScreen bufArea)
    (hfit : bufArea.height * bufArea.width ≤ d.size) (hsub : clip.points ⊆ bufArea.points) :
    ∃ s', s.refrAreaPart d P.flush bufArea clip = .ok s' ∧ Drawn P bufArea clip s c s' := by
  obtain ⟨s₁, hs₁, hsteady₁, hquiet₁, -⟩ := h.interrupt
  obtain ⟨s₂, hs₂, hsteady₂, hquiet₂, hidle₂⟩ : ∃ s₂, (if !d.buf2 || d.fullSized then s₁.waitFlushing P.flush
      else .ok s₁) = .ok s₂ ∧ Steady P s₂ c ∧ Quiet s₁ s₂ ∧
        ((d.buf2 && !d.fullSized) = false → s₂.transfer = none) := by
    cases hwait : (!d.buf2 || d.fullSized) with
    | true =>
        obtain ⟨s₂, hs₂, hshows, hflag, hnone, hquiet⟩ := waitFlushing_spec hsteady₁.shown hsteady₁.flag
        exact ⟨s₂, by rw [if_pos rfl, hs₂], .of_shows hshows hflag hnone, hquiet, fun _ => hnone⟩
    | false =>
        refine ⟨s₁, if_neg Bool.false_ne_true, hsteady₁, .refl s₁, fun h => ?_⟩
        have hnot := congrArg not hwait
        rw [Bool.not_or, Bool.not_not, h] at hnot
        cases hnot
  have hfree : ∀ t, s₂.transfer = some t → t.source ≠ some s₂.bufAct := by
    intro t ht
    cases hfull : (d.buf2 && !d.fullSized) with
    | false =>
        rw [hidle₂ hfull] at ht
        cases ht
    | true =>
        obtain ⟨hbuf2, hsize⟩ := Bool.and_eq_true_iff.mp hfull
        exact hsteady₂.apart hbuf2 (by simpa using hsize) t ht
  have hquiet : Quiet s s₂ := hquiet₁.trans hquiet₂
  obtain ⟨s₃, hs₃, hsteady₃, hkept₃, htrans₃, hact₃, hflushes₃, hother₃, hpixels₃⟩ :=
    draw_spec hsteady₂ (hquiet.scene ▸ hs) hfit hfree hsub
  obtain ⟨s₄, hs₄, hsteady₄, hquiet₄, htrans₄⟩ := hsteady₃.interrupt
  have hidle₄ : (d.buf2 && !d.fullSized) = false → s₄.transfer = none := by
    intro hfull
    rcases htrans₄ with hnone | heq
    · exact hnone
    · rw [heq, htrans₃, hidle₂ hfull]
  obtain ⟨s₅, hs₅, hsteady₅, hkept₅, hact₅, hbuf₅, hsource₅, hflags₅⟩ :=
    drawBufFlush_spec hd hsteady₄ harea hidle₄
  have hact₄ : s₄.bufAct = s.bufAct := hquiet₄.bufAct.trans (hact₃.trans hquiet.bufAct)
  have hdrawn : s₂.drawn bufArea clip = s.drawn bufArea clip := by
    funext p
    rw [LvDisp.drawn, LvDisp.drawn, hquiet.scene, hquiet.buf, hquiet.bufAct]
  have hpixels₄ : ∀ p ∈ bufArea.points, s₄.buf s.bufAct (pixelIndex bufArea p) = s.drawn bufArea clip p := by
    intro p hp
    rw [hquiet₄.buf, ← hquiet.bufAct, hpixels₃ p hp, hdrawn]
  have hlast : (s₄.lastArea && s₄.lastPart) = (s.lastArea && s.lastPart) := by
    rw [hquiet₄.lastArea, hkept₃.lastArea, hquiet.lastArea, hquiet₄.lastPart, hkept₃.lastPart, hquiet.lastPart]
  rw [hlast, hact₄] at hact₅
  refine ⟨s₅, ?_, ⟨hsteady₅.shown.congr fun p _ => ?_, hsteady₅.flag, hsteady₅.apart⟩,
    hquiet.toKept.trans (hkept₃.trans (hquiet₄.toKept.trans hkept₅)), hact₅, fun hturn p hp => ?_, fun hturn => ?_,
    fun t ht => by rw [hsource₅ t ht, hact₄], ?_⟩
  · rw [LvDisp.refrAreaPart]
    exact (Run.bind_of_ok hs₁).trans ((Run.bind_of_ok hs₂).trans ((Run.bind_of_ok hs₃).trans
      ((Run.bind_of_ok hs₄).trans hs₅)))
  · split
    · next hp => rw [hact₄, hpixels₄ p hp]
    · rfl
  · rw [hbuf₅ hturn, hpixels₄ p hp]
  · rw [hbuf₅ hturn, hquiet₄.buf, ← hquiet.bufAct, hother₃, hquiet.buf]
  · rw [← hlast]
    exact (Unflagged.of_eq (hquiet₄.flushes.trans (hflushes₃.trans hquiet.flushes))).flagged hflags₅

end SwmLvgl.Refr
