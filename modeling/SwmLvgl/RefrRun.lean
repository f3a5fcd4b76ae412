import SwmLvgl.RefrTimer

/-! The display over whole runs. From its registration on, the objects may change as long as what changes is
invalidated, the timer may come and the panel may take over its pixels at any time. -/

namespace SwmLvgl.Refr

open Disp

variable {d : Driver} {σ ε γ μ : Type} {s s' : LvDisp σ γ μ} {P : Panel d σ ε γ} {p : Int × Int}

/-- What happens to the display. -/
inductive Event (γ μ : Type) where
  /-- the objects change, and areas are invalidated -/
  | change (scene : Scene γ μ) (areas : List LvArea)
  /-- `lv_disp_enable_invalidation` -/
  | enableInvalidation (en : Bool)
  /-- the timer, at which points in the meantime the interrupt of the panel comes, and what the performance
  monitor does at the end -/
  | refresh (interrupts : List Bool) (monitor : Option (Relabel γ μ))
  /-- the interrupt of the panel -/
  | interrupt

namespace LvDisp

/-- `lv_disp_enable_invalidation` -/
def lvDispEnableInvalidation (en : Bool) (s : LvDisp σ γ μ) : LvDisp σ γ μ :=
  { s with invEnCnt := s.invEnCnt + if en then 1 else -1 }

def step (d : Driver) (flush : FlushCb σ ε γ) (s : LvDisp σ γ μ) :
    Event γ μ → Except (Fault ε) (LvDisp σ γ μ)
  | .change scene areas => .ok (s.change d scene areas)
  | .enableInvalidation en => .ok (s.lvDispEnableInvalidation en)
  | .refresh interrupts monitor => { s with interrupts := interrupts }.lvDispRefrTimer d flush monitor
  | .interrupt => s.complete flush

/-- A display before anything has been drawn. -/
def blank (panel : σ) (scene : Scene γ μ) (buf : Bool → Nat → γ) (rotBuf : Nat → γ) : LvDisp σ γ μ where
  panel := panel
  scene := scene
  buf := buf
  rotBuf := rotBuf
  bufAct := false
  flushing := false
  transfer := none
  flushingLast := false
  lastArea := false
  lastPart := false
  invAreas := fun _ => ⟨0, 0, 0, 0⟩
  invAreaJoined := fun _ => false
  invP := 0
  invEnCnt := 1
  syncAreas := []
  renderingInProgress := false
  interrupts := []
  flushes := []

/-- `lv_disp_drv_register`: the screen is invalid. -/
def lvDispDrvRegister (d : Driver) (panel : σ) (scene : Scene γ μ) (buf : Bool → Nat → γ) (rotBuf : Nat → γ) :
    LvDisp σ γ μ :=
  (blank panel scene buf rotBuf).lvInvArea d (some d.screen)

end LvDisp

/-- The objects keep the contracts of their classes and cover the screen, and a pixel whose colour changes is
invalidated, at a time when invalidation is not disabled. -/
def ChangeOk (d : Driver) (s : LvDisp σ γ μ) (scene : Scene γ μ) (areas : List LvArea) : Prop :=
  d.Solid scene ∧ ∀ p ∈ d.screen.points,
    (∀ x, scene.paint p x = s.scene.paint p x) ∨ 0 < s.invEnCnt ∧ p ∈ union areas

/-- What LVGL relies on: the changes of the objects are invalidated, those of the performance monitor included,
and no left end is lost between two draw buffers. -/
def Event.Ok (d : Driver) (s : LvDisp σ γ μ) : Event γ μ → Prop
  | .change scene areas => ChangeOk d s scene areas
  | .refresh interrupts monitor => SyncKeeps d { s with interrupts := interrupts } ∧
      ∀ m ∈ monitor, ChangeOk d s m.scene m.areas
  | _ => True

/-- The invalid areas only grow. -/
theorem lvInvAreas_spec (hd : d.Ok) : ∀ {areas : List LvArea} {s : LvDisp σ γ μ}, d.Valid s →
    s.renderingInProgress = false → ∃ invAreas n,
      areas.foldl (fun s area => s.lvInvArea d (some area)) s = { s with invAreas := invAreas, invP := n } ∧
      d.Valid { s with invAreas := invAreas, invP := n } ∧
      ∀ p ∈ d.screen.points, p ∈ s.dirty ∨ 0 < s.invEnCnt ∧ p ∈ union areas →
        p ∈ LvDisp.dirty { s with invAreas := invAreas, invP := n } := by
  intro areas
  induction areas with
  | nil => exact fun {s} hvalid _ => ⟨s.invAreas, s.invP, rfl, hvalid, fun p _ hp => hp.elim id fun h => by
      obtain ⟨-, a, ha, -⟩ := h
      exact absurd ha List.not_mem_nil⟩
  | cons area areas ih =>
      intro s hvalid hidle
      rw [List.foldl_cons]
      by_cases henabled : 0 < s.invEnCnt
      · obtain ⟨invAreas, n, hstep, hvalid', hdirty⟩ := lvInvArea_spec hd hvalid henabled hidle area
        rw [hstep]
        obtain ⟨invAreas', n', hrest, hvalid'', hdirty'⟩ :=
          @ih { s with invAreas := invAreas, invP := n } hvalid' hidle
        refine ⟨invAreas', n', hrest, hvalid'', fun p hp hcause => hdirty' p hp ?_⟩
        rcases hcause with hold | ⟨-, a, ha, hpa⟩
        · exact .inl (hdirty p hp (.inl hold))
        · rcases List.mem_cons.mp ha with rfl | ha
          · exact .inl (hdirty p hp (.inr hpa))
          · exact .inr ⟨henabled, a, ha, hpa⟩
      · have hskip : s.lvInvArea d (some area) = s := if_pos henabled
        rw [hskip]
        obtain ⟨invAreas', n', hrest, hvalid'', hdirty'⟩ := ih hvalid hidle
        exact ⟨invAreas', n', hrest, hvalid'', fun p hp hcause =>
          hdirty' p hp (hcause.imp_right fun h => absurd h.1 henabled)⟩

/-- A change that is invalidated; what the panel is to show stays. -/
theorem change_spec (hd : d.Ok) (h : Coherent P s) {scene : Scene γ μ} {areas : List LvArea}
    (hok : ChangeOk d s scene areas) : Coherent P (s.change d scene areas) ∧
      (s.change d scene areas).scene = scene ∧ (s.change d scene areas).flushes = s.flushes ∧
      ∀ c, Steady P s c → Steady P (s.change d scene areas) c := by
  obtain ⟨hsolid, hchanged⟩ := hok
  obtain ⟨invAreas, n, hfold, hvalid, hdirty⟩ := @lvInvAreas_spec d σ γ μ hd areas { s with scene := scene }
    ⟨h.valid.areas, h.valid.count⟩ h.idle
  rw [LvDisp.change, hfold]
  refine ⟨?_, rfl, rfl, fun c hsteady => hsteady.of_pixels rfl rfl rfl rfl fun _ _ => rfl⟩
  -- a pixel that is not invalid was not, and has kept its colour
  have hclean : ∀ p ∈ d.screen.points,
      p ∉ LvDisp.dirty { s with scene := scene, invAreas := invAreas, invP := n } →
        p ∉ s.dirty ∧ ∀ v, s.scene.Fits p v → scene.Fits p v := by
    intro p hp hout
    refine ⟨fun hin => hout (hdirty p hp (.inl hin)), fun v hv x => ?_⟩
    rcases hchanged p hp with hsame | hin
    · rw [hsame x]
      exact hv x
    · exact absurd (hdirty p hp (.inr hin)) hout
  obtain ⟨c, hsteady, hc⟩ := h.picture
  refine ⟨hsolid, hvalid, h.unjoined, h.idle, h.sync, ⟨c, hsteady.of_pixels rfl rfl rfl rfl fun _ _ => rfl,
    fun p hp hout => ?_⟩, fun hdirect p hp hout hsynced => ?_, fun hdirect hbuf2 p hp hout => ?_, h.apart⟩
  · obtain ⟨hout, hfits⟩ := hclean p hp hout
    exact hfits _ (hc p hp hout)
  · obtain ⟨hout, hfits⟩ := hclean p hp hout
    exact hfits _ (h.active hdirect p hp hout hsynced)
  · obtain ⟨hout, hfits⟩ := hclean p hp hout
    exact hfits _ (h.other hdirect hbuf2 p hp hout)

theorem transferred_spec (h : Coherent P s) : ∃ s', s.complete P.flush = .ok s' ∧ Coherent P s' ∧
    s'.transfer = none ∧ Quiet s s' := by
  obtain ⟨c, hsteady, hc⟩ := h.picture
  obtain ⟨s', hs', hshows, hflag, hnone, hquiet⟩ := complete_spec hsteady.shown hsteady.flag
  have hdirty : s'.dirty = s.dirty := by simp only [LvDisp.dirty, hquiet.invP, hquiet.invAreas]
  refine ⟨s', hs', ⟨hquiet.scene ▸ h.solid, ⟨?_, hquiet.invP ▸ h.valid.count⟩, ?_, ?_, ?_,
    ⟨c, .of_shows hshows hflag hnone, ?_⟩, ?_, ?_, fun _ _ t ht => ?_⟩, hnone, hquiet⟩
  · rw [hquiet.invP, hquiet.invAreas]
    exact h.valid.areas
  · rw [hquiet.invAreaJoined]
    exact h.unjoined
  · rw [hquiet.renderingInProgress]
    exact h.idle
  · rw [hquiet.syncAreas]
    exact h.sync
  · rw [hdirty, hquiet.scene]
    exact hc
  · rw [hdirty, hquiet.scene, hquiet.syncAreas, hquiet.buf, hquiet.bufAct]
    exact h.active
  · rw [hdirty, hquiet.scene, hquiet.buf, hquiet.bufAct]
    exact h.other
  · rw [hnone] at ht
    cases ht

theorem Coherent.congr (h : Coherent P s) {interrupts : List Bool} {n : Int} :
    Coherent P { s with interrupts := interrupts, invEnCnt := n } := by
  obtain ⟨c, hsteady, hc⟩ := h.picture
  exact ⟨h.solid, ⟨h.valid.areas, h.valid.count⟩, h.unjoined, h.idle, h.sync,
    ⟨c, hsteady.of_pixels rfl rfl rfl rfl fun _ _ => rfl, hc⟩, h.active, h.other, h.apart⟩

/-- **A refresh**: the panel is to show the scene as it was drawn. The last part, and no other, has been flushed
with the flag. -/
theorem lvDispRefrTimer_spec (hd : d.Ok) (h : Coherent P s) {interrupts : List Bool}
    {monitor : Option (Relabel γ μ)} (hok : (Event.refresh interrupts monitor).Ok d s) :
    ∃ s', s.step d P.flush (.refresh interrupts monitor) = .ok s' ∧ Coherent P s' ∧
      s'.scene = monitor.elim s.scene Relabel.scene ∧
      (∃ c, Steady P s' c ∧ ∀ p ∈ d.screen.points, s.scene.Fits p (c p)) ∧
      if s.invP = 0 then s'.flushes = s.flushes else Flagged s s' true := by
  obtain ⟨hkeep, hmonitor⟩ := hok
  obtain ⟨r, hr, hcoherent, hnone, hscene, hcount, hflags⟩ :=
    refrTimerDraw_spec hd (show Coherent P { s with interrupts := interrupts } from h.congr) hkeep
  have hdrawn : ∃ c, Steady P r c ∧ ∀ p ∈ d.screen.points, s.scene.Fits p (c p) := by
    obtain ⟨c, hsteady, hc⟩ := hcoherent.picture
    refine ⟨c, hsteady, fun p hp => ?_⟩
    rw [show s.scene = r.scene from hscene.symm]
    refine hc p hp ?_
    rintro ⟨i, hi, -⟩
    omega
  cases monitor with
  | none => exact ⟨r, Run.bind_of_ok hr, hcoherent, hscene, hdrawn, hflags⟩
  | some m =>
      have hchange : ChangeOk d r m.scene m.areas := by
        obtain ⟨hsolid, hchanged⟩ := hmonitor m rfl
        refine ⟨hsolid, fun p hp => ?_⟩
        rw [show r.scene = s.scene from hscene, show r.invEnCnt = s.invEnCnt from hcount]
        exact hchanged p hp
      obtain ⟨hcoherent', hscene', hflushes, hshown⟩ := change_spec hd hcoherent hchange
      obtain ⟨c, hsteady, hc⟩ := hdrawn
      refine ⟨r.change d m.scene m.areas, Run.bind_of_ok hr, hcoherent', hscene', ⟨c, hshown c hsteady, hc⟩, ?_⟩
      unfold Flagged at hflags ⊢
      rw [hflushes]
      exact hflags

theorem step_spec (hd : d.Ok) (h : Coherent P s) {e : Event γ μ} (hok : e.Ok d s) :
    ∃ s', s.step d P.flush e = .ok s' ∧ Coherent P s' := by
  cases e with
  | change scene areas => exact ⟨_, rfl, (change_spec hd h hok).1⟩
  | enableInvalidation en => exact ⟨_, rfl, h.congr⟩
  | refresh interrupts monitor =>
      obtain ⟨s', hs', h', -⟩ := lvDispRefrTimer_spec hd h hok
      exact ⟨s', hs', h'⟩
  | interrupt =>
      obtain ⟨s', hs', h', -⟩ := transferred_spec h
      exact ⟨s', hs', h'⟩

/-! ### Runs -/

theorem registered_coherent (hd : d.Ok) {panel : σ} (hready : P.Ready panel) {scene : Scene γ μ}
    (hs : d.Solid scene) (buf : Bool → Nat → γ) (rotBuf : Nat → γ) :
    Coherent P (LvDisp.lvDispDrvRegister d panel scene buf rotBuf) := by
  obtain ⟨invAreas, n, hinv, hvalid, hdirty⟩ := lvInvArea_spec hd
    (show d.Valid (LvDisp.blank panel scene buf rotBuf) from ⟨nofun, Nat.zero_le _⟩) Int.one_pos rfl d.screen
  rw [LvDisp.lvDispDrvRegister, hinv]
  have hall : ∀ p ∈ d.screen.points, p ∈ LvDisp.dirty _ := fun p hp => hdirty p hp (.inr hp)
  exact ⟨hs, hvalid, fun _ => rfl, rfl, nofun, ⟨fun p => P.shows panel (d.place p),
    .of_shows ⟨hready, fun _ _ => rfl⟩ rfl rfl, fun p hp hout => absurd (hall p hp) hout⟩,
    fun _ p hp hout => absurd (hall p hp) hout, fun _ _ p hp hout => absurd (hall p hp) hout, nofun⟩

theorem run_coherent (hd : d.Ok) (h : Coherent P s) {w : List (Event γ μ)}
    (hw : Run.AllSteps (LvDisp.step d P.flush) (Event.Ok d) s w) :
    ∃ s', Run.run (LvDisp.step d P.flush) s w = .ok s' ∧ Coherent P s' :=
  hw.total (fun _ _ h hok => step_spec hd h hok) h

/-- Once the panel has taken over what it has been given, it shows the scene outside of the invalid areas. -/
theorem Coherent.shows (h : Coherent P s) : ∃ s', s.complete P.flush = .ok s' ∧ P.Ready s'.panel ∧
    ∀ p ∈ d.screen.points, p ∉ s.dirty → ∀ x, P.shows s'.panel (d.place p) = s.scene.paint p x := by
  obtain ⟨c, hsteady, hc⟩ := h.picture
  obtain ⟨s', hs', hshows, -⟩ := complete_spec hsteady.shown hsteady.flag
  exact ⟨s', hs', hshows.1, fun p hp hout x => (hshows.2 p hp).trans (hc p hp hout x)⟩

variable {panel : σ} {scene : Scene γ μ} {buf : Bool → Nat → γ} {rotBuf : Nat → γ} {w : List (Event γ μ)}

/-- A panel that copies what it is given. -/
def copyPanel (d : Driver) : Panel d (Int × Int → LvColor) Empty LvColor where
  flush := fun q a px => .ok fun p => if p ∈ a.points then px (pixelIndex a p) else q p
  Ready := fun _ => True
  shows := id
  exact := fun _ _ _ _ _ => ⟨_, rfl, trivial, fun _ => rfl⟩

/-- A display of 4 by 6 pixels that is turned in software, with two buffers of two lines. -/
def turnedDrv : Driver where
  horRes := 6
  verRes := 4
  offsetX := 1
  offsetY := 0
  size := 8
  buf2 := true
  directMode := false
  fullRefresh := false
  swRotate := true
  rotated := .rot90

theorem turnedDrv_ok : turnedDrv.Ok :=
  ⟨by decide, by decide, by decide, by decide, by decide, nofun, nofun, fun _ _ => by decide⟩

theorem plainScene_solid (d : Driver) : d.Solid plainScene := ⟨plainScene_honest, fun _ _ _ _ => rfl⟩

/-- The same scene with a label on the sys layer. -/
def labelScene : Scene LvColor Unit :=
  { plainScene with sysLayer := plain ⟨0, 0, 19, 19⟩ none [plain ⟨1, 1, 3, 2⟩ (some 30) []] }

theorem labelScene_solid (d : Driver) : d.Solid labelScene := by
  have hempty : AllHonest ([] : List (LvObj LvColor Unit)) := trivial
  refine ⟨⟨plainScene_honest.act, nofun, plainScene_honest.top, ?_⟩, fun _ _ _ _ => rfl⟩
  exact plain_honest (by decide) (by decide) ⟨plain_honest (by decide) (by decide) hempty, hempty⟩

/-- Only the pixels of the label change. -/
theorem labelScene_changeOk {s : LvDisp σ LvColor Unit} (hscene : s.scene = plainScene)
    (henabled : 0 < s.invEnCnt) : ChangeOk d s labelScene [⟨1, 1, 3, 2⟩] := by
  refine ⟨labelScene_solid d, fun p _ => ?_⟩
  by_cases hp : p ∈ (⟨1, 1, 3, 2⟩ : LvArea).points
  · exact .inr ⟨henabled, _, List.mem_singleton_self _, hp⟩
  · refine .inl fun x => ?_
    rw [hscene]
    simp [Scene.paint, labelScene, plainScene, paint, paints, plain, hp]

/-- Where the performance monitor has invalidated what the refresh has drawn. -/
def relabelled (monitor : Option (Relabel γ μ)) : Set (Int × Int) := monitor.elim ∅ fun m => union m.areas

/-- A run that ends with a refresh. -/
theorem run_refresh (hd : d.Ok) (h : Coherent P s) {interrupts : List Bool} {monitor : Option (Relabel γ μ)}
    (hw : Run.AllSteps (LvDisp.step d P.flush) (Event.Ok d) s (w ++ [.refresh interrupts monitor])) :
    ∃ s₁ s' q, Run.run (LvDisp.step d P.flush) s w = .ok s₁ ∧
      s₁.step d P.flush (.refresh interrupts monitor) = .ok s' ∧ s'.complete P.flush = .ok q ∧ P.Ready q.panel ∧
      (∀ p ∈ d.screen.points, ∀ x, P.shows q.panel (d.place p) = s₁.scene.paint p x ∧
        (p ∉ relabelled monitor → P.shows q.panel (d.place p) = s'.scene.paint p x)) ∧
      if s₁.invP = 0 then s'.flushes = s₁.flushes else Flagged s₁ s' true := by
  obtain ⟨s₁, hrun, h₁⟩ := run_coherent hd h (hw.of_prefix (List.prefix_append _ _))
  have hok : (Event.refresh interrupts monitor).Ok d s₁ :=
    Run.allSteps_iff_prefix.mp hw w (.refresh interrupts monitor) s₁ (List.prefix_refl _) hrun
  obtain ⟨s', hs', -, hscene, ⟨c, hsteady, hc⟩, hflags⟩ := lvDispRefrTimer_spec hd h₁ hok
  obtain ⟨q, hq, hshows, -⟩ := complete_spec hsteady.shown hsteady.flag
  refine ⟨s₁, s', q, hrun, hs', hq, hshows.1, fun p hp x => ?_, hflags⟩
  have hdrawn : P.shows q.panel (d.place p) = s₁.scene.paint p x := (hshows.2 p hp).trans (hc p hp x)
  refine ⟨hdrawn, fun hout => hdrawn.trans ?_⟩
  rw [hscene]
  cases monitor with
  | none => rfl
  | some m =>
      rcases (hok.2 m rfl).2 p hp with hsame | ⟨-, hin⟩
      · exact (hsame x).symm
      · exact absurd hin hout

end SwmLvgl.Refr
