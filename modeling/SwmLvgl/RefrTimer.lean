import SwmLvgl.RefrDirty

/-! The refresh timer: the areas are joined, the draw buffers are brought to the same state, and all areas are
drawn. Then the panel shows the scene, and it has been told once that the last part has come. -/

namespace SwmLvgl.Refr

open Disp

variable {d : Driver} {σ ε γ μ : Type} {s s' s₀ : LvDisp σ γ μ} {P : Panel d σ ε γ} {area : LvArea} {b : Bool}
  {D D' : Set (Int × Int)} {p : Int × Int}

theorem refrSyncAreas_skip (h : ¬(d.directMode = true ∧ d.buf2 = true)) :
    s.refrSyncAreas d = (.ok s : Except (Fault ε) _) := by
  rw [LvDisp.refrSyncAreas, if_pos]
  by_cases hdirect : d.directMode = true
  · exact .inr (.inl fun hbuf2 => h ⟨hdirect, hbuf2⟩)
  · exact .inl hdirect

/-- Outside of the invalid areas the active draw buffer gets what it had missed. -/
theorem refrSyncAreas_spec (hd : d.Ok) (hdouble : d.directMode = true ∧ d.buf2 = true) (hvalid : d.Valid s)
    (hsync : ∀ a ∈ s.syncAreas, d.OnScreen a) (hkeep : CutsKeep s.syncAreas s.unjoined)
    (hfree : ∀ t, s.transfer = some t → t.source ≠ some s.bufAct) :
    ∃ buf, s.refrSyncAreas d = (.ok { s with buf := Function.update s.buf s.bufAct buf, syncAreas := [] } :
        Except (Fault ε) _) ∧
      ∀ p ∈ d.screen.points, p ∉ s.pending 0 →
        (p ∈ union s.syncAreas → buf (pixelIndex d.screen p) = s.buf (!s.bufAct) (pixelIndex d.screen p)) ∧
        (p ∉ union s.syncAreas → buf (pixelIndex d.screen p) = s.buf s.bufAct (pixelIndex d.screen p)) := by
  rw [LvDisp.refrSyncAreas]
  by_cases hnone : s.syncAreas = []
  · refine ⟨s.buf s.bufAct, ?_, fun p _ _ => ⟨fun ⟨a, ha, _⟩ => ?_, fun _ => rfl⟩⟩
    · rw [if_pos (.inr (.inr hnone)), Function.update_eq_self, ← hnone]
    · rw [hnone] at ha
      exact absurd ha List.not_mem_nil
  · have hrace : (s.transfer.any fun t => t.source = some s.bufAct) = false := by
      cases htrans : s.transfer with
      | none => rfl
      | some t => simpa using hfree t htrans
    have hinvs : ∀ a ∈ s.unjoined, d.OnScreen a := by
      intro a ha
      obtain ⟨i, hi, -, rfl⟩ := mem_unjoined.mp ha
      exact hvalid.areas i hi
    obtain ⟨hsub, hcover⟩ := syncWithout_all hd hinvs hsync hkeep
    let sync := s.unjoined.foldl LvDisp.syncWithout s.syncAreas
    refine ⟨sync.foldl (fun dst area => LvDisp.bufferCopy d area dst (s.buf !s.bufAct)) (s.buf s.bufAct), ?_,
      fun p hp hclean => ?_⟩
    · rw [if_neg (by simp [hdouble.1, hdouble.2, hnone]), hrace, if_neg Bool.false_ne_true]
    · obtain ⟨hcopied, hkept⟩ := bufferCopy_all sync (s.buf s.bufAct) (s.buf !s.bufAct) hp
      rw [← union_unjoined] at hclean
      exact ⟨fun hin => hcopied (hcover p hin hclean), fun hout => hkept fun hin => hout (hsub hin)⟩

theorem Clean.mono (h : Clean P b D s) (hsub : D ⊆ D') : Clean P b D' s := by
  obtain ⟨c, hsteady, hc⟩ := h.picture
  exact ⟨⟨c, hsteady, fun p hp hD => hc p hp fun hin => hD (hsub hin)⟩,
    fun hdirect p hp hD => h.buffer hdirect p hp fun hin => hD (hsub hin)⟩

/-- A search from the end finds the last one. -/
theorem find_reverse_range {f : Nat → Bool} {n : Nat} (h : ∃ i < n, f i = true) :
    ∃ k, (List.range n).reverse.find? f = some k ∧ k < n ∧ f k = true ∧ ∀ i < n, f i = true → i ≤ k := by
  induction n with
  | zero =>
      obtain ⟨i, hi, -⟩ := h
      omega
  | succ n ih =>
      rw [List.range_succ, List.reverse_append, List.reverse_singleton, List.singleton_append, List.find?_cons]
      cases hn : f n with
      | true => exact ⟨n, rfl, Nat.lt_succ_self n, hn, fun i hi _ => Nat.le_of_lt_succ hi⟩
      | false =>
          have hbefore : ∀ i < n + 1, f i = true → i < n := by
            intro i hi hf
            rcases Nat.lt_succ_iff_lt_or_eq.mp hi with hi | rfl
            · exact hi
            · rw [hn] at hf
              cases hf
          obtain ⟨i, hi, hf⟩ := h
          obtain ⟨k, hk, hkn, hfk, hlast⟩ := ih ⟨i, hbefore i hi hf, hf⟩
          exact ⟨k, hk, Nat.lt_succ_of_lt hkn, hfk, fun j hj hfj => hlast j (hbefore j hj hfj) hfj⟩

/-- The last area is the last one that has not been joined into another. -/
theorem lastUnjoined_spec (h : ∃ i < s.invP, s.invAreaJoined i = false) :
    s.lastUnjoined < s.invP ∧ s.invAreaJoined s.lastUnjoined = false ∧
      ∀ i < s.invP, s.invAreaJoined i = false → i ≤ s.lastUnjoined := by
  obtain ⟨i, hi, hjoined⟩ := h
  obtain ⟨k, hk, hkn, hfk, hlast⟩ := @find_reverse_range (fun i => !s.invAreaJoined i) s.invP
    ⟨i, hi, by rw [hjoined]; rfl⟩
  rw [LvDisp.lastUnjoined, hk, Option.getD_some]
  exact ⟨hkn, by simpa using hfk, fun i hi hjoined => hlast i hi (by rw [hjoined]; rfl)⟩

/-- The display before the pass for the area `m`, of which the last one is `last`. -/
structure Refreshing (P : Panel d σ ε γ) (b : Bool) (last : Nat) (s₀ : LvDisp σ γ μ) (m : Nat)
    (s : LvDisp σ γ μ) : Prop where
  clean : Clean P b (s₀.pending m) s
  fixed : Fixed s₀ s
  lastArea : s.lastArea = decide (last < m)
  flushes : if m ≤ last then Unflagged s₀ s else Flagged s₀ s true
  active : d.directMode → m ≤ last → s.bufAct = b
  swapped : d.directMode → last < m → s.bufAct = (if d.buf2 then !b else b) ∧
    ∀ t, s.transfer = some t → t.source = some b
  other : d.directMode → s.buf (!b) = s₀.buf (!b)

/-- One pass: an area that has been joined into another is left out. -/
theorem refrInvalidArea_spec (hd : d.Ok) (hs : d.Solid s₀.scene) (hvalid : d.Valid s₀)
    (hlast : s₀.invAreaJoined s₀.lastUnjoined = false ∧
      ∀ i < s₀.invP, s₀.invAreaJoined i = false → i ≤ s₀.lastUnjoined) {m : Nat} (hm : m < s₀.invP)
    (h : Refreshing P b s₀.lastUnjoined s₀ m s) :
    ∃ s', s.refrInvalidArea d P.flush s₀.lastUnjoined m = .ok s' ∧
      Refreshing P b s₀.lastUnjoined s₀ (m + 1) s' := by
  have hjoined' := congrFun h.fixed.invAreaJoined m
  rw [LvDisp.refrInvalidArea]
  cases hjoined : s₀.invAreaJoined m with
  | true =>
      have hne : m ≠ s₀.lastUnjoined := by
        intro heq
        rw [heq, hlast.1] at hjoined
        cases hjoined
      have hsub : s₀.pending m ⊆ s₀.pending (m + 1) := by
        rintro p ⟨i, hi, hle, hfree, hp⟩
        refine ⟨i, hi, Nat.lt_of_le_of_ne hle fun heq => ?_, hfree, hp⟩
        rw [← heq, hjoined] at hfree
        cases hfree
      have hflags := h.flushes
      refine ⟨s, if_pos (by rw [hjoined', hjoined]), h.clean.mono hsub, h.fixed, ?_, ?_,
        fun hdirect hle => h.active hdirect (by omega), fun hdirect hlt => h.swapped hdirect (by omega), h.other⟩
      · rw [h.lastArea]
        exact decide_eq_decide.mpr (by omega)
      · rwa [if_congr (show m + 1 ≤ s₀.lastUnjoined ↔ m ≤ s₀.lastUnjoined by omega) rfl rfl]
  | false =>
      have hle := hlast.2 m hm hjoined
      let s₁ : LvDisp σ γ μ := { s with lastArea := decide (m = s₀.lastUnjoined) || s.lastArea, lastPart := false }
      have hlastArea : s₁.lastArea = decide (m = s₀.lastUnjoined) := by
        show (decide (m = s₀.lastUnjoined) || s.lastArea) = _
        rw [h.lastArea, decide_eq_false (show ¬s₀.lastUnjoined < m by omega), Bool.or_false]
      obtain ⟨c, hsteady, hc⟩ := h.clean.picture
      have hclean₁ : Clean P b (s₀.pending m) s₁ :=
        ⟨⟨c, hsteady.of_pixels rfl rfl rfl rfl fun _ _ => rfl, hc⟩, h.clean.buffer⟩
      have hsolid : d.Solid s₁.scene := by
        rw [show s₁.scene = s₀.scene from h.fixed.scene]
        exact hs
      obtain ⟨s', hs', hrefr⟩ := refrArea_spec hd hsolid hclean₁ rfl (fun hdirect => h.active hdirect hle)
        (hvalid.areas m hm)
      have hfixed₁ : Fixed s₀ s₁ := ⟨h.fixed.scene, h.fixed.invAreas, h.fixed.invAreaJoined, h.fixed.invP,
        h.fixed.invEnCnt, h.fixed.syncAreas⟩
      have hsub : s₀.pending m \ (s₀.invAreas m).points ⊆ s₀.pending (m + 1) := by
        rintro p ⟨⟨i, hi, hle, hfree, hp⟩, hout⟩
        exact ⟨i, hi, Nat.lt_of_le_of_ne hle fun heq => hout (heq ▸ hp), hfree, hp⟩
      refine ⟨s', ?_, hrefr.clean.mono hsub, hfixed₁.trans hrefr.fixed, ?_, ?_, fun hdirect hlt => ?_,
        fun hdirect hlt => ?_, fun hdirect => ?_⟩
      · rw [if_neg (by rw [hjoined', hjoined]; exact Bool.false_ne_true)]
        rw [← h.fixed.invAreas] at hs'
        exact hs'
      · rw [hrefr.lastArea, hlastArea]
        exact decide_eq_decide.mpr (by omega)
      · have hbefore := h.flushes
        rw [if_pos hle] at hbefore
        have hflags : Flagged s s' (decide (m = s₀.lastUnjoined)) := by
          rw [← hlastArea]
          exact hrefr.flushes
        by_cases heq : m = s₀.lastUnjoined
        · rw [if_neg (by omega)]
          rw [decide_eq_true heq] at hflags
          exact hbefore.flagged hflags
        · rw [if_pos (by omega)]
          rw [decide_eq_false heq] at hflags
          exact (hbefore.flagged hflags).unflagged
      · obtain ⟨hact, -, -⟩ := hrefr.direct hdirect
        rw [hact, hlastArea, decide_eq_false (by omega), Bool.and_false,
          if_neg Bool.false_ne_true]
      · obtain ⟨hact, -, hsource⟩ := hrefr.direct hdirect
        rw [hlastArea, decide_eq_true (by omega), Bool.and_true] at hact
        exact ⟨hact, hsource⟩
      · exact (hrefr.direct hdirect).2.1.trans (h.other hdirect)

/-- All invalid areas are refreshed. -/
theorem refrInvalidAreas_spec (hd : d.Ok) (hs : d.Solid s.scene) (hvalid : d.Valid s)
    (hsome : ∃ i < s.invP, s.invAreaJoined i = false) (h : Clean P b (s.pending 0) s)
    (hb : d.directMode → s.bufAct = b) :
    ∃ s', s.refrInvalidAreas d P.flush = .ok s' ∧ Clean P b ∅ s' ∧ Fixed s s' ∧ s'.renderingInProgress = false ∧
      Flagged s s' true ∧ (d.directMode → s'.bufAct = (if d.buf2 then !b else b) ∧
        s'.buf (!b) = s.buf (!b) ∧ ∀ t, s'.transfer = some t → t.source = some b) := by
  obtain ⟨hlt, hlast⟩ := lastUnjoined_spec hsome
  let s₁ : LvDisp σ γ μ := { s with lastArea := false, lastPart := false, renderingInProgress := true }
  obtain ⟨c, hsteady, hc⟩ := h.picture
  have hfixed₁ : Fixed s s₁ := ⟨rfl, rfl, rfl, rfl, rfl, rfl⟩
  have hstart : Refreshing P b s.lastUnjoined s 0 s₁ := by
    refine ⟨⟨⟨c, hsteady.of_pixels rfl rfl rfl rfl fun _ _ => rfl, hc⟩, h.buffer⟩, hfixed₁, ?_, ?_,
      fun hdirect _ => hb hdirect, fun _ hlt => absurd hlt (Nat.not_lt_zero _), fun _ => rfl⟩
    · exact (decide_eq_false (Nat.not_lt_zero _)).symm
    · rw [if_pos (Nat.zero_le _)]
      exact .of_eq rfl
  obtain ⟨s', hs', hrefr⟩ := @Run.run_range _ _ (LvDisp.refrInvalidArea d P.flush s.lastUnjoined)
    (Refreshing P b s.lastUnjoined s) _ (fun m hm t ht => refrInvalidArea_spec hd hs hvalid hlast hm ht) _ hstart
  have hempty : s.pending s.invP ⊆ ∅ := by
    rintro p ⟨i, hi, hle, -⟩
    omega
  have hclean := hrefr.clean.mono hempty
  obtain ⟨c', hsteady', hc'⟩ := hclean.picture
  refine ⟨{ s' with renderingInProgress := false }, ?_,
    ⟨⟨c', hsteady'.of_pixels rfl rfl rfl rfl fun _ _ => rfl, hc'⟩, hclean.buffer⟩,
    ⟨hrefr.fixed.scene, hrefr.fixed.invAreas, hrefr.fixed.invAreaJoined, hrefr.fixed.invP, hrefr.fixed.invEnCnt,
      hrefr.fixed.syncAreas⟩, rfl, ?_, fun hdirect => ?_⟩
  · rw [LvDisp.refrInvalidAreas, if_neg (by omega)]
    exact Run.bind_of_ok hs'
  · have hflags := hrefr.flushes
    rwa [if_neg (by omega)] at hflags
  · obtain ⟨hact, hsource⟩ := hrefr.swapped hdirect hlt
    exact ⟨hact, hrefr.other hdirect, hsource⟩

/-! ### The timer -/

/-- Between two refreshes: outside of the invalid areas the panel is to show the scene. In direct mode the draw
buffers hold it there, the one that is not shown up to the areas that it still has to get. -/
structure Coherent (P : Panel d σ ε γ) (s : LvDisp σ γ μ) : Prop where
  solid : d.Solid s.scene
  valid : d.Valid s
  unjoined : ∀ i, s.invAreaJoined i = false
  idle : s.renderingInProgress = false
  sync : ∀ a ∈ s.syncAreas, d.OnScreen a
  picture : ∃ c, Steady P s c ∧ ∀ p ∈ d.screen.points, p ∉ s.dirty → s.scene.Fits p (c p)
  active : d.directMode → ∀ p ∈ d.screen.points, p ∉ s.dirty → (d.buf2 → p ∉ union s.syncAreas) →
    s.scene.Fits p (s.buf s.bufAct (pixelIndex d.screen p))
  other : d.directMode → d.buf2 → ∀ p ∈ d.screen.points, p ∉ s.dirty →
    s.scene.Fits p (s.buf (!s.bufAct) (pixelIndex d.screen p))
  apart : d.directMode → d.buf2 → ∀ t, s.transfer = some t → t.source ≠ some s.bufAct

/-- Nothing is lost in taking the areas that are redrawn anyway away from those that are copied. -/
def SyncKeeps (d : Driver) (s : LvDisp σ γ μ) : Prop :=
  d.directMode → d.buf2 → CutsKeep s.syncAreas s.lvRefrJoinArea.unjoined

/-- Before the areas are drawn the buffers are up to date outside of them. -/
theorem Coherent.sync_spec (hd : d.Ok) (h : Coherent P s) (hkeep : SyncKeeps d s) :
    ∃ buf sync, s.lvRefrJoinArea.refrSyncAreas d = (.ok { s.lvRefrJoinArea with buf := buf, syncAreas := sync } :
        Except (Fault ε) _) ∧
      Clean P s.bufAct (s.lvRefrJoinArea.pending 0) { s.lvRefrJoinArea with buf := buf, syncAreas := sync } ∧
      buf (!s.bufAct) = s.buf (!s.bufAct) ∧ (∀ a ∈ sync, d.OnScreen a) ∧ (d.directMode → d.buf2 → sync = []) := by
  have hjoin := lvRefrJoinArea_spec h.valid h.unjoined
  rw [SyncKeeps] at hkeep
  obtain ⟨areas, joined, hsame⟩ := hjoin.same
  rw [hsame] at hjoin hkeep ⊢
  obtain ⟨c, hsteady, hc⟩ := h.picture
  by_cases hdouble : d.directMode = true ∧ d.buf2 = true
  · obtain ⟨buf, hbuf, hpixels⟩ := @refrSyncAreas_spec d σ ε γ μ
      { s with invAreas := areas, invAreaJoined := joined } hd hdouble hjoin.valid h.sync
      (hkeep hdouble.1 hdouble.2) (h.apart hdouble.1 hdouble.2)
    refine ⟨_, _, hbuf, ⟨⟨c, hsteady.of_pixels rfl rfl rfl rfl
      (pixels_update (h.apart hdouble.1 hdouble.2)), fun p hp hD => hc p hp fun hin => hD (hjoin.covers hin)⟩,
      fun _ p hp hD => ?_⟩, Function.update_of_ne (by cases s.bufAct <;> decide) _ _, nofun, fun _ _ => rfl⟩
    have hclean : p ∉ s.dirty := fun hin => hD (hjoin.covers hin)
    obtain ⟨hcopied, hkept⟩ := hpixels p hp hD
    show s.scene.Fits p (Function.update s.buf s.bufAct buf s.bufAct (pixelIndex d.screen p))
    rw [Function.update_self]
    by_cases hin : p ∈ union s.syncAreas
    · rw [hcopied hin]
      exact h.other hdouble.1 hdouble.2 p hp hclean
    · rw [hkept hin]
      exact h.active hdouble.1 p hp hclean fun _ => hin
  · refine ⟨s.buf, s.syncAreas, refrSyncAreas_skip hdouble, ⟨⟨c, hsteady.of_pixels rfl rfl rfl rfl fun _ _ => rfl,
      fun p hp hD => hc p hp fun hin => hD (hjoin.covers hin)⟩, fun hdirect p hp hD => ?_⟩, rfl, h.sync,
      fun hdirect hbuf2 => absurd ⟨hdirect, hbuf2⟩ hdouble⟩
    exact h.active hdirect p hp (fun hin => hD (hjoin.covers hin)) fun hbuf2 => absurd ⟨hdirect, hbuf2⟩ hdouble

/-- The display before the drawing: the areas are joined, and the buffers are up to date outside of them. -/
structure Prepared (P : Panel d σ ε γ) (s s₂ : LvDisp σ γ μ) : Prop where
  clean : Clean P s.bufAct (s₂.pending 0) s₂
  valid : d.Valid s₂
  covers : s.dirty ⊆ s₂.pending 0
  sync : ∀ a ∈ s₂.syncAreas, d.OnScreen a
  other : s₂.buf (!s.bufAct) = s.buf (!s.bufAct)
  unjoined : s.invP = 0 → s₂.invAreaJoined = s.invAreaJoined
  same : ∃ areas joined buf sync,
    s₂ = { s with invAreas := areas, invAreaJoined := joined, buf := buf, syncAreas := sync }

theorem Coherent.prepared (hd : d.Ok) (h : Coherent P s) (hkeep : SyncKeeps d s) :
    ∃ s₂, s.lvRefrJoinArea.refrSyncAreas d = (.ok s₂ : Except (Fault ε) _) ∧ Prepared P s s₂ := by
  have hjoin := lvRefrJoinArea_spec h.valid h.unjoined
  obtain ⟨buf, sync, hs₂, hclean, hother, hsync, -⟩ := h.sync_spec hd hkeep
  have hjoined : s.invP = 0 → s.lvRefrJoinArea.invAreaJoined = s.invAreaJoined := by
    intro hzero
    rw [LvDisp.lvRefrJoinArea, hzero]
    rfl
  obtain ⟨areas, joined, hsame⟩ := hjoin.same
  rw [hsame] at hs₂ hclean hjoin hjoined ⊢
  exact ⟨_, hs₂, hclean, ⟨hjoin.valid.areas, hjoin.valid.count⟩, hjoin.covers, hsync, hother, hjoined,
    areas, joined, buf, sync, rfl⟩

/-- Without an invalid area nothing is drawn. -/
theorem Prepared.idle (h : Coherent P s) (hprep : Prepared P s s') (hzero : s.invP = 0) : Coherent P s' := by
  have hinvP : s'.invP = 0 := by
    obtain ⟨areas, joined, buf, sync, rfl⟩ := hprep.same
    exact hzero
  have hempty : s'.pending 0 ⊆ ∅ := by
    rintro p ⟨i, hi, -⟩
    omega
  have hclean := hprep.clean.mono hempty
  obtain ⟨c, hsteady, hc⟩ := hclean.picture
  have hother := hprep.other
  have hjoined := hprep.unjoined hzero
  have hvalid := hprep.valid
  have hsync := hprep.sync
  obtain ⟨areas, joined, buf, sync, rfl⟩ := hprep.same
  refine ⟨h.solid, hvalid, fun i => (congrFun hjoined i).trans (h.unjoined i), h.idle, hsync,
    ⟨c, hsteady, fun p hp _ => hc p hp id⟩, fun hdirect p hp _ _ => hclean.buffer hdirect p hp id,
    fun hdirect hbuf2 p hp _ => ?_, h.apart⟩
  show s.scene.Fits p (buf (!s.bufAct) (pixelIndex d.screen p))
  rw [show buf (!s.bufAct) = s.buf (!s.bufAct) from hother]
  refine h.other hdirect hbuf2 p hp ?_
  rintro ⟨i, hi, -⟩
  omega

/-- A pixel of the first invalid area lies in an area that is drawn. -/
theorem Prepared.exists_unjoined (h : Coherent P s) (hprep : Prepared P s s') (hsome : s.invP ≠ 0) :
    ∃ i < s'.invP, s'.invAreaJoined i = false := by
  have hfirst := h.valid.areas 0 (Nat.pos_of_ne_zero hsome)
  have hin : ((s.invAreas 0).x1, (s.invAreas 0).y1) ∈ s.dirty := by
    refine ⟨0, Nat.pos_of_ne_zero hsome, ?_⟩
    have hx := hfirst.x
    have hy := hfirst.y
    rw [LvArea.mem_points]
    omega
  obtain ⟨i, hi, -, hfree, -⟩ := hprep.covers hin
  exact ⟨i, hi, hfree⟩

/-- The areas are drawn; in direct mode the other draw buffer still has to get them. -/
def LvDisp.cleared (d : Driver) (s : LvDisp σ γ μ) : LvDisp σ γ μ :=
  { s with
    syncAreas := if d.directMode && d.buf2 then s.syncAreas ++ s.unjoined else s.syncAreas
    invAreas := fun _ => ⟨0, 0, 0, 0⟩
    invAreaJoined := fun _ => false
    invP := 0 }

/-- What has been drawn since the buffer was shown is among the areas to synchronize. -/
theorem Prepared.dirty_subset_sync (hprep : Prepared P s s₀) (hfixed : Fixed s₀ s')
    (hdouble : (d.directMode && d.buf2) = true) : s.dirty ⊆ union (s'.cleared d).syncAreas := by
  intro p hin
  have hunion : union s'.unjoined = s₀.pending 0 := by
    rw [union_unjoined]
    simp only [LvDisp.pending, hfixed.invP, hfixed.invAreaJoined, hfixed.invAreas]
  obtain ⟨a, ha, hpa⟩ : p ∈ union s'.unjoined := by
    rw [hunion]
    exact hprep.covers hin
  rw [LvDisp.cleared, if_pos hdouble]
  exact ⟨a, List.mem_append_right _ ha, hpa⟩

/-- After the drawing the buffers hold the scene, the one that is not active up to the areas just drawn. -/
theorem Prepared.drawn (h : Coherent P s) (hprep : Prepared P s s₀) (hclean : Clean P s.bufAct ∅ s')
    (hfixed : Fixed s₀ s') (hidle : s'.renderingInProgress = false)
    (hbufs : d.directMode → s'.bufAct = (if d.buf2 then !s.bufAct else s.bufAct) ∧
      s'.buf (!s.bufAct) = s₀.buf (!s.bufAct) ∧ ∀ t, s'.transfer = some t → t.source = some s.bufAct) :
    Coherent P (s'.cleared d) := by
  obtain ⟨c, hsteady, hc⟩ := hclean.picture
  have hscene : s'.scene = s.scene := by
    obtain ⟨areas, joined, buf, sync, rfl⟩ := hprep.same
    exact hfixed.scene
  have hactive : d.directMode → d.buf2 → s'.bufAct = !s.bufAct := by
    intro hdirect hbuf2
    rw [(hbufs hdirect).1, if_pos hbuf2]
  have hvalid : d.Valid (s'.cleared d) := ⟨fun i hi => absurd hi (Nat.not_lt_zero i), Nat.zero_le _⟩
  refine ⟨show d.Solid s'.scene from hscene ▸ h.solid, hvalid, fun _ => rfl, hidle, fun a ha => ?_,
    ⟨c, hsteady.of_pixels rfl rfl rfl rfl fun _ _ => rfl, fun p hp _ => hc p hp id⟩,
    fun hdirect p hp _ hsynced => ?_, fun hdirect hbuf2 p hp _ => ?_, fun hdirect hbuf2 t ht => ?_⟩
  · have ha : a ∈ if d.directMode && d.buf2 then s'.syncAreas ++ s'.unjoined else s'.syncAreas := ha
    rw [hfixed.syncAreas] at ha
    split at ha
    · rcases List.mem_append.mp ha with ha | ha
      · exact hprep.sync a ha
      · obtain ⟨i, hi, -, rfl⟩ := mem_unjoined.mp ha
        rw [hfixed.invAreas]
        exact hprep.valid.areas i (hfixed.invP ▸ hi)
    · exact hprep.sync a ha
  · obtain ⟨hact, hbuf, -⟩ := hbufs hdirect
    show s'.scene.Fits p (s'.buf s'.bufAct (pixelIndex d.screen p))
    cases hbuf2 : d.buf2 with
    | true =>
        have hout : p ∉ s.dirty := fun hin =>
          hsynced hbuf2 (hprep.dirty_subset_sync hfixed (by rw [hdirect, hbuf2]; rfl) hin)
        rw [hact, if_pos hbuf2, hbuf, hprep.other, hscene]
        exact h.other hdirect hbuf2 p hp hout
    | false =>
        rw [hact, if_neg (by rw [hbuf2]; exact Bool.false_ne_true)]
        exact hclean.buffer hdirect p hp id
  · show s'.scene.Fits p (s'.buf (!s'.bufAct) (pixelIndex d.screen p))
    rw [hactive hdirect hbuf2, Bool.not_not]
    exact hclean.buffer hdirect p hp id
  · show t.source ≠ some s'.bufAct
    rw [hactive hdirect hbuf2, (hbufs hdirect).2.2 t ht]
    simp

/-- **The drawing of a refresh**: afterwards no area is invalid, and the panel is to show the scene everywhere.
The last part, and no other, has been flushed with the flag. -/
theorem refrTimerDraw_spec (hd : d.Ok) (h : Coherent P s) (hkeep : SyncKeeps d s) :
    ∃ s', s.refrTimerDraw d P.flush = .ok s' ∧ Coherent P s' ∧ s'.invP = 0 ∧ s'.scene = s.scene ∧
      s'.invEnCnt = s.invEnCnt ∧
      if s.invP = 0 then s'.flushes = s.flushes else Flagged s s' true := by
  obtain ⟨s₂, hs₂, hprep⟩ := h.prepared hd hkeep
  by_cases hzero : s.invP = 0
  · have hcoherent := hprep.idle h hzero
    obtain ⟨areas, joined, buf, sync, rfl⟩ := hprep.same
    refine ⟨_, ?_, hcoherent, hzero, rfl, rfl, by rw [if_pos hzero]⟩
    refine (Run.bind_of_ok hs₂).trans ((Run.bind_of_ok (if_pos hzero)).trans ?_)
    exact congrArg Except.ok (if_neg (not_not_intro hzero))
  · have hsome := hprep.exists_unjoined h hzero
    have hsolid : d.Solid s₂.scene := by
      obtain ⟨areas, joined, buf, sync, rfl⟩ := hprep.same
      exact h.solid
    have hact : s₂.bufAct = s.bufAct := by
      obtain ⟨areas, joined, buf, sync, rfl⟩ := hprep.same
      rfl
    obtain ⟨s₃, hs₃, hclean, hfixed, hidle, hflags, hbufs⟩ :=
      refrInvalidAreas_spec hd hsolid hprep.valid hsome hprep.clean fun _ => hact
    have hdrawn := hprep.drawn h hclean hfixed hidle hbufs
    obtain ⟨areas, joined, buf, sync, rfl⟩ := hprep.same
    have hinvP : s₃.invP ≠ 0 := by
      rw [hfixed.invP]
      exact hzero
    refine ⟨s₃.cleared d, ?_, hdrawn, rfl, hfixed.scene, hfixed.invEnCnt, ?_⟩
    · refine (Run.bind_of_ok hs₂).trans ((Run.bind_of_ok hs₃).trans ?_)
      exact congrArg Except.ok (if_pos hinvP)
    · rw [if_neg hzero]
      exact hflags

end SwmLvgl.Refr
