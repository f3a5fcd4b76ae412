import Mathlib.Data.List.Chain
import SwmLvgl.PmSettle

/-! The lifecycle of a page: its `onLoad` and `unLoad` calls, in order. An open loads its page at once,
while the page sent away is unloaded when its animation completes, so a page can be loaded again before
that, and `lv_pm_back` loads nothing. `LoadsPage` is the exact condition for the calls to alternate and
for the page on top, and no other, to be loaded once nothing runs. -/

namespace SwmLvgl.Pm

variable {ω : Type}

/-- `onLoad` or `unLoad`. -/
def Hook.isLoad : Hook → Bool
  | .onLoad => true
  | .unLoad => true
  | _ => false

/-- `onLoad` and `unLoad` take turns, `onLoad` first. -/
def Alternates (calls : List Hook) : Prop :=
  (∀ h ∈ calls.head?, h = .onLoad) ∧ calls.IsChain (· ≠ ·)

/-- The last of the calls is `onLoad`. -/
def Loaded (calls : List Hook) : Prop := calls.getLast? = some .onLoad

instance (calls : List Hook) : Decidable (Loaded calls) := inferInstanceAs (Decidable (_ = _))

theorem alternates_nil : Alternates [] := ⟨by simp, .nil⟩

theorem alternates_concat {calls : List Hook} (hne : calls ≠ []) (h : Hook) :
    Alternates (calls ++ [h]) ↔ Alternates calls ∧ calls.getLast? ≠ some h := by
  rw [Alternates, Alternates, List.head?_append_of_ne_nil _ hne, List.isChain_append, and_assoc]
  refine and_congr_right fun _ => and_congr_right fun _ => ?_
  constructor
  · rintro ⟨-, hlast⟩ heq
    exact hlast h heq h rfl rfl
  · intro hlast
    refine ⟨.singleton _, fun x hx y hy => ?_⟩
    rintro rfl
    cases hy
    exact hlast hx

theorem alternates_onLoad (calls : List Hook) :
    Alternates (calls ++ [.onLoad]) ↔ Alternates calls ∧ ¬Loaded calls := by
  by_cases hne : calls = []
  · simp [hne, Alternates, Loaded]
  · exact alternates_concat hne _

theorem alternates_unLoad {calls : List Hook} (h : ∀ x ∈ calls, x.isLoad) :
    Alternates (calls ++ [.unLoad]) ↔ Alternates calls ∧ Loaded calls := by
  by_cases hne : calls = []
  · simp [hne, Alternates, Loaded]
  rw [alternates_concat hne, Loaded]
  refine and_congr_right fun _ => ?_
  have hlast := List.getLast?_eq_some_getLast hne
  have hload := h _ (List.getLast_mem hne)
  rw [hlast]
  cases hx : calls.getLast hne <;> simp_all [Hook.isLoad]

theorem loaded_concat (calls : List Hook) (h : Hook) : Loaded (calls ++ [h]) ↔ h = .onLoad := by
  simp [Loaded]

namespace Ui

/-- The `onLoad` and `unLoad` calls of a page, in order. -/
def loads (u : Ui ω) (p : Addr) : List Hook :=
  (u.trace.filter fun e => e.1 = p ∧ e.2.isLoad).map Prod.snd

theorem isLoad_of_mem_loads {u : Ui ω} {p : Addr} {h : Hook} (hmem : h ∈ u.loads p) : h.isLoad := by
  obtain ⟨e, he, rfl⟩ := List.mem_map.mp hmem
  exact (of_decide_eq_true (List.mem_filter.mp he).2).2

/-- A page created with both an `onLoad` and an `unLoad`. -/
def HasLoads (u : Ui ω) (p : Addr) : Prop :=
  (u.lifecycles p).onLoad.isSome ∧ (u.lifecycles p).unLoad.isSome

theorem HasLoads.of_static {u v : Ui ω} {p : Addr} (h : u.HasLoads p) (hstatic : u.SameStatic v) :
    v.HasLoads p := by
  rw [HasLoads, hstatic.2]
  exact h

theorem loads_hook_of_not_isLoad (u : Ui ω) {h : Hook} (hh : h.isLoad = false) (q p : Addr) :
    (u.hook h q).loads p = u.loads p := by
  unfold hook
  split
  · rfl
  · simp [loads, hh]

theorem loads_hook {u : Ui ω} {p : Addr} (hu : u.HasLoads p) {h : Hook}
    (hh : h.isLoad = true) (q : Addr) :
    (u.hook h q).loads p = if q = p then u.loads p ++ [h] else u.loads p := by
  unfold hook
  split
  · rename_i hnone
    by_cases hq : q = p
    · obtain ⟨hon, hun⟩ := hu
      rw [hq] at hnone
      cases h <;> simp_all [lifecycles, Lifecycle.get, Hook.isLoad]
    · rw [if_neg hq]
  · by_cases hq : q = p <;> simp [loads, hh, hq]

/-- Whether a completion callback unloads its page. -/
def unloads : CompleteCb → LvPmOpenOptions → Bool
  | .disAppear, _ => true
  | .backDisAppear, _ => true
  | _, _ => false

theorem loads_complete {u : Ui ω} {p : Addr} (hu : u.HasLoads p) (block : Nat) (cb : CompleteCb)
    (q : Addr) (options : LvPmOpenOptions) :
    (u.complete block cb q options).loads p =
      if q = p ∧ unloads cb options then u.loads p ++ [.unLoad] else u.loads p := by
  have hun : ∀ v : Ui ω, u.SameStatic v → v.loads p = u.loads p →
      ((v.hook .didDisappear q).hook .unLoad q).loads p =
        if q = p then u.loads p ++ [.unLoad] else u.loads p := by
    intro v hstatic hloads
    have hv := (hu.of_static hstatic).of_static (sameStatic_hook v .didDisappear q)
    rw [loads_hook hv rfl, loads_hook_of_not_isLoad v rfl, hloads]
  cases cb with
  | appear =>
      simp only [unloads, Bool.false_eq_true, and_false, if_false]
      exact loads_hook_of_not_isLoad u rfl q p
  | backAppear =>
      simp only [unloads, Bool.false_eq_true, and_false, if_false]
      exact loads_hook_of_not_isLoad u rfl q p
  | backDisAppear =>
      simp only [unloads, and_true]
      exact hun (u.addHidden q) (sameStatic_modObj u q _) rfl
  | disAppear =>
      simp only [unloads, and_true]
      refine hun (if options.animation ≠ .popup then u.addHidden q else u) ?_ ?_
      · split
        · exact sameStatic_modObj u q _
        · exact ⟨rfl, rfl⟩
      · split <;> rfl

theorem trace_exec (u : Ui ω) (key : AnimKey) (v : Int) : (u.exec key v).trace = u.trace := by
  unfold exec
  split <;> rfl

theorem loads_transit {u : Ui ω} {p : Addr} (hu : u.HasLoads p) (start stop : ExecCb → Int)
    (q : Addr) (behavior : LvPmOpenOptions) (cb : CompleteCb) (malloc : Bool) :
    (u.transit start stop q behavior cb malloc).loads p =
      if q = p ∧ startedAxis behavior.animation malloc = none ∧ unloads cb behavior then
        u.loads p ++ [.unLoad]
      else u.loads p := by
  unfold transit
  cases startedAxis behavior.animation malloc with
  | none =>
      simp only [true_and]
      exact loads_complete (u := u.openCall behavior.animation malloc) hu _ _ _ _
  | some ax =>
      simp only [reduceCtorEq, false_and, and_false, if_false, loads, lvAnimStart, trace_exec]
      cases ax <;> rfl

theorem loads_leave {u : Ui ω} {p : Addr} (hu : u.HasLoads p) (q x : Addr) (back : Bool)
    (cb : CompleteCb) (malloc : Bool) :
    (u.leave q x back cb malloc).loads p =
      if q = p ∧ startedAxis (u.pages x).options.animation malloc = none ∧
          unloads cb (u.pages x).options then
        u.loads p ++ [.unLoad]
      else u.loads p := by
  have hstatic := (sameStatic_setBack u q back).trans (sameStatic_hook _ .willDisappear q)
  rw [leave_eq, loads_transit (hu.of_static hstatic), loads_hook_of_not_isLoad _ rfl]
  rfl

theorem loads_openAppear {u : Ui ω} {p : Addr} (hu : u.HasLoads p) (q : Addr) (malloc : Bool) :
    (u.openAppear q malloc).loads p = u.loads p := by
  have hstatic : u.SameStatic ((u.clearHidden q).hook .willAppear q) :=
    (sameStatic_modObj u q _).trans (sameStatic_hook _ .willAppear q)
  rw [openAppear_eq, loads_transit (hu.of_static hstatic), loads_hook_of_not_isLoad _ rfl]
  simp only [unloads, Bool.false_eq_true, and_false, if_false]
  rfl

theorem loads_backAppear {u : Ui ω} {p : Addr} (hu : u.HasLoads p) (q x : Addr) (malloc : Bool) :
    (u.backAppear q x malloc).loads p = u.loads p := by
  have hstatic : u.SameStatic (((u.setBack q true).hook .willAppear q).clearHidden q) :=
    (sameStatic_setBack u q true).trans ((sameStatic_hook _ .willAppear q).trans
      (sameStatic_modObj _ q _))
  rw [backAppear_eq, loads_transit (hu.of_static hstatic)]
  simp only [unloads, Bool.false_eq_true, and_false, if_false]
  exact loads_hook_of_not_isLoad _ rfl q p

theorem unloads_disAppearCb (m : Move) (options : LvPmOpenOptions) :
    unloads m.disAppearCb options = true := by
  cases hb : m.back <;> simp [Move.disAppearCb, hb, unloads]

theorem unloads_appearCb (m : Move) (options : LvPmOpenOptions) :
    unloads m.appearCb options = false := by
  cases hb : m.back <;> simp [Move.appearCb, hb, unloads]

/-- A transition unloads the page sent away if that does not move, and only an open loads the page
shown. -/
theorem Moved.loads {u v : Ui ω} {m : Move} (h : u.Moved m v) {p : Addr} (hu : u.HasLoads p) :
    v.loads p =
      (if m.away = some p ∧ m.leaving = none then u.loads p ++ [.unLoad] else u.loads p) ++
        if m.page = p ∧ m.back = false then [.onLoad] else [] := by
  cases h with
  | backed c r mem =>
      have hv : (u.leave c c true .backDisAppear mem.disAppear).HasLoads p :=
        hu.of_static (sameStatic_leave _ _ _ _ _ _)
      rw [backUi, loads_backAppear hv, loads_leave hu]
      simp [Move.leaving, unloads]
  | opened prev q behavior mem =>
      have hprepare := hu.of_static (sameStatic_prepare u q behavior)
      have hloads : (u.prepare q behavior).loads p = u.loads p := by cases behavior <;> rfl
      have hopen : ∀ v : Ui ω, v.HasLoads p → ((v.hook .onLoad q).openAppear q mem.appear).loads p =
          v.loads p ++ if q = p then [.onLoad] else [] := by
        intro v hv
        rw [loads_openAppear (hv.of_static (sameStatic_hook v .onLoad q)), loads_hook hv rfl]
        split <;> simp
      cases prev with
      | none =>
          rw [openUi, hopen _ hprepare, hloads]
          simp
      | some c =>
          have hoptions : ((u.prepare q behavior).pages q).options =
              behavior.getD (u.pages q).options := by rw [pages_prepare, if_pos rfl]
          rw [openUi, hopen _ (hprepare.of_static (sameStatic_leave _ c q false .disAppear _)),
            loads_leave hprepare, hloads, hoptions]
          simp [Move.leaving, unloads]

/-! ### Loaded pages and the completions that will unload them -/

/-- The number of running animations that will unload the page. -/
def due (u : Ui ω) (p : Addr) : Nat :=
  (u.pending unloads p .translateX).toNat + (u.pending unloads p .translateY).toNat

theorem due_of_quiet {u : Ui ω} (h : u.running = 0) (p : Addr) : u.due p = 0 := by
  simp [due, pending_of_quiet h]

theorem loads_animReady {u : Ui ω} (hu : u.Tagged) {p : Addr} (hp : u.HasLoads p) (key : AnimKey) :
    (u.animReady key).loads p =
      if key.1 = p ∧ u.pending unloads key.1 key.2 then u.loads p ++ [.unLoad] else u.loads p := by
  cases h : u.anims.lookup key with
  | none => simp [animReady_of_none h, pending, h]
  | some a =>
      have hexec : ((u.exec key a.endValue).lvAnimDel key).loads p = u.loads p := by
        simp only [loads, lvAnimDel, trace_exec]
      have hstatic := hp.of_static (sameStatic_exec u key a.endValue)
      rw [animReady_of_lookup h, ← hexec]
      simp only [pending, h, ← hu key a h]
      exact loads_complete (u := (u.exec key a.endValue).lvAnimDel key) hstatic a.userData.block _ _ _

/-- A completion that was due takes place, and no step of LVGL does anything else to a page's calls. -/
theorem loads_step {u : Ui ω} (hu : u.Tagged) {p : Addr} (hp : u.HasLoads p) (x : UiAction) :
    ((u.step x).loads p = u.loads p ∧ (u.step x).due p = u.due p) ∨
      ((u.step x).loads p = u.loads p ++ [.unLoad] ∧ (u.step x).due p + 1 = u.due p) := by
  cases x with
  | layout q => exact Or.inl ⟨rfl, rfl⟩
  | progress key v =>
      left
      simp only [step, animProgress]
      split
      · exact ⟨rfl, rfl⟩
      · simp only [loads, trace_exec, due, pending, anims_exec, and_self]
  | ready key =>
      obtain ⟨q, ax⟩ := key
      simp only [step, loads_animReady hu hp, due, pending_animReady, Prod.mk.injEq]
      by_cases hq : q = p
      · cases hpending : u.pending unloads q ax
        · left
          cases ax <;> simp [← hq, hpending]
        · right
          cases ax <;> (simp [← hq, hpending]; try omega)
      · left
        simp [hq, Ne.symm hq]

end Ui

/-- The calls of the page alternate, and it is loaded exactly if it is on top or will be unloaded. -/
def LifecycleOk (s : State ω) (p : Addr) : Prop :=
  Alternates (s.ui.loads p) ∧
    (decide (Loaded (s.ui.loads p))).toNat = (decide (s.topPage = some p)).toNat + s.ui.due p

/-- An open: no completion will unload the page opened, which is not itself sent away by an animation.
A back: an animation of the page returned to starts on the axis of one that would unload it. -/
def LoadsPage (s : State ω) (m : Move) : Prop :=
  if m.back then
    (m.appearing = some .translateX ∧ s.ui.pending Ui.unloads m.page .translateX) ∨
      (m.appearing = some .translateY ∧ s.ui.pending Ui.unloads m.page .translateY) ∨
      (m.away = some m.page ∧ m.leaving ≠ none ∧ m.appearing = m.leaving)
  else s.ui.due m.page = 0 ∧ ¬(m.away = some m.page ∧ m.leaving ≠ none)

instance (s : State ω) (m : Move) : Decidable (LoadsPage s m) :=
  inferInstanceAs (Decidable (ite _ _ _))

theorem pending_of_due {u : Ui ω} {p : Addr} (h : u.due p = 0) (ax : ExecCb) :
    u.pending Ui.unloads p ax = false := by
  unfold Ui.due at h
  cases ax with
  | translateX =>
      cases hX : u.pending Ui.unloads p .translateX with
      | false => rfl
      | true => simp [hX] at h
  | translateY =>
      cases hY : u.pending Ui.unloads p .translateY with
      | false => rfl
      | true => simp [hY] at h

/-- The page on top is loaded, and nothing is going to unload it. -/
theorem LifecycleOk.of_top {s : State ω} {p : Addr} (h : LifecycleOk s p) (htop : s.topPage = some p) :
    Loaded (s.ui.loads p) ∧ s.ui.due p = 0 := by
  have hcount := h.2
  rw [decide_eq_true htop, Bool.toNat_true] at hcount
  have hle := Bool.toNat_le (decide (Loaded (s.ui.loads p)))
  have hdue : s.ui.due p = 0 := by omega
  rw [hdue] at hcount
  refine ⟨?_, hdue⟩
  by_contra hnot
  simp [hnot] at hcount

/-- A page other than the one shown keeps its lifecycle in order. -/
theorem lifecycleOk_other {s t : State ω} {m : Move} (hui : s.ui.Moved m t.ui)
    (htop : t.topPage = some m.page) (haway : m.away = s.topPage) {p : Addr} (hp : s.ui.HasLoads p)
    (hne : p ≠ m.page) (h : LifecycleOk s p) : LifecycleOk t p := by
  have hloads := hui.loads hp
  rw [if_neg (fun h : m.page = p ∧ _ => hne h.1.symm), List.append_nil] at hloads
  have htop' : ¬t.topPage = some p := by
    rw [htop]
    exact fun h => hne (Option.some.inj h).symm
  rw [LifecycleOk, decide_eq_false htop', Bool.toNat_false, Nat.zero_add, hloads, Ui.due]
  simp only [hui.pending, hne, false_and, if_false, Ui.unloads_disAppearCb]
  by_cases hq : m.away = some p
  · obtain ⟨hloaded, hdue⟩ := h.of_top (haway ▸ hq)
    have hpending := pending_of_due hdue
    cases hleave : m.leaving with
    | none =>
        -- it is unloaded at once
        rw [if_pos ⟨hq, rfl⟩]
        refine ⟨(alternates_unLoad fun _ => Ui.isLoad_of_mem_loads).mpr ⟨h.1, hloaded⟩, ?_⟩
        simp [Loaded, hpending]
    | some ax =>
        -- it will be unloaded when its animation completes
        rw [if_neg (by simp)]
        refine ⟨h.1, ?_⟩
        rw [decide_eq_true hloaded]
        cases ax <;> simp [hq, hpending]
  · have hcount := h.2
    rw [← haway, decide_eq_false hq] at hcount
    simp only [hq, false_and, if_false]
    exact ⟨h.1, by simpa [Ui.due] using hcount⟩

theorem lifecycleOk_page {s t : State ω} {m : Move} (hui : s.ui.Moved m t.ui)
    (htop : t.topPage = some m.page) (haway : m.away = s.topPage) (hp : s.ui.HasLoads m.page)
    (h : LifecycleOk s m.page) : LifecycleOk t m.page ↔ LoadsPage s m := by
  have hloads := hui.loads hp
  have hmem : ∀ x ∈ s.ui.loads m.page, x.isLoad := fun _ => Ui.isLoad_of_mem_loads
  rw [LifecycleOk, decide_eq_true htop, Bool.toNat_true, hloads, LoadsPage, Ui.due]
  simp only [hui.pending, true_and, Ui.unloads_disAppearCb, Ui.unloads_appearCb]
  by_cases hq : m.away = some m.page
  · obtain ⟨hloaded, hdue⟩ := h.of_top (haway ▸ hq)
    have hpending := pending_of_due hdue
    have hunload := (alternates_unLoad hmem).mpr ⟨h.1, hloaded⟩
    cases hleave : m.leaving with
    | none =>
        cases hback : m.back with
        | true => simp [hq, hpending, Loaded]
        | false =>
            have hnot : ¬Loaded (s.ui.loads m.page ++ [.unLoad]) := by simp [Loaded]
            simp only [hq, hdue, hpending, if_true, alternates_onLoad, loaded_concat]
            simp [hunload, hnot]
    | some ax =>
        cases hback : m.back with
        | true =>
            cases happear : m.appearing with
            | none => cases ax <;> simp [hq, hpending, h.1, hloaded]
            | some ax' => cases ax <;> cases ax' <;> simp [hq, hpending, h.1, hloaded]
        | false => simp [hq, alternates_onLoad, hloaded]
  · have hcount := h.2
    rw [← haway, decide_eq_false hq, Bool.toNat_false, Nat.zero_add] at hcount
    by_cases hloaded : Loaded (s.ui.loads m.page)
    · -- one completion is due that will unload the page
      rw [decide_eq_true hloaded] at hcount
      cases hback : m.back with
      | false => simp [hq, ← hcount, alternates_onLoad, hloaded]
      | true =>
          unfold Ui.due at hcount
          cases hX : s.ui.pending Ui.unloads m.page .translateX <;>
            cases hY : s.ui.pending Ui.unloads m.page .translateY <;> simp [hX, hY] at hcount
          · cases m.appearing with
            | none => simp [hq, hloaded]
            | some ax => cases ax <;> simp [hq, h.1, hloaded]
          · cases m.appearing with
            | none => simp [hq, hloaded]
            | some ax => cases ax <;> simp [hq, h.1, hloaded]
    · rw [decide_eq_false hloaded] at hcount
      have hpending := pending_of_due hcount.symm
      cases hback : m.back with
      | false =>
          have halternates := (alternates_onLoad _).mpr ⟨h.1, hloaded⟩
          have hlast := (loaded_concat (s.ui.loads m.page) .onLoad).mpr rfl
          simp [hq, hpending, ← hcount, halternates, hlast]
      | true => simp [hq, hpending, hloaded]

/-- The pages created have both callbacks, and every animation completes for the page it moves. -/
structure LifecycleRun (s : State ω) : Prop where
  ready : s.Ready
  tagged : s.ui.Tagged
  loads : ∀ id p, s.slot id = some p → s.ui.HasLoads p

theorem LifecycleRun.step {s t : State ω} (hs : LifecycleRun s) {a : Action} (h : StepTo s a t) :
    LifecycleRun t := by
  obtain ⟨hrouter, hstatic⟩ := h.static
  refine ⟨h.ready hs.ready, ?_, fun id p hp => ?_⟩
  · cases h.moveTo with
    | stays _ => exact hs.tagged
    | moves _ hui _ _ _ => exact hui.tagged hs.tagged
    | lvgl => exact hs.tagged.step _
  · rw [State.slot_congr hrouter] at hp
    exact (hs.loads id p hp).of_static hstatic

/-- A step of LVGL breaks no page's lifecycle, and repairs none. -/
theorem lifecycleOk_lvgl {s : State ω} (hs : s.ui.Tagged) {p : Addr} (hp : s.ui.HasLoads p)
    (x : UiAction) : LifecycleOk { s with ui := s.ui.step x } p ↔ LifecycleOk s p := by
  have htop : ({ s with ui := s.ui.step x } : State ω).topPage = s.topPage := rfl
  rw [LifecycleOk, LifecycleOk, htop]
  rcases Ui.loads_step hs hp x with ⟨hloads, hdue⟩ | ⟨hloads, hdue⟩
  · simp only [hloads, hdue]
  · simp only [hloads, ← hdue, alternates_unLoad fun _ => Ui.isLoad_of_mem_loads]
    have hnot : ¬Loaded (s.ui.loads p ++ [.unLoad]) := by simp [Loaded]
    by_cases hloaded : Loaded (s.ui.loads p)
    · rw [decide_eq_true hloaded, decide_eq_false hnot, and_iff_left hloaded, Bool.toNat_false,
        Bool.toNat_true]
      exact and_congr_right fun _ => by omega
    · simp [hloaded]

/-- The calls of every page alternate; once nothing runs, the page on top is loaded and the other pages
created are not. -/
def LifecycleShown (s : State ω) : Prop :=
  ∀ id p, s.slot id = some p → Alternates (s.ui.loads p) ∧
    (s.ui.running = 0 → (Loaded (s.ui.loads p) ↔ s.topPage = some p))

theorem lifecycleOk_of_shown {s : State ω} (hquiet : s.ui.running = 0) {p : Addr} :
    LifecycleOk s p ↔ Alternates (s.ui.loads p) ∧ (Loaded (s.ui.loads p) ↔ s.topPage = some p) := by
  rw [LifecycleOk, Ui.due_of_quiet hquiet, Nat.add_zero]
  refine and_congr_right fun _ => ?_
  by_cases hloaded : Loaded (s.ui.loads p) <;> by_cases htop : s.topPage = some p <;>
    simp [hloaded, htop]

/-- **Page lifecycle.** When every page has an `unLoad`, the calls of `onLoad` and `unLoad` of every
page alternate along a run, and once nothing runs exactly the page on top is loaded, whatever completes
in between, if and only if every transition of the run meets `LoadsPage`. -/
theorem lifecycle_alternates (c : Setup ω) (hunload : ∀ e ∈ c.pages, e.2.unLoad.isSome)
    {s₀ : State ω} (h₀ : c.Starts s₀) (w : List Action) :
    (∀ v d t, v <+: w → (∀ a ∈ d, a.IsLvgl) → Run.run step s₀ (v ++ d) = .ok t →
      LifecycleShown t) ↔ Run.AllSteps step (MoveMeets LoadsPage) s₀ w := by
  have hstart := h₀.started
  have hloads : Lifecycles (fun l => l.onLoad.isSome ∧ l.unLoad.isSome) s₀ :=
    h₀.lifecycles fun e he => ⟨c.onLoad e he, hunload e he⟩
  have hnil : ∀ p, s₀.ui.loads p = [] := fun p => by simp [Ui.loads, hstart.trace]
  refine moves_exact (J := LifecycleRun) (A := fun _ => True)
    (G := fun s => ∀ id p, s.slot id = some p → LifecycleOk s p) (P := LifecycleShown)
    (fun s hs => hs.ready) (fun s a t _ hs hto => hs.step hto) (fun _ => trivial) ?_ ?_ ?_ ?_
    (fun _ _ => trivial) ⟨hstart.ready, hstart.tagged, hloads⟩ fun id p _ => ?_
  · intro s x hs
    exact forall₂_congr fun id p => imp_congr_right fun hp =>
      lifecycleOk_lvgl hs.tagged (hs.loads id p hp) x
  · intro s _ h id p hp
    exact ⟨(h id p hp).1, fun hquiet => ((lifecycleOk_of_shown hquiet).mp (h id p hp)).2⟩
  · intro s _ hquiet h id p hp
    exact (lifecycleOk_of_shown hquiet).mpr ⟨(h id p hp).1, (h id p hp).2 hquiet⟩
  · intro s a m t _ hs h _ hui htop haway hslot
    obtain ⟨id, hid⟩ := exists_slot_of_topPage htop
    rw [hslot] at hid ⊢
    have hpage := lifecycleOk_page hui htop haway (hs.loads id _ hid) (h id _ hid)
    refine ⟨fun ht => hpage.mp (ht id _ hid), fun hK id' p hp => ?_⟩
    by_cases hne : p = m.page
    · exact hne ▸ hpage.mpr hK
    · exact lifecycleOk_other hui htop haway (hs.loads id' p hp) hne (h id' p hp)
  · rw [lifecycleOk_of_shown hstart.running, hnil, hstart.topPage]
    exact ⟨alternates_nil, by simp [Loaded]⟩

/-- After a push over page 0 and the back to it, page 0 is shown on top of the history although it was
unloaded when it was left and has not been loaded again. -/
theorem back_leaves_unloaded : demo.Starts demoState ∧
    ∃ t, Run.run step demoState
      [.openPage (.ofNat 0) (some ⟨.none, .new, .left⟩) ⟨true, true⟩,
        .openPage (.ofNat 1) none ⟨true, true⟩, .back ⟨true, true⟩] = .ok t ∧
    t.ui.running = 0 ∧ t.slot 0 = some 0 ∧ t.topPage = some 0 ∧ (t.ui.obj 0).hidden = false ∧
    t.ui.loads 0 = [.onLoad, .unLoad] ∧ ¬LifecycleShown t := by
  refine ⟨demo_starts, _, rfl, by decide, by decide, by decide, by decide, by decide, fun h => ?_⟩
  exact absurd (((h 0 0 (by decide)).2 (by decide)).mpr (by decide)) (by decide)

/-- Two pages that replace each other, the second time after the slides have ended, and a back that
cancels the slide which would have unloaded the page below. -/
def lifecycleDemo : List Action :=
  [.openPage (.ofNat 0) (some ⟨.none, .new, .left⟩) ⟨true, true⟩,
    .openPage (.ofNat 1) (some ⟨.slide, .new, .left⟩) ⟨true, true⟩,
    .lvgl (.ready (0, .translateX)), .lvgl (.ready (1, .translateX)),
    .openPage (.ofNat 0) (some ⟨.slide, .reset, .left⟩) ⟨true, true⟩, .back ⟨true, true⟩]

theorem lifecycle_alternates_demo :
    Run.AllSteps step (MoveMeets LoadsPage) demoState lifecycleDemo ∧
    ∀ v d t, v <+: lifecycleDemo → (∀ a ∈ d, a.IsLvgl) → Run.run step demoState (v ++ d) = .ok t →
      LifecycleShown t :=
  have h : Run.AllSteps step (MoveMeets LoadsPage) demoState lifecycleDemo := by decide
  ⟨h, (lifecycle_alternates demo (by decide) demo_starts lifecycleDemo).mpr h⟩

end SwmLvgl.Pm
