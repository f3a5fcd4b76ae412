import SwmLvgl.AppSpec
import SwmLvgl.PmSettle

/-! The invariant of the running application: one page in the history, that page shown and holding all
its buttons, the other hidden and holding none. Every open the application makes is a switch without
animation to the other page, so the page left is unloaded before the page opened is loaded. -/

namespace SwmLvgl

namespace Pm.Ui

variable {ω : Type}

theorem app_hook (u : Ui ω) (h : Hook) (p : Addr) :
    (u.hook h p).app =
      match (u.lifecycles p).get h with
      | none => u.app
      | some f => f u.disp p (u.obj p) u.app := by
  unfold hook lifecycles obj
  split <;> simp [*]

/-- The callbacks of a page that has an `onLoad` and an `unLoad` and no other. -/
def OnlyLoads (u : Ui ω) (p : Addr) (onLoad unLoad : LvPmLifecycle ω) : Prop :=
  u.lifecycles p = ⟨some onLoad, none, none, none, none, some unLoad⟩

theorem OnlyLoads.of_static {u v : Ui ω} {p : Addr} {f g : LvPmLifecycle ω} (h : u.OnlyLoads p f g)
    (hstatic : u.SameStatic v) : v.OnlyLoads p f g := by
  rw [OnlyLoads, hstatic.2]
  exact h

/-- A page sent away without animation runs its `unLoad`. -/
theorem app_leave {u : Ui ω} {q p : Addr} {f g : LvPmLifecycle ω} (hq : u.OnlyLoads q f g)
    (malloc : Bool) (hnone : startedAxis (u.pages p).options.animation malloc = none) :
    ∃ o, (u.leave q p false .disAppear malloc).app = g u.disp q o u.app := by
  let v := (u.setBack q false).hook .willDisappear q
  have hv : u.SameStatic v := (sameStatic_setBack u q false).trans (sameStatic_hook _ _ _)
  have happ : v.app = u.app := by
    rw [app_hook, hq.of_static (sameStatic_setBack u q false)]
    rfl
  -- the callback hides the page, unless it was a popup, and calls the page
  let x := if (u.pages p).options.animation ≠ .popup then
      (v.openCall (u.pages p).options.animation malloc).addHidden q
    else v.openCall (u.pages p).options.animation malloc
  have hx : v.SameStatic x := by
    show v.SameStatic (if _ then _ else _)
    split
    · exact sameStatic_modObj (v.openCall (u.pages p).options.animation malloc) q _
    · exact ⟨rfl, rfl⟩
  have hxapp : x.app = v.app := by
    show (if _ then _ else _ : Ui ω).app = v.app
    split <;> rfl
  have hdid : (x.hook .didDisappear q).app = x.app := by
    rw [app_hook, (hq.of_static (hv.trans hx))]
    rfl
  have hstatic := (hv.trans hx).trans (sameStatic_hook x .didDisappear q)
  refine ⟨(x.hook .didDisappear q).obj q, ?_⟩
  rw [leave_eq, transit, hnone]
  show ((x.hook .didDisappear q).hook .unLoad q).app = _
  rw [app_hook, hq.of_static hstatic, hdid, hxapp, happ, hstatic.1]
  rfl

/-- A page that is opened without animation runs its `onLoad`. -/
theorem app_openAppear {u : Ui ω} {p : Addr} {f g : LvPmLifecycle ω} (hp : u.OnlyLoads p f g)
    {malloc : Bool} (hnone : startedAxis (u.pages p).options.animation malloc = none) :
    ((u.hook .onLoad p).openAppear p malloc).app = f u.disp p (u.obj p) u.app := by
  have hload : (u.hook .onLoad p).app = f u.disp p (u.obj p) u.app := by
    rw [app_hook, hp]
    rfl
  have hstatic := sameStatic_hook u .onLoad p
  let v := ((u.hook .onLoad p).clearHidden p).hook .willAppear p
  have hclear : (u.hook .onLoad p).SameStatic ((u.hook .onLoad p).clearHidden p) :=
    sameStatic_modObj _ p _
  have hv : v.app = (u.hook .onLoad p).app := by
    rw [app_hook, hp.of_static (hstatic.trans hclear)]
    rfl
  rw [openAppear_eq, hook_pages, transit, hnone, ← hload, ← hv]
  show ((v.openCall _ malloc).hook .didAppear p).app = v.app
  have hcall : v.SameStatic (v.openCall (u.pages p).options.animation malloc) := ⟨rfl, rfl⟩
  rw [app_hook, hp.of_static (((hstatic.trans hclear).trans (sameStatic_hook _ .willAppear p)).trans
    hcall)]
  rfl

end Pm.Ui

namespace App

open Pm (Addr Display Fault LvObj LvPmLifecycle LvPmOpenOptions Mem State UiAction lvPmPageNum)

/-- The page has all its buttons: the flag is set, and the pointers of the array are different live
buttons of the page, which has no others. -/
structure OwnsAll {n : Nat} (page : Addr) (p : PageBtns n) (w : Widgets) : Prop where
  created : p.created = 1
  btn : ∀ i < n, ∃ obj b, p.btn[i]? = some (some obj) ∧ (obj, b) ∈ w.live ∧ b.page = page
  distinct : ∀ i < n, ∀ j < n, p.btn[i]? = p.btn[j]? → i = j
  count : (w.live.filter fun e => e.2.page = page).length = n

/-- The page has no button: the flag is clear and the array is null. -/
structure OwnsNone {n : Nat} (page : Addr) (p : PageBtns n) (w : Widgets) : Prop where
  created : p.created = 0
  btn : ∀ i < n, p.btn[i]? = some none
  count : (w.live.filter fun e => e.2.page = page).length = 0

theorem PageBtns.Holds.ownsAll {n : Nat} {table : Nat → Btn} {p : PageBtns n} {w : Widgets}
    {page : Addr} (h : p.Holds table w) (hpage : ∀ i, (table i).page = page) : OwnsAll page p w := by
  refine ⟨h.created, fun i hi => ⟨_, table i, h.btn i hi, ?_, hpage i⟩, fun i hi j hj hij => ?_, ?_⟩
  · rw [h.live]
    exact List.mem_map.mpr ⟨i, List.mem_range.mpr hi, rfl⟩
  · rw [h.btn i hi, h.btn j hj, Option.some.injEq, Option.some.injEq] at hij
    exact Nat.add_left_cancel hij
  · rw [h.live, List.filter_eq_self.mpr, List.length_map, List.length_range]
    intro e he
    obtain ⟨i, -, rfl⟩ := List.mem_map.mp he
    exact decide_eq_true (hpage i)

theorem PageBtns.Empty.ownsNone {n m : Nat} {table : Nat → Btn} {p : PageBtns n} {q : PageBtns m}
    {w : Widgets} {page other : Addr} (h : p.Empty) (hq : q.Holds table w)
    (hpage : ∀ i, (table i).page = other) (hne : other ≠ page) : OwnsNone page p w := by
  refine ⟨h.created, h.btn, ?_⟩
  rw [hq.live, List.length_eq_zero_iff, List.filter_eq_nil_iff]
  intro e he
  obtain ⟨i, -, rfl⟩ := List.mem_map.mp he
  simpa [hpage i] using hne

/-- Which page holds its buttons. -/
inductive AppShows : Option UInt8 → AppState → Prop where
  | start {app : AppState} (h₁ : app.p1.Empty) (h₂ : app.p2.Empty) (hw : app.widgets.Clean) :
      AppShows none app
  | page1 {app : AppState} (size : Int × Int) (h₁ : app.p1.Holds (p1Button 0 size) app.widgets)
      (h₂ : app.p2.Empty) : AppShows (some 0) app
  | page2 {app : AppState} (size : Int × Int) (h₁ : app.p1.Empty)
      (h₂ : app.p2.Holds (p2Button 1 size) app.widgets) : AppShows (some 1) app

theorem zeroApp_shows : AppShows none zeroApp := by
  refine .start ⟨rfl, fun i hi => ?_⟩ ⟨rfl, fun i hi => ?_⟩ ⟨rfl, ?_, List.nodup_nil⟩
  · simp [zeroApp, PageBtns.zero, hi]
  · simp [zeroApp, PageBtns.zero, hi]
  · simp [zeroApp]

/-- The callbacks of the page with the id, which lies at the address of the same number. -/
def pageOnLoad (id : UInt8) : LvPmLifecycle AppState :=
  if id = 0 then pagePage1OnLoad else pagePage2OnLoad

def pageUnLoad (id : UInt8) : LvPmLifecycle AppState :=
  if id = 0 then pagePage1UnLoad else pagePage2UnLoad

theorem AppShows.unLoad {id : UInt8} {app : AppState} (h : AppShows (some id) app) (disp : Display)
    (p : Addr) (o : LvObj) : AppShows none (pageUnLoad id disp p o app) := by
  cases h with
  | page1 size h₁ h₂ =>
      obtain ⟨hempty, hclean⟩ := PageBtns.unLoad_empty h₁
      exact .start hempty h₂ hclean
  | page2 size h₁ h₂ =>
      obtain ⟨hempty, hclean⟩ := PageBtns.unLoad_empty h₂
      exact .start h₁ hempty hclean

theorem AppShows.onLoad {id : UInt8} {app : AppState} (h : AppShows none app) (hid : id = 0 ∨ id = 1)
    (disp : Display) (o : LvObj) :
    AppShows (some id) (pageOnLoad id disp id.toNat o app) := by
  obtain ⟨h₁, h₂, hw⟩ := h
  rcases hid with rfl | rfl
  · exact .page1 (pageSize disp o) (PageBtns.onLoad_holds _ h₁ hw) h₂
  · exact .page2 (pageSize disp o) h₁ (PageBtns.onLoad_holds _ h₂ hw)

/-! ### The page manager under the application -/

/-- The page manager with the pages of the application: `cur` is the page shown, if one has been
opened. -/
structure AppPm (cur : Option UInt8) (s : State AppState) : Prop where
  ready : s.Ready
  stack : s.stack = cur.toList
  slot : ∀ id, s.slot id = if id = 0 ∨ id = 1 then some id.toNat else none
  callbacks : ∀ id, id = 0 ∨ id = 1 →
    s.ui.OnlyLoads id.toNat (pageOnLoad id) (pageUnLoad id)
  quiet : s.ui.running = 0
  hidden : ∀ id, id = 0 ∨ id = 1 → (s.ui.obj id.toNat).hidden = decide (cur ≠ some id)
  app : AppShows cur s.ui.app

theorem AppPm.valid {id : UInt8} {s : State AppState} (hs : AppPm (some id) s) : id = 0 ∨ id = 1 := by
  have happ := hs.app
  cases happ with
  | page1 => exact Or.inl rfl
  | page2 => exact Or.inr rfl

theorem AppPm.topPage {cur : Option UInt8} {s : State AppState} (hs : AppPm cur s) :
    s.topPage = cur.map UInt8.toNat := by
  rw [State.topPage, State.top, hs.stack]
  cases cur with
  | none => rfl
  | some id =>
      show s.slot id = some id.toNat
      rw [hs.slot, if_pos hs.valid]

/-- The application's state after an open: the page on top, if any, is unloaded and then the page
opened is loaded. -/
theorem AppPm.app_openUi {cur : Option UInt8} {s : State AppState} (hs : AppPm cur s) {id : UInt8}
    (hid : id = 0 ∨ id = 1) (mem : Mem) :
    AppShows (some id) (s.ui.openUi s.topPage id.toNat (some initOptions) mem).app := by
  have hprepare := Pm.Ui.sameStatic_prepare s.ui id.toNat (some initOptions)
  have hid' := (hs.callbacks id hid).of_static hprepare
  have hoptions : ((s.ui.prepare id.toNat (some initOptions)).pages id.toNat).options =
      initOptions := by
    rw [Pm.Ui.pages_prepare, if_pos rfl]
    rfl
  have hnone : ∀ malloc, Pm.startedAxis initOptions.animation malloc = none := by decide
  have happ : (s.ui.prepare id.toNat (some initOptions)).app = s.ui.app := rfl
  rw [hs.topPage]
  have hshows := hs.app
  cases cur with
  | none =>
      show AppShows (some id) (((s.ui.prepare id.toNat (some initOptions)).hook .onLoad
        id.toNat).openAppear id.toNat mem.appear).app
      rw [Pm.Ui.app_openAppear hid' (by rw [hoptions]; exact hnone _), happ]
      exact hshows.onLoad hid _ _
  | some c =>
      let u := (s.ui.prepare id.toNat (some initOptions)).leave c.toNat id.toNat false .disAppear
        mem.disAppear
      have hc := (hs.callbacks c hs.valid).of_static hprepare
      obtain ⟨o, ho⟩ := Pm.Ui.app_leave hc mem.disAppear
        (by rw [hoptions]; exact hnone _)
      have hleave : (s.ui.prepare id.toNat (some initOptions)).SameStatic u :=
        Pm.Ui.sameStatic_leave _ _ _ _ _ _
      have hstart : Pm.startedAxis (u.pages id.toNat).options.animation mem.appear = none := by
        rw [Pm.Ui.options_leave, hoptions]
        exact hnone _
      show AppShows (some id) ((u.hook .onLoad id.toNat).openAppear id.toNat mem.appear).app
      rw [Pm.Ui.app_openAppear (hid'.of_static hleave) hstart, ho]
      exact (hshows.unLoad _ _ _).onLoad hid _ _

/-- An open of the other page without animation. -/
theorem AppPm.switch {cur : Option UInt8} {s : State AppState} (hs : AppPm cur s) {id : UInt8}
    (hid : id = 0 ∨ id = 1) (hne : cur ≠ some id) (mem : Mem) :
    ∃ t, s.lvPmOpenPage id (some initOptions) mem = .ok (0, t) ∧ AppPm (some id) t := by
  have hslot : s.slot id = some id.toNat := by rw [hs.slot, if_pos hid]
  have hlen : s.stack.length ≠ lvPmPageNum := by
    rw [hs.stack]
    cases cur with
    | none => decide
    | some c => exact (by decide : 1 ≠ lvPmPageNum)
  obtain ⟨t, ht, hopen⟩ := State.lvPmOpenPage_ok hs.ready.wf hslot
    (State.length_stack hs.ready.wf ▸ hlen) (some initOptions) mem (hs.ready.loads _ _ hslot)
  have hto : Pm.StepTo s (.openPage ⟨id, State.lt_of_slot hslot⟩ (some initOptions) mem) t :=
    .opened hslot hlen hopen
  obtain ⟨hrouter, hstatic⟩ := hto.static
  have hmoved : s.ui.Moved ⟨s.topPage, id.toNat, false, initOptions, mem⟩ t.ui := by
    rw [hopen.ui]
    exact .opened _ _ (some initOptions) _
  have hnone : ∀ malloc, Pm.startedAxis initOptions.animation malloc = none := by decide
  refine ⟨t, ht, hto.ready hs.ready, ?_, ?_, ?_, ?_, ?_, ?_⟩
  · rw [hopen.stack, hs.stack]
    cases cur <;> rfl
  · rw [State.slot_congr hrouter]
    exact hs.slot
  · exact fun x hx => (hs.callbacks x hx).of_static hstatic
  · rw [Pm.Ui.running_eq_zero_iff]
    intro key
    rw [hmoved.lookup]
    simp [Pm.Move.appearing, Pm.Move.leaving, hnone, Pm.Ui.running_eq_zero_iff.mp hs.quiet key]
  · intro x hx
    rw [hmoved.hidden, hs.hidden x hx, hs.topPage]
    by_cases hxid : x = id
    · simp [hxid]
    · have hpage : x.toNat ≠ id.toNat := fun h => hxid (UInt8.toNat_inj.mp h)
      have hne' : some id ≠ some x := fun h => hxid (Option.some.inj h).symm
      rw [if_neg hpage, decide_eq_true hne']
      by_cases hcur : cur = some x
      · -- the page left is hidden by its callback, which runs at once
        have hhides : Pm.Ui.hides .disAppear initOptions = true := rfl
        simp [hcur, Pm.Move.leaving, Pm.Move.disAppearCb, hnone, hhides]
      · simp [hcur]
  · rw [hopen.ui]
    exact hs.app_openUi hid mem

/-- A step of LVGL changes nothing but the coordinates of the last layout. -/
theorem AppPm.lvgl {cur : Option UInt8} {s : State AppState} (hs : AppPm cur s) (a : UiAction) :
    AppPm cur { s with ui := s.ui.step a } := by
  have hquiet : ∀ key, s.ui.anims.lookup key = none := Pm.Ui.running_eq_zero_iff.mp hs.quiet
  cases a with
  | ready key =>
      rw [Pm.Ui.step, Pm.Ui.animReady_of_none (hquiet key)]
      exact hs
  | progress key v =>
      have hstep : s.ui.step (.progress key v) = s.ui := by
        rw [Pm.Ui.step, Pm.Ui.animProgress, hquiet key]
      rw [hstep]
      exact hs
  | layout p =>
      have hstatic := Pm.Ui.sameStatic_step s.ui (.layout p)
      have hto : Pm.StepTo s (.lvgl (.layout p)) { s with ui := s.ui.step (.layout p) } := .lvgl
      refine ⟨hto.ready hs.ready, hs.stack, hs.slot,
        fun id hid => (hs.callbacks id hid).of_static hstatic, hs.quiet, fun id hid => ?_, hs.app⟩
      rw [← hs.hidden id hid]
      have hlayout : ((s.ui.layout p).obj id.toNat).hidden = (s.ui.obj id.toNat).hidden :=
        Pm.Ui.proj_modObj LvObj.hidden s.ui p id.toNat fun _ => rfl
      exact hlayout

/-- The router and the callbacks after the creation of the two pages. -/
theorem appSetup_pages {disp : Display} {s : State AppState} (hs : (appSetup disp).Starts s) :
    (∀ id, s.slot id = if id = 0 ∨ id = 1 then some id.toNat else none) ∧
      (∀ id, id = 0 ∨ id = 1 → s.ui.OnlyLoads id.toNat (pageOnLoad id) (pageUnLoad id)) ∧
      s.ui.app = zeroApp := by
  rw [Pm.Setup.Starts, Pm.start] at hs
  simp only [appSetup, appPages, Pm.createPages_cons] at hs
  cases hs
  have hpage1 : (Pm.PageId.ofNat 0).id = 0 := rfl
  have hpage2 : (Pm.PageId.ofNat 1).id = 1 := rfl
  refine ⟨fun id => ?_, ?_, rfl⟩
  · simp only [Pm.slot_created, Pm.slot_init, hpage1, hpage2]
    by_cases h₁ : id = 1
    · simp [h₁, State.created, State.lvPmInit, Pm.boot]
    · by_cases h₀ : id = 0
      · simp [h₀, State.lvPmInit, Pm.boot]
      · simp [h₀, h₁]
  · rintro id (rfl | rfl) <;> simp only [Pm.Ui.OnlyLoads, Pm.lifecycles_created] <;> rfl

theorem appSetup_none {disp : Display} {s : State AppState} (hs : (appSetup disp).Starts s) :
    AppPm none s := by
  have hstarted := hs.started
  obtain ⟨hslot, hcallbacks, happ⟩ := appSetup_pages hs
  refine ⟨hstarted.ready, hstarted.stack, hslot, hcallbacks, hstarted.running, fun id hid => ?_, ?_⟩
  · rw [Pm.Ui.obj, hstarted.page id id.toNat (by rw [hslot, if_pos hid])]
    rfl
  · rw [happ]
    exact zeroApp_shows

/-! ### The steps of the application -/

/-- The application between two steps: a page is shown, and the options are those it started with. -/
structure AppRun (sh : Shell) : Prop where
  pm : ∃ cur, AppPm (some cur) sh.pm
  options : sh.options = initOptions

/-- A call of the page manager by a request that passed its checks, or by a button, switches to the
other page or changes nothing. -/
theorem AppPm.perform {cur : UInt8} {s t : State AppState} (hs : AppPm (some cur) s) {call : PmCall}
    (hlt : ∀ id, call = .openPage id → id.toNat < lvPmPageNum ∧ id ≠ cur) {mem : Mem}
    (h : call.perform initOptions mem s = .ok t) : ∃ c, AppPm (some c) t := by
  cases call with
  | back =>
      have hshort : s.stack.length < 2 := by
        rw [hs.stack]
        exact Nat.one_lt_two
      have hback : s.lvPmBack mem = .ok t := h
      rw [State.lvPmBack_short hs.ready.wf hshort] at hback
      cases hback
      exact ⟨cur, hs⟩
  | openPage id =>
      obtain ⟨ret, hopen⟩ := PmCall.perform_openPage h
      obtain ⟨hid, hne⟩ := hlt id rfl
      by_cases hpage : id = 0 ∨ id = 1
      · obtain ⟨u, hu, hnext⟩ := hs.switch hpage (fun h => hne (Option.some.inj h).symm) mem
        rw [hu] at hopen
        cases hopen
        exact ⟨id, hnext⟩
      · -- no page has been created under the id
        rw [State.lvPmOpenPage_null hid (by rw [hs.slot, if_neg hpage])] at hopen
        cases hopen
        exact ⟨cur, hs⟩

theorem AppRun.start (disp : Display) : ∃ sh, lvAppStart disp = .ok sh ∧ AppRun sh := by
  obtain ⟨s, ret, t, hs, hopen, happ, -⟩ := lvAppStart_eq disp
  obtain ⟨u, hu, hpm⟩ := (appSetup_none hs).switch (Or.inl rfl) (by simp) ⟨true, true⟩
  rw [hu] at hopen
  cases hopen
  exact ⟨_, happ, ⟨⟨0, hpm⟩, rfl⟩⟩

/-- A live button with a callback lies on the page shown, and the callback opens the other page. -/
theorem AppShows.target_ne {cur : UInt8} {app : AppState} (h : AppShows (some cur) app) {obj : Nat}
    {b : Btn} (hlive : app.widgets.live.lookup obj = some b) {cb : EventCb}
    (hcb : b.eventCb = some cb) : cb.target ≠ cur := by
  obtain ⟨l₁, l₂, hl, -⟩ := List.lookup_eq_some_iff.mp hlive
  have hmem : (obj, b) ∈ app.widgets.live := by
    rw [hl]
    exact List.mem_append_right _ List.mem_cons_self
  cases h with
  | page1 size h₁ h₂ =>
      rw [h₁.live] at hmem
      obtain ⟨i, -, hi⟩ := List.mem_map.mp hmem
      cases hi
      have hfirst : cb = .p1Btn1EventCb := by
        by_cases hzero : i = 0 <;> simp [p1Button, hzero] at hcb
        exact hcb.symm
      rw [hfirst]
      decide
  | page2 size h₁ h₂ =>
      rw [h₂.live] at hmem
      obtain ⟨i, -, hi⟩ := List.mem_map.mp hmem
      cases hi
      have hfirst : cb = .p2Btn1EventCb := by
        by_cases hzero : i = 0 <;> simp [p2Button, hzero] at hcb
        exact hcb.symm
      rw [hfirst]
      decide

theorem AppRun.step {sh t : Shell} (hs : AppRun sh) {a : ShellAction} (h : ShellTo sh a t) :
    AppRun t := by
  obtain ⟨⟨cur, hpm⟩, hoptions⟩ := hs
  cases h with
  | command command alloc async =>
      unfold Shell.cmd
      split <;> exact ⟨⟨cur, hpm⟩, hoptions⟩
  | usage => exact ⟨⟨cur, hpm⟩, hoptions⟩
  | foreign n => exact ⟨⟨cur, hpm⟩, hoptions⟩
  | noRequest _ => exact ⟨⟨cur, hpm⟩, hoptions⟩
  | noClick => exact ⟨⟨cur, hpm⟩, hoptions⟩
  | lvgl a => exact ⟨⟨cur, hpm.lvgl a⟩, hoptions⟩
  | clicked hlive hcb hopen =>
      have htarget : ({ sh.options with target := .new } : LvPmOpenOptions) = initOptions := by
        rw [hoptions]
        rfl
      rw [htarget] at hopen
      refine ⟨hpm.perform (fun id hid => ?_) hopen, htarget⟩
      cases hid
      exact ⟨EventCb.target_lt _, hpm.app.target_ne hlive hcb⟩
  | @executed k mem q t hq hran =>
      cases hran with
      | refused text h => exact ⟨⟨cur, hpm⟩, hoptions⟩
      | called text h hcall =>
          have hcall' : q.req.call.perform initOptions mem sh.pm = _ := hoptions ▸ hcall
          refine ⟨hpm.perform (fun id hid => ⟨h.id_lt id hid, fun hcur => ?_⟩) hcall', hoptions⟩
          -- the request was checked against the page on top
          have htop : sh.pm.top = some cur := by
            rw [State.top, hpm.stack]
            rfl
          exact h.not_top hid (hcur ▸ htop)

/-- One page is in the history and shown, it has all its buttons, and the other page has none. -/
structure AppOk (sh : Shell) : Prop where
  pages : ∀ id, sh.pm.slot id = if id = 0 ∨ id = 1 then some id.toNat else none
  shown : ∃ cur, (cur = 0 ∨ cur = 1) ∧ sh.pm.stack = [cur] ∧
    (∀ id p, sh.pm.slot id = some p → ((sh.pm.ui.obj p).hidden = false ↔ id = cur)) ∧
    (if cur = 0 then
      OwnsAll 0 sh.pm.ui.app.p1 sh.pm.ui.app.widgets ∧
        OwnsNone 1 sh.pm.ui.app.p2 sh.pm.ui.app.widgets
    else
      OwnsAll 1 sh.pm.ui.app.p2 sh.pm.ui.app.widgets ∧
        OwnsNone 0 sh.pm.ui.app.p1 sh.pm.ui.app.widgets)
  once : sh.pm.ui.app.widgets.deleted.Nodup

theorem AppShows.owns {cur : UInt8} {app : AppState} (h : AppShows (some cur) app) :
    (if cur = 0 then OwnsAll 0 app.p1 app.widgets ∧ OwnsNone 1 app.p2 app.widgets
      else OwnsAll 1 app.p2 app.widgets ∧ OwnsNone 0 app.p1 app.widgets) ∧
      app.widgets.deleted.Nodup := by
  cases h with
  | page1 size h₁ h₂ =>
      have hpage : ∀ i, (p1Button 0 size i).page = 0 := fun _ => rfl
      exact ⟨⟨h₁.ownsAll hpage, h₂.ownsNone h₁ hpage (by decide)⟩, h₁.once⟩
  | page2 size h₁ h₂ =>
      have hpage : ∀ i, (p2Button 1 size i).page = 1 := fun _ => rfl
      exact ⟨⟨h₂.ownsAll hpage, h₁.ownsNone h₂ hpage (by decide)⟩, h₂.once⟩

theorem AppRun.ok {sh : Shell} (h : AppRun sh) : AppOk sh := by
  obtain ⟨⟨cur, hpm⟩, -⟩ := h
  have hpages : (if cur = 0 then _ else _) ∧ sh.pm.ui.app.widgets.deleted.Nodup := hpm.app.owns
  refine ⟨hpm.slot, ⟨cur, hpm.valid, hpm.stack, fun id p hp => ?_, hpages.1⟩, hpages.2⟩
  rw [hpm.slot] at hp
  split at hp
  · cases hp
    rw [hpm.hidden id ‹_›, decide_eq_false_iff_not, not_not, Option.some.injEq]
    exact eq_comm
  · cases hp

/-- The application starts, and every sequence of commands, requests executed, clicks and steps of
LVGL runs without a fault and keeps the invariant. -/
theorem app_invariant (disp : Display) (w : List ShellAction) :
    ∃ sh₀ sh, lvAppStart disp = .ok sh₀ ∧ Run.run shellStep sh₀ w = .ok sh ∧ AppOk sh := by
  obtain ⟨sh₀, hstart, hs₀⟩ := AppRun.start disp
  have hstep : ∀ s a, AppRun s → ∃ t, shellStep s a = .ok t ∧ AppRun t := by
    intro s a hs
    obtain ⟨cur, hpm⟩ := hs.pm
    obtain ⟨t, ht, hto, -⟩ := shellStep_total hpm.ready a
    exact ⟨t, ht, hs.step hto⟩
  obtain ⟨sh, hrun, hsh⟩ := Run.run_total hstep hs₀ w
  exact ⟨sh₀, sh, hstart, hrun, hsh.ok⟩

end App

end SwmLvgl
