import SwmLvgl.AppShell

/-! What the steps of the application do: a request is refused or calls the page manager, and a click
on a live button opens the page its callback names. -/

namespace SwmLvgl.App

open Pm (Display Fault LvPmOpenOptions Mem PageId State UiAction lvPmPageNum)

/-- The page that a button callback opens. -/
def EventCb.target : EventCb → UInt8
  | .p1Btn1EventCb => 1
  | .p2Btn1EventCb => 0

/-- The call itself, with the options the application passes. -/
def PmCall.perform (call : PmCall) (options : LvPmOpenOptions) (mem : Mem) (s : State AppState) :
    Except Fault (State AppState) :=
  match call with
  | .openPage id => (s.lvPmOpenPage id (some options) mem).map Prod.snd
  | .back => s.lvPmBack mem

namespace Shell

/-- The checks of `_pm_async_cb`. -/
def Allows (sh : Shell) (req : PmAsyncReq) : Prop :=
  match req.type with
  | .open => req.id.toNat < lvPmPageNum ∧ sh.pm.top ≠ some req.id ∧ sh.lvAnimCountRunning = 0
  | .back => 2 ≤ sh.pm.stack.length ∧ sh.lvAnimCountRunning = 0

end Shell

/-- The call of a request that passes the checks. -/
def PmAsyncReq.call (req : PmAsyncReq) : PmCall :=
  match req.type with
  | .open => .openPage req.id
  | .back => .back

/-- The outcomes of `_pm_async_cb` before the request is freed. -/
inductive Ran (sh : Shell) (req : PmAsyncReq) (mem : Mem) : Shell → Prop where
  | refused (text : String) (h : ¬sh.Allows req) : Ran sh req mem (sh.rtKprintf text)
  | called {pm : State AppState} (text : String) (h : sh.Allows req)
      (hcall : req.call.perform sh.options mem sh.pm = .ok pm) :
      Ran sh req mem ({ sh with pm := pm, calls := sh.calls ++ [req.call] }.rtKprintf text)

/-- The outcomes of a step. -/
inductive ShellTo (sh : Shell) : ShellAction → Shell → Prop where
  | command (command : Command) (alloc async : Bool) :
      ShellTo sh (.command command alloc async) (sh.cmd command alloc async)
  | usage : ShellTo sh .usage (sh.rtKprintf "Usage: pm_open <id>\n")
  | noRequest {k : Nat} {mem : Mem} (h : sh.queue[k]? = none) : ShellTo sh (.execute k mem) sh
  | executed {k : Nat} {mem : Mem} {q : Queued} {t : Shell} (h : sh.queue[k]? = some q)
      (hran : Ran { sh with queue := sh.queue.eraseIdx k } q.req mem t) :
      ShellTo sh (.execute k mem)
        { t with executed := t.executed ++ [q.block], freed := t.freed ++ [q.block] }
  | noClick {obj : Nat} {mem : Mem} : ShellTo sh (.click obj mem) sh
  | clicked {obj : Nat} {mem : Mem} {b : Btn} {cb : EventCb} {pm : State AppState}
      (hlive : sh.pm.ui.app.widgets.live.lookup obj = some b) (hcb : b.eventCb = some cb)
      (hopen : (PmCall.openPage cb.target).perform { sh.options with target := .new } mem sh.pm =
        .ok pm) :
      ShellTo sh (.click obj mem)
        { sh with pm := pm, options := { sh.options with target := .new } }
  | lvgl (a : UiAction) :
      ShellTo sh (.lvgl a) { sh with pm := { sh.pm with ui := sh.pm.ui.step a } }
  | foreign (n : Nat) : ShellTo sh (.foreign n) { sh with foreign := n }

namespace Shell

theorem onTop_eq {sh : Shell} (hs : sh.pm.Wf) (id : UInt8) :
    sh.onTop id = .ok (decide (sh.pm.top = some id)) := by
  unfold onTop
  by_cases hpos : 0 < sh.pm.lvPmHistoryLen.toNat
  · obtain ⟨n, hn⟩ : ∃ n, sh.pm.lvPmHistoryLen.toNat = n + 1 :=
      ⟨_, (Nat.succ_pred_eq_of_pos hpos).symm⟩
    have hlt : n < lvPmPageNum := by
      have := hs.len_le
      omega
    have hcast : ((sh.pm.lvPmHistoryLen.toNat : Int) - 1) = (n : Int) := by omega
    rw [if_pos (Pm.pos_iff.mpr hpos), hcast, State.history_of_lt _ hlt, State.top_of_len hn hlt]
    simp only [Except.map, Option.some.injEq]
  · have hempty : sh.pm.top = none := by
      rw [State.top, (State.stack_eq_nil_iff hs).mpr (Nat.eq_zero_of_not_pos hpos)]
      rfl
    rw [if_neg fun h => hpos (Pm.pos_iff.mp h), hempty]
    rfl

end Shell

theorem EventCb.target_lt (cb : EventCb) : cb.target.toNat < lvPmPageNum := by
  cases cb <;> decide

namespace PmCall

/-- The call of a request is the operation, whose result is only printed. -/
theorem perform_openPage {id : UInt8} {options : LvPmOpenOptions} {mem : Mem} {s t : State AppState}
    (h : (openPage id).perform options mem s = .ok t) :
    ∃ ret, s.lvPmOpenPage id (some options) mem = .ok (ret, t) := by
  rw [perform] at h
  cases hopen : s.lvPmOpenPage id (some options) mem with
  | error e =>
      rw [hopen] at h
      cases h
  | ok r =>
      rw [hopen] at h
      cases h
      exact ⟨r.1, rfl⟩

/-- A call from a ready state does what a step of a run of the page manager does. -/
theorem perform_total {s : State AppState} (hs : s.Ready) (call : PmCall)
    (hcall : ∀ id, call = .openPage id → id.toNat < lvPmPageNum) (options : LvPmOpenOptions)
    (mem : Mem) : ∃ t, call.perform options mem s = .ok t ∧ t.Ready := by
  cases call with
  | openPage id =>
      obtain ⟨t, ht, hto⟩ := Pm.step_total hs (.openPage ⟨id, hcall id rfl⟩ (some options) mem)
      exact ⟨t, ht, hto.ready hs⟩
  | back =>
      obtain ⟨t, ht, hto⟩ := Pm.step_total hs (.back mem)
      exact ⟨t, ht, hto.ready hs⟩

end PmCall

theorem Shell.Allows.id_lt {sh : Shell} {req : PmAsyncReq} (h : sh.Allows req) (id : UInt8)
    (hid : req.call = .openPage id) : id.toNat < lvPmPageNum := by
  obtain ⟨type, x⟩ := req
  cases type with
  | «open» =>
      cases hid
      exact h.1
  | back => cases hid

theorem Shell.Allows.not_top {sh : Shell} {req : PmAsyncReq} (h : sh.Allows req) {id : UInt8}
    (hid : req.call = .openPage id) : sh.pm.top ≠ some id := by
  obtain ⟨type, x⟩ := req
  cases type with
  | «open» =>
      cases hid
      exact h.2.1
  | back => cases hid

namespace Shell

theorem count_eq_zero {sh : Shell} : ¬sh.lvAnimCountRunning > 0 ↔ sh.lvAnimCountRunning = 0 := by
  rw [gt_iff_lt, UInt16.not_lt, UInt16.le_zero_iff]

theorem pmAsyncBody_open {sh : Shell} (hs : sh.pm.Ready) (id : UInt8) (mem : Mem) :
    ∃ t, sh.pmAsyncBody ⟨.open, id⟩ mem = .ok t ∧ Ran sh ⟨.open, id⟩ mem t := by
  by_cases hid : id.toNat ≥ lvPmPageNum
  · refine ⟨_, ?_, .refused ("invalid id " ++ toString id.toNat ++ "\n") fun h => ?_⟩
    · simp only [pmAsyncBody, if_pos hid]
      rfl
    · exact absurd h.1 (not_lt.mpr hid)
  by_cases htop : sh.pm.top = some id
  · refine ⟨_, ?_, .refused ("already on page " ++ toString id.toNat ++ "\n") fun h => h.2.1 htop⟩
    simp only [pmAsyncBody, if_neg hid, onTop_eq hs.wf, htop, bind, Except.bind]
    rfl
  by_cases hcount : sh.lvAnimCountRunning > 0
  · refine ⟨_, ?_, .refused "pm_open busy (animation running)\n" fun h =>
      count_eq_zero.mpr h.2.2 hcount⟩
    simp only [pmAsyncBody, if_neg hid, onTop_eq hs.wf, htop, hcount, bind, Except.bind]
    rfl
  have hallows : sh.Allows ⟨.open, id⟩ := ⟨not_le.mp hid, htop, count_eq_zero.mp hcount⟩
  obtain ⟨pm, hpm, -⟩ := PmCall.perform_total hs _ hallows.id_lt sh.options mem
  obtain ⟨ret, hopen⟩ := PmCall.perform_openPage hpm
  refine ⟨_, ?_, .called
    ("pm_open " ++ toString id.toNat ++ " ret=" ++ toString ret.toNat ++ "\n") hallows hpm⟩
  simp only [pmAsyncBody, if_neg hid, onTop_eq hs.wf, htop, hcount, hopen, bind, Except.bind]
  rfl

theorem pmAsyncBody_back {sh : Shell} (hs : sh.pm.Ready) (id : UInt8) (mem : Mem) :
    ∃ t, sh.pmAsyncBody ⟨.back, id⟩ mem = .ok t ∧ Ran sh ⟨.back, id⟩ mem t := by
  have hlt : sh.pm.lvPmHistoryLen < 2 ↔ sh.pm.stack.length < 2 := by
    rw [State.length_stack hs.wf]
    exact UInt8.lt_iff_toNat_lt
  by_cases hlen : sh.pm.lvPmHistoryLen < 2
  · refine ⟨_, ?_, .refused "no previous page\n" fun h => ?_⟩
    · simp only [pmAsyncBody, if_pos hlen]
      rfl
    · exact absurd (hlt.mp hlen) (not_lt.mpr h.1)
  by_cases hcount : sh.lvAnimCountRunning > 0
  · refine ⟨_, ?_, .refused "pm_back busy (animation running)\n" fun h =>
      count_eq_zero.mpr h.2 hcount⟩
    simp only [pmAsyncBody, if_neg hlen, if_pos hcount]
    rfl
  have hallows : sh.Allows ⟨.back, id⟩ :=
    ⟨not_lt.mp fun h => hlen (hlt.mpr h), count_eq_zero.mp hcount⟩
  obtain ⟨pm, hpm, -⟩ := PmCall.perform_total hs _ hallows.id_lt sh.options mem
  have hback : sh.pm.lvPmBack mem = .ok pm := hpm
  refine ⟨_, ?_, .called "pm_back ret=0\n" hallows hpm⟩
  simp only [pmAsyncBody, if_neg hlen, if_neg hcount, hback, bind, Except.bind]
  rfl

/-- A request is refused, or passes the checks and makes its call. -/
theorem pmAsyncBody_ran {sh : Shell} (hs : sh.pm.Ready) (req : PmAsyncReq) (mem : Mem) :
    ∃ t, sh.pmAsyncBody req mem = .ok t ∧ Ran sh req mem t := by
  obtain ⟨type, id⟩ := req
  cases type with
  | «open» => exact pmAsyncBody_open hs id mem
  | back => exact pmAsyncBody_back hs id mem

theorem btnEventCb_ok {sh : Shell} (hs : sh.pm.Ready) {id : UInt8} (hid : id.toNat < lvPmPageNum)
    (mem : Mem) :
    ∃ pm, (PmCall.openPage id).perform { sh.options with target := .new } mem sh.pm = .ok pm ∧
      pm.Ready ∧
      sh.btnEventCb id mem =
        .ok { sh with pm := pm, options := { sh.options with target := .new } } := by
  obtain ⟨pm, hpm, hready⟩ := PmCall.perform_total hs (.openPage id)
    (fun x hx => by cases hx; exact hid) { sh.options with target := .new } mem
  obtain ⟨ret, hopen⟩ := PmCall.perform_openPage hpm
  refine ⟨pm, hpm, hready, ?_⟩
  simp only [btnEventCb, hopen, bind, Except.bind]
  rfl

end Shell

theorem Ran.ready {sh t : Shell} {req : PmAsyncReq} {mem : Mem} (hs : sh.pm.Ready)
    (h : Ran sh req mem t) : t.pm.Ready := by
  cases h with
  | refused text h => exact hs
  | called text h hcall =>
      exact Run.of_exists_ok (PmCall.perform_total hs _ h.id_lt sh.options mem) hcall

/-- A step of the application from a ready state succeeds, in one of the listed ways, and leaves the
page manager ready. -/
theorem shellStep_total {sh : Shell} (hs : sh.pm.Ready) (a : ShellAction) :
    ∃ t, shellStep sh a = .ok t ∧ ShellTo sh a t ∧ t.pm.Ready := by
  cases a with
  | command command alloc async =>
      refine ⟨_, rfl, .command command alloc async, ?_⟩
      unfold Shell.cmd
      split <;> exact hs
  | usage => exact ⟨_, rfl, .usage, hs⟩
  | foreign n => exact ⟨_, rfl, .foreign n, hs⟩
  | lvgl a => exact ⟨_, rfl, .lvgl a, Pm.StepTo.ready hs (.lvgl : Pm.StepTo sh.pm (.lvgl a) _)⟩
  | execute k mem =>
      cases hq : sh.queue[k]? with
      | none => exact ⟨sh, by rw [shellStep, hq], .noRequest hq, hs⟩
      | some q =>
          have hs' : ({ sh with queue := sh.queue.eraseIdx k } : Shell).pm.Ready := hs
          obtain ⟨t, ht, hran⟩ := Shell.pmAsyncBody_ran hs' q.req mem
          have hready : t.pm.Ready := hran.ready hs'
          refine ⟨_, ?_, .executed hq hran, hready⟩
          rw [shellStep, hq]
          simp only [Shell.pmAsyncCb, ht, bind, Except.bind]
          rfl
  | click obj mem =>
      rw [shellStep, Shell.click]
      cases hlive : sh.pm.ui.app.widgets.live.lookup obj with
      | none => exact ⟨sh, rfl, .noClick, hs⟩
      | some b =>
          by_cases hhidden : (sh.pm.ui.pages b.page).page.hidden
          · exact ⟨sh, by simp only [hhidden, if_true], .noClick, hs⟩
          cases hcb : b.eventCb with
          | none => exact ⟨sh, by simp only [hhidden, hcb]; rfl, .noClick, hs⟩
          | some cb =>
              obtain ⟨pm, hpm, hready, hrun⟩ := Shell.btnEventCb_ok hs cb.target_lt mem
              refine ⟨_, ?_, .clicked hlive hcb hpm, hready⟩
              simp only [hhidden, hcb]
              cases cb <;> exact hrun

/-- The pages of the application. -/
def appSetup (disp : Display) : Pm.Setup AppState where
  disp := disp
  app := zeroApp
  pages := appPages
  onLoad e he := by
    simp only [appPages, List.mem_cons, List.not_mem_nil, or_false] at he
    rcases he with rfl | rfl <;> rfl

/-- `lv_app_start` creates the pages and opens the first. -/
theorem lvAppStart_eq (disp : Display) :
    ∃ s ret t, (appSetup disp).Starts s ∧
      s.lvPmOpenPage 0 (some initOptions) ⟨true, true⟩ = .ok (ret, t) ∧
      lvAppStart disp = .ok ⟨t, initOptions, [], 0, 0, [], [], [], []⟩ ∧ t.Ready := by
  obtain ⟨s, hs, hstarted⟩ := (appSetup disp).exists_starts
  obtain ⟨t, ht, hready⟩ := PmCall.perform_total hstarted.ready (.openPage 0)
    (fun id hid => by cases hid; decide) initOptions ⟨true, true⟩
  obtain ⟨ret, hopen⟩ := PmCall.perform_openPage ht
  refine ⟨s, ret, t, hs, hopen, ?_, hready⟩
  have hs' : Pm.start disp zeroApp appPages = .ok s := hs
  rw [lvAppStart, hs']
  simp only [bind, Except.bind, hopen]
  rfl

end SwmLvgl.App
