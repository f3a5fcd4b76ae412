import SwmLvgl.CArray
import SwmLvgl.PmAnim
import SwmLvgl.RunSteps

/-! The page manager itself (`pm.c`): the history array with its length, the router, and the four
operations. An access outside an array, a null router slot that is followed and a call through a null
`onLoad` are faults. `Action` lists what can happen after the pages are created: an open, a back, or
a step of LVGL. -/

namespace SwmLvgl.Pm

/-- `LV_PM_PAGE_NUM` -/
def lvPmPageNum : Nat := 10

/-- An id below `LV_PM_PAGE_NUM`. -/
structure PageId where
  id : UInt8
  lt : id.toNat < lvPmPageNum
  deriving DecidableEq

/-- The page `n`, modulo the number of pages. -/
def PageId.ofNat (n : Nat) : PageId where
  id := UInt8.ofNat (n % lvPmPageNum)
  lt := by
    rw [UInt8.toNat_ofNat', lvPmPageNum]
    omega

inductive Fault where
  | historyBounds (i : Int)
  | routerBounds (id : UInt8)
  | nullRouter (id : UInt8)
  | nullOnLoad (p : Addr)
  deriving DecidableEq, Repr

/-- Whether the two allocations of a page transition succeed. -/
structure Mem where
  disAppear : Bool
  appear : Bool
  deriving DecidableEq, Repr

/-- Whether `lv_anim_start` finds memory for the two animations of a page transition. -/
structure AnimNodes where
  disAppear : Bool
  appear : Bool
  deriving DecidableEq, Repr

/-- Memory for both. -/
abbrev AnimNodes.all : AnimNodes := ⟨true, true⟩

/-- The globals of `pm.c`, the next free page address, and what LVGL and the heap hold. -/
structure State (ω : Type) where
  lvPmHistoryLen : UInt8
  lvPmHistory : Vector UInt8 lvPmPageNum
  lvPmRouter : Vector (Option Addr) lvPmPageNum
  heap : Addr
  ui : Ui ω

variable {ω : Type}

namespace Ui

/-- A page `q` is sent away with the options stored in page `p`: its `_back` is set, `willDisappear`
is called and `_pm_anima_disAppear` runs. -/
def leave (q p : Addr) (back : Bool) (cb : CompleteCb) (malloc : Bool) (u : Ui ω)
    (node : Bool := true) : Ui ω :=
  let u := u.setBack q back
  let u := u.hook .willDisappear q
  u.pmAnimaDisAppear q (u.pages p).options cb malloc node

/-- `lv_pm_open_page` stores the options it is given, if any, and clears `_back`. -/
def prepare (p : Addr) (behavior : Option LvPmOpenOptions) (u : Ui ω) : Ui ω :=
  let u :=
    match behavior with
    | some b => u.setOptions p b
    | none => u
  u.setBack p false

/-- The page opened is shown, once its `onLoad` has run. -/
def openAppear (p : Addr) (malloc : Bool) (u : Ui ω) (node : Bool := true) : Ui ω :=
  let u := u.clearHidden p
  let u := u.hook .willAppear p
  u.pmAnimaAppear p (u.pages p).options .appear malloc node

/-- The page `q` that `lv_pm_back` returns to is shown, with the options of the page `p` it leaves;
`onLoad` is not called. -/
def backAppear (q p : Addr) (malloc : Bool) (u : Ui ω) (node : Bool := true) : Ui ω :=
  let u := u.setBack q true
  let u := u.hook .willAppear q
  let u := u.clearHidden q
  u.pmAnimaAppear q (u.pages p).options .backAppear malloc node

end Ui

namespace State

/-- `lv_pm_history[i]` -/
def history (s : State ω) (i : Int) : Except Fault UInt8 :=
  match CArray.get s.lvPmHistory i with
  | some id => .ok id
  | none => .error (.historyBounds i)

/-- `lv_pm_history[i] = id` -/
def setHistory (s : State ω) (i : Int) (id : UInt8) : Except Fault (State ω) :=
  match CArray.set s.lvPmHistory i id with
  | some a => .ok { s with lvPmHistory := a }
  | none => .error (.historyBounds i)

/-- `lv_pm_router[id]` -/
def router (s : State ω) (id : UInt8) : Except Fault (Option Addr) :=
  match CArray.get s.lvPmRouter id.toNat with
  | some slot => .ok slot
  | none => .error (.routerBounds id)

/-- `lv_pm_router[id]` where the pointer is followed. -/
def page (s : State ω) (id : UInt8) : Except Fault Addr := do
  match ← s.router id with
  | some p => return p
  | none => throw (.nullRouter id)

/-- `lv_pm_init` -/
def lvPmInit (s : State ω) : State ω :=
  { s with lvPmHistoryLen := 0, lvPmRouter := Vector.replicate lvPmPageNum none }

/-- `lv_obj_create(lv_scr_act())` followed by the settings of `lv_pm_create_page`. -/
def createObj (disp : Display) : LvObj :=
  let page : LvObj := ⟨false, 0, 0, 0, 0, 0, 0, 0⟩
  -- pm_reset_style
  let page := { page with radius := 0 }
  let page := { page with hidden := true }
  let width := disp.horRes
  let height := disp.verRes
  { page with width := width, height := height }

/-- `lv_pm_create_page`, and the application storing its callbacks in the page returned. -/
def lvPmCreatePage (id : UInt8) (lifecycle : Lifecycle ω) (malloc : Bool) (s : State ω) :
    Except Fault (Option Addr × State ω) :=
  if malloc = false then .ok (none, s)
  else
    match CArray.set s.lvPmRouter id.toNat (some s.heap) with
    | none => .error (.routerBounds id)
    | some router =>
        let pmPage : LvPmPage ω := ⟨createObj s.ui.disp, lifecycle, default, false⟩
        .ok (some s.heap,
          { s with
            lvPmRouter := router
            heap := s.heap + 1
            ui := { s.ui with pages := Function.update s.ui.pages s.heap pmPage } })

/-- `pm_page->onLoad(page)`, called without a null test. -/
def onLoad (p : Addr) (s : State ω) : Except Fault (State ω) :=
  if (s.ui.pages p).lifecycle.onLoad.isNone then .error (.nullOnLoad p)
  else .ok { s with ui := s.ui.hook .onLoad p }

/-- `if (!replace_top) lv_pm_history[lv_pm_history_len] = id;` -/
def openWrite (id : UInt8) (replaceTop : Bool) (s : State ω) : Except Fault (State ω) :=
  if replaceTop then .ok s else s.setHistory s.lvPmHistoryLen.toNat id

/-- The part of `lv_pm_open_page` under `if (lv_pm_history_len > 0)`. -/
def openLeave (pmPage : Addr) (malloc : Bool) (s : State ω) (node : Bool := true) :
    Except Fault (State ω) :=
  if s.lvPmHistoryLen > 0 then do
    let pid ← s.history (s.lvPmHistoryLen.toNat - 1)
    let prevPmPage ← s.page pid
    return { s with ui := s.ui.leave prevPmPage pmPage false .disAppear malloc node }
  else .ok s

/-- The last part of `lv_pm_open_page`, which enters the page into the history. -/
def openEnter (id : UInt8) (behavior : Option LvPmOpenOptions) (replaceTop : Bool) (s : State ω) :
    Except Fault (State ω) :=
  if replaceTop then s.setHistory (s.lvPmHistoryLen.toNat - 1) id
  else if behavior.map (·.target) = some .self then
    if s.lvPmHistoryLen = 0 then .ok { s with lvPmHistoryLen := s.lvPmHistoryLen + 1 }
    else do
      let x ← s.history s.lvPmHistoryLen.toNat
      s.setHistory (s.lvPmHistoryLen.toNat - 1) x
  else .ok { s with lvPmHistoryLen := s.lvPmHistoryLen + 1 }

/-- `lv_pm_open_page`, with the code it returns. -/
def lvPmOpenPage (id : UInt8) (behavior : Option LvPmOpenOptions) (mem : Mem) (s : State ω)
    (nodes : AnimNodes := .all) : Except Fault (UInt8 × State ω) := do
  match ← s.router id with
  | none => return (4, s)
  | some pmPage =>
      if s.lvPmHistoryLen.toNat = lvPmPageNum then return (5, s)
      else
        -- target NEW replaces the top entry instead of stacking
        let replaceTop : Bool := decide (behavior.map (·.target) = some .new ∧ s.lvPmHistoryLen > 0)
        let s ← s.openWrite id replaceTop
        let s := { s with ui := s.ui.prepare pmPage behavior }
        let s ← s.openLeave pmPage mem.disAppear nodes.disAppear
        let s ← s.onLoad pmPage
        let s := { s with ui := s.ui.openAppear pmPage mem.appear nodes.appear }
        let s ← s.openEnter id behavior replaceTop
        return (0, s)

/-- `lv_pm_back`, which always returns 0. -/
def lvPmBack (mem : Mem) (s : State ω) (nodes : AnimNodes := .all) : Except Fault (State ω) :=
  if s.lvPmHistoryLen < 2 then .ok s
  else do
    let pid ← s.history (s.lvPmHistoryLen.toNat - 1)
    let pmPage ← s.page pid
    let u := s.ui.leave pmPage pmPage true .backDisAppear mem.disAppear nodes.disAppear
    let s := { s with ui := u }
    let s := { s with lvPmHistoryLen := s.lvPmHistoryLen - 1 }
    let prevPid ← s.history (s.lvPmHistoryLen.toNat - 1)
    let prevPmPage ← s.page prevPid
    return { s with ui := s.ui.backAppear prevPmPage pmPage mem.appear nodes.appear }

end State

/-- A step of LVGL: the last or an earlier step of a running page animation, or a layout. -/
inductive UiAction where
  | ready (key : AnimKey)
  | progress (key : AnimKey) (v : Int)
  | layout (p : Addr)
  deriving DecidableEq

inductive Action where
  | openPage (id : PageId) (behavior : Option LvPmOpenOptions) (mem : Mem)
  | back (mem : Mem)
  | lvgl (a : UiAction)
  deriving DecidableEq

def Ui.step (u : Ui ω) : UiAction → Ui ω
  | .ready key => u.animReady key
  | .progress key v => u.animProgress key v
  | .layout p => u.layout p

/-- One step of a run of the page manager in which `lv_anim_start` may run out of memory. -/
def stepNodes (s : State ω) : Action × AnimNodes → Except Fault (State ω)
  | (.openPage id behavior mem, nodes) => (s.lvPmOpenPage id.id behavior mem nodes).map Prod.snd
  | (.back mem, nodes) => s.lvPmBack mem nodes
  | (.lvgl a, _) => .ok { s with ui := s.ui.step a }

/-- One step of a run of the page manager. -/
def step (s : State ω) : Action → Except Fault (State ω)
  | .openPage id behavior mem => (s.lvPmOpenPage id.id behavior mem).map Prod.snd
  | .back mem => s.lvPmBack mem
  | .lvgl a => .ok { s with ui := s.ui.step a }

theorem stepNodes_all (s : State ω) (a : Action) : stepNodes s (a, .all) = step s a := by
  cases a <;> rfl

/-- Before `lv_pm_init`: zeroed globals, no page and no animation. -/
def boot (disp : Display) (app : ω) : State ω where
  lvPmHistoryLen := 0
  lvPmHistory := Vector.replicate lvPmPageNum 0
  lvPmRouter := Vector.replicate lvPmPageNum none
  heap := 0
  ui :=
    { disp := disp
      pages := fun _ => ⟨default, Lifecycle.null ω, default, false⟩
      anims := ∅
      blocks := []
      app := app
      calls := 0
      done := []
      trace := [] }

/-- `lv_pm_create_page` for a list of ids, all allocations succeeding. -/
def createPages : List (PageId × Lifecycle ω) → State ω → Except Fault (State ω)
  | [], s => .ok s
  | (id, lifecycle) :: rest, s => do
      let (_, s) ← s.lvPmCreatePage id.id lifecycle true
      createPages rest s

/-- `lv_pm_init` and then `lv_pm_create_page` for each page. -/
def start (disp : Display) (app : ω) (pages : List (PageId × Lifecycle ω)) : Except Fault (State ω) :=
  createPages pages (boot disp app).lvPmInit

end SwmLvgl.Pm
