import SwmLvgl.AppPages
import SwmLvgl.PmStart

/-! The application around the page manager (`lvgl_app.c`): the start, the console commands, the
requests they queue for the LVGL thread, and the clicks on the first button of each page. Each request
is a heap block that the LVGL thread frees; how many other animations LVGL runs is up to the
environment. -/

namespace SwmLvgl.App

open Pm (Addr Display Fault Lifecycle LvPmOpenOptions Mem PageId State UiAction lvPmPageNum)

/-- The pages of `lv_app_start`, with the callbacks it stores in them. -/
def appPages : List (PageId × Lifecycle AppState) :=
  [(.ofNat 0, ⟨some pagePage1OnLoad, none, none, none, none, some pagePage1UnLoad⟩),
    (.ofNat 1, ⟨some pagePage2OnLoad, none, none, none, none, some pagePage2UnLoad⟩)]

/-- The statics of the pages at program start. -/
def zeroApp : AppState := ⟨⟨0, [], []⟩, PageBtns.zero 40, PageBtns.zero 4⟩

/-- The global `options`. -/
def initOptions : LvPmOpenOptions := ⟨.none, .new, .left⟩

/-- The member `type` of a request: 0 open, 1 back. -/
inductive ReqType where
  | open
  | back
  deriving DecidableEq, Repr

/-- `pm_async_req_t` -/
structure PmAsyncReq where
  type : ReqType
  id : UInt8
  deriving DecidableEq, Repr

/-- A console command: `pm_open` with the integer that `atoi` returns, or `pm_back`. -/
inductive Command where
  | pmOpen (n : Int)
  | pmBack
  deriving DecidableEq, Repr

/-- A call of the page manager by a request. -/
inductive PmCall where
  | openPage (id : UInt8)
  | back
  deriving DecidableEq, Repr

/-- A request in the queue, at the address of its block, with the command it comes from. -/
structure Queued where
  block : Nat
  req : PmAsyncReq
  command : Command
  deriving DecidableEq, Repr

/-- The application while it runs. `foreign` counts the animations other than those of pages; `calls`
lists the calls requests have made, `executed` the blocks of the requests executed and `freed` the
arguments of `lv_mem_free`, in order. -/
structure Shell where
  pm : State AppState
  options : LvPmOpenOptions
  queue : List Queued
  nextBlock : Nat
  foreign : Nat
  console : List String
  calls : List PmCall
  executed : List Nat
  freed : List Nat

namespace Shell

def rtKprintf (text : String) (sh : Shell) : Shell := { sh with console := sh.console ++ [text] }

/-- `lv_anim_count_running` counts in a `uint16_t`. -/
def lvAnimCountRunning (sh : Shell) : UInt16 :=
  UInt16.ofNat (sh.pm.ui.anims.entries.length + sh.foreign)

/-- `lv_pm_history_len > 0 && lv_pm_history[lv_pm_history_len - 1] == id` -/
def onTop (id : UInt8) (sh : Shell) : Except Fault Bool :=
  if sh.pm.lvPmHistoryLen > 0 then
    (sh.pm.history (sh.pm.lvPmHistoryLen.toNat - 1)).map fun top => decide (top = id)
  else .ok false

/-- `_pm_async_cb` before it frees the request. -/
def pmAsyncBody (req : PmAsyncReq) (mem : Mem) (sh : Shell) : Except Fault Shell := do
  match req.type with
  | .open =>
      if req.id.toNat ≥ lvPmPageNum then
        return sh.rtKprintf ("invalid id " ++ toString req.id.toNat ++ "\n")
      else if ← sh.onTop req.id then
        return sh.rtKprintf ("already on page " ++ toString req.id.toNat ++ "\n")
      else if sh.lvAnimCountRunning > 0 then
        return sh.rtKprintf "pm_open busy (animation running)\n"
      else
        let (ret, pm) ← sh.pm.lvPmOpenPage req.id (some sh.options) mem
        let sh := { sh with pm := pm, calls := sh.calls ++ [PmCall.openPage req.id] }
        return sh.rtKprintf
          ("pm_open " ++ toString req.id.toNat ++ " ret=" ++ toString ret.toNat ++ "\n")
  | .back =>
      if sh.pm.lvPmHistoryLen < 2 then
        return sh.rtKprintf "no previous page\n"
      else if sh.lvAnimCountRunning > 0 then
        return sh.rtKprintf "pm_back busy (animation running)\n"
      else
        let pm ← sh.pm.lvPmBack mem
        let sh := { sh with pm := pm, calls := sh.calls ++ [PmCall.back] }
        return sh.rtKprintf "pm_back ret=0\n"

/-- `_pm_async_cb` for a request of the queue. -/
def pmAsyncCb (q : Queued) (mem : Mem) (sh : Shell) : Except Fault Shell := do
  let sh ← sh.pmAsyncBody q.req mem
  return { sh with executed := sh.executed ++ [q.block], freed := sh.freed ++ [q.block] }

/-- The request that `cmd_pm_open` and `cmd_pm_back` build. -/
def request : Command → PmAsyncReq
  | .pmOpen n => ⟨.open, UInt8.ofInt n⟩
  | .pmBack => ⟨.back, 0⟩

/-- `cmd_pm_open` and `cmd_pm_back`. `alloc` says whether `lv_mem_alloc` returns a block, `async`
whether `lv_async_call` gets its timer; its result is not looked at. -/
def cmd (command : Command) (alloc async : Bool) (sh : Shell) : Shell :=
  if alloc = false then sh.rtKprintf "alloc fail\n"
  else
    { sh with
      nextBlock := sh.nextBlock + 1
      queue := if async then sh.queue ++ [⟨sh.nextBlock, request command, command⟩] else sh.queue }

/-- The body of `p1_btn_1_event_cb` and `p2_btn_1_event_cb` for `LV_EVENT_CLICKED`. -/
def btnEventCb (id : UInt8) (mem : Mem) (sh : Shell) : Except Fault Shell := do
  let options : LvPmOpenOptions := { sh.options with target := .new }
  let (_, pm) ← sh.pm.lvPmOpenPage id (some options) mem
  return { sh with pm := pm, options := options }

def p1Btn1EventCb : Mem → Shell → Except Fault Shell := btnEventCb 1

def p2Btn1EventCb : Mem → Shell → Except Fault Shell := btnEventCb 0

/-- LVGL sends `LV_EVENT_CLICKED` to a button that is live, on a page that is not hidden. -/
def click (obj : Nat) (mem : Mem) (sh : Shell) : Except Fault Shell :=
  match sh.pm.ui.app.widgets.live.lookup obj with
  | none => .ok sh
  | some b =>
      if (sh.pm.ui.pages b.page).page.hidden then .ok sh
      else
        match b.eventCb with
        | none => .ok sh
        | some .p1Btn1EventCb => sh.p1Btn1EventCb mem
        | some .p2Btn1EventCb => sh.p2Btn1EventCb mem

end Shell

/-- What can happen after `lv_app_start`: a console command, `pm_open` without its argument, the
execution of the request at a place in the queue, a click on a button, a step of LVGL on the page
animations, or a change in the number of other animations. -/
inductive ShellAction where
  | command (command : Command) (alloc async : Bool)
  | usage
  | execute (k : Nat) (mem : Mem)
  | click (obj : Nat) (mem : Mem)
  | lvgl (a : UiAction)
  | foreign (n : Nat)

def shellStep (sh : Shell) : ShellAction → Except Fault Shell
  | .command command alloc async => .ok (sh.cmd command alloc async)
  | .usage => .ok (sh.rtKprintf "Usage: pm_open <id>\n")
  | .execute k mem =>
      match sh.queue[k]? with
      | none => .ok sh
      | some q => { sh with queue := sh.queue.eraseIdx k }.pmAsyncCb q mem
  | .click obj mem => sh.click obj mem
  | .lvgl a => .ok { sh with pm := { sh.pm with ui := sh.pm.ui.step a } }
  | .foreign n => .ok { sh with foreign := n }

/-- `lv_app_start`, every allocation succeeding. -/
def lvAppStart (disp : Display) : Except Fault Shell := do
  let pm ← Pm.start disp zeroApp appPages
  let (_, pm) ← pm.lvPmOpenPage 0 (some initOptions) ⟨true, true⟩
  return {
    pm := pm
    options := initOptions
    queue := []
    nextBlock := 0
    foreign := 0
    console := []
    calls := []
    executed := []
    freed := [] }

end SwmLvgl.App
