import Mathlib.Tactic.Common
import SwmLvgl.PmModel

/-! Page animations: `lv_anim_start`, `lv_anim_del` and the end of an animation in `lv_anim.c`, the
starters and dispatchers of `anima.c`, and the completion callbacks of `pm.c`. Times, paths and
repeat counts only decide when LVGL ends an animation; here an animation may end at any step. -/

namespace SwmLvgl.Pm

variable {ω : Type}

namespace Ui

/-- `_appear_complete_cb` -/
def appearCompleteCb (p : Addr) (_options : LvPmOpenOptions) (u : Ui ω) : Ui ω :=
  u.hook .didAppear p

/-- `_back_appear_complete_cb` -/
def backAppearCompleteCb (p : Addr) (_options : LvPmOpenOptions) (u : Ui ω) : Ui ω :=
  u.hook .didAppear p

/-- `_disAppear_complete_cb` -/
def disAppearCompleteCb (p : Addr) (options : LvPmOpenOptions) (u : Ui ω) : Ui ω :=
  let u := if options.animation ≠ .popup then u.addHidden p else u
  let u := u.hook .didDisappear p
  u.hook .unLoad p

/-- `_back_disAppear_complete_cb` -/
def backDisAppearCompleteCb (p : Addr) (_options : LvPmOpenOptions) (u : Ui ω) : Ui ω :=
  let u := u.addHidden p
  let u := u.hook .didDisappear p
  u.hook .unLoad p

/-- `cb(pm_page, options)` for the call `block` of `_pm_anima_appear` or `_pm_anima_disAppear`. -/
def complete (block : Nat) (cb : CompleteCb) (p : Addr) (options : LvPmOpenOptions) (u : Ui ω) :
    Ui ω :=
  let u :=
    match cb with
    | .appear => u.appearCompleteCb p options
    | .disAppear => u.disAppearCompleteCb p options
    | .backAppear => u.backAppearCompleteCb p options
    | .backDisAppear => u.backDisAppearCompleteCb p options
  { u with done := u.done ++ [block] }

/-- `translateX_anima_cb` and `translateY_anima_cb` -/
def exec (key : AnimKey) (v : Int) (u : Ui ω) : Ui ω :=
  match key.2 with
  | .translateX => u.lvObjSetX key.1 v
  | .translateY => u.lvObjSetY key.1 v

/-- `lv_anim_del`. No page animation has a `deleted_cb`. -/
def lvAnimDel (key : AnimKey) (u : Ui ω) : Ui ω := { u with anims := u.anims.erase key }

/-- `lv_anim_start`: an animation of the same object and exec callback is deleted, and the start
value is applied at once. `node` says whether `_lv_ll_ins_head` finds memory for the new animation;
if not, `NULL` is returned, which no caller here looks at. (The assertion before that `return` does
not come back unless an `rt_assert_hook` is set.) -/
def lvAnimStart (key : AnimKey) (a : LvAnim) (u : Ui ω) (node : Bool := true) : Ui ω :=
  let u := u.lvAnimDel key
  match node with
  | false => u
  | true =>
      let u := { u with anims := u.anims.insert key a }
      u.exec key a.startValue

/-- `anima_ready_cb` -/
def animaReadyCb (a : LvAnim) (u : Ui ω) : Ui ω :=
  let d := a.userData
  let u := u.complete d.block d.cb d.pmPage d.options
  { u with blocks := u.blocks.erase d.block }

/-- `anim_timer` at the last step of an animation: the end value is applied, the animation leaves
the list and its ready callback runs. -/
def animReady (key : AnimKey) (u : Ui ω) : Ui ω :=
  match u.anims.lookup key with
  | none => u
  | some a => ((u.exec key a.endValue).lvAnimDel key).animaReadyCb a

/-- `anim_timer` at an earlier step: some value between start and end is applied. -/
def animProgress (key : AnimKey) (v : Int) (u : Ui ω) : Ui ω :=
  match u.anims.lookup key with
  | none => u
  | some _ => u.exec key v

/-! ### `anima.c` -/

/-- `POPUP_TOP_HEIGHT` -/
def popupTopHeight : Int := 15

/-- `_pm_slide_appear` -/
def pmSlideAppear (d : LvPmAnimaData) (u : Ui ω) (node : Bool := true) : Ui ω :=
  let width := u.disp.horRes
  let start := if (u.pages d.pmPage).back then -width else width
  u.lvAnimStart (d.pmPage, .translateX) ⟨start, 0, d⟩ node

/-- `_pm_slide_disAppear` -/
def pmSlideDisAppear (d : LvPmAnimaData) (u : Ui ω) (node : Bool := true) : Ui ω :=
  let width := u.disp.horRes
  let stop := if (u.pages d.pmPage).back then width else -width
  u.lvAnimStart (d.pmPage, .translateX) ⟨0, stop, d⟩ node

/-- `_pm_popup_appear` -/
def pmPopupAppear (d : LvPmAnimaData) (u : Ui ω) (node : Bool := true) : Ui ω :=
  let height := u.disp.verRes
  if (u.pages d.pmPage).back then
    (u.lvObjSetStyleRadius d.pmPage 0).lvAnimStart (d.pmPage, .translateY) ⟨5, 0, d⟩ node
  else
    (u.lvObjSetStyleRadius d.pmPage 10).lvAnimStart (d.pmPage, .translateY)
      ⟨height, popupTopHeight, d⟩ node

/-- `_pm_popup_disAppear` -/
def pmPopupDisAppear (d : LvPmAnimaData) (u : Ui ω) (node : Bool := true) : Ui ω :=
  let height := u.disp.verRes
  if (u.pages d.pmPage).back then
    (u.lvObjSetStyleRadius d.pmPage 0).lvAnimStart (d.pmPage, .translateY)
      ⟨popupTopHeight, height, d⟩ node
  else
    (u.lvObjSetStyleRadius d.pmPage 10).lvAnimStart (d.pmPage, .translateY) ⟨0, 5, d⟩ node

/-- The common body of `_pm_anima_appear` and `_pm_anima_disAppear`, which differ in the starters
they call. `behavior` points to the options of a page and is never null; `malloc` says whether the
allocation of the `lv_pm_anima_data` block succeeds. -/
def pmAnima (slide popup : LvPmAnimaData → Ui ω → Ui ω) (p : Addr) (behavior : LvPmOpenOptions)
    (cb : CompleteCb) (malloc : Bool) (u : Ui ω) : Ui ω :=
  let block := u.calls
  let u := { u with calls := u.calls + 1 }
  if behavior.animation = .none then u.complete block cb p behavior
  else if malloc = false then u.complete block cb p behavior
  else
    let u := { u with blocks := block :: u.blocks }
    let animaData : LvPmAnimaData := ⟨p, cb, behavior, block⟩
    match behavior.animation with
    | .slide => slide animaData u
    | .popup => popup animaData u
    -- the block just allocated is not freed here
    | _ => u.complete block cb p behavior

/-- `_pm_anima_appear` -/
def pmAnimaAppear (p : Addr) (behavior : LvPmOpenOptions) (cb : CompleteCb) (malloc : Bool) (u : Ui ω)
    (node : Bool := true) : Ui ω :=
  pmAnima (pmSlideAppear · · node) (pmPopupAppear · · node) p behavior cb malloc u

/-- `_pm_anima_disAppear` -/
def pmAnimaDisAppear (p : Addr) (behavior : LvPmOpenOptions) (cb : CompleteCb) (malloc : Bool)
    (u : Ui ω) (node : Bool := true) : Ui ω :=
  pmAnima (pmSlideDisAppear · · node) (pmPopupDisAppear · · node) p behavior cb malloc u

end Ui

/-- The axis on which a call of `_pm_anima_appear` or `_pm_anima_disAppear` starts an animation; with
none the call completes before it returns. -/
def startedAxis (animation : LvPmPageAnima) (malloc : Bool) : Option ExecCb :=
  if malloc then
    match animation with
    | .slide => some .translateX
    | .popup => some .translateY
    | _ => none
  else none

/-- Start value of the animation of an appearing page. -/
def appearStart (disp : Display) (back : Bool) : ExecCb → Int
  | .translateX => if back then -disp.horRes else disp.horRes
  | .translateY => if back then 5 else disp.verRes

/-- End value of the animation of an appearing page. -/
def appearEnd (back : Bool) : ExecCb → Int
  | .translateX => 0
  | .translateY => if back then 0 else Ui.popupTopHeight

/-- Start value of the animation of a disappearing page. -/
def disAppearStart (back : Bool) : ExecCb → Int
  | .translateX => 0
  | .translateY => if back then Ui.popupTopHeight else 0

/-- End value of the animation of a disappearing page. -/
def disAppearEnd (disp : Display) (back : Bool) : ExecCb → Int
  | .translateX => if back then disp.horRes else -disp.horRes
  | .translateY => if back then disp.verRes else 5

namespace Ui

/-- A call is counted, and its block allocated if the call gets as far as `malloc`. -/
def openCall (animation : LvPmPageAnima) (malloc : Bool) (u : Ui ω) : Ui ω :=
  { u with
    calls := u.calls + 1
    blocks := if animation ≠ .none ∧ malloc then u.calls :: u.blocks else u.blocks }

/-- A started popup animation sets the corner radius, whatever its direction. -/
def popupRadius (p : Addr) (u : Ui ω) : ExecCb → Ui ω
  | .translateX => u
  | .translateY => u.lvObjSetStyleRadius p (if (u.pages p).back then 0 else 10)

/-- What a call of `_pm_anima_appear` or `_pm_anima_disAppear` does: it completes at once, or asks for
an animation from `start` to `stop`. -/
def transit (start stop : ExecCb → Int) (p : Addr) (behavior : LvPmOpenOptions) (cb : CompleteCb)
    (malloc : Bool) (u : Ui ω) (node : Bool := true) : Ui ω :=
  match startedAxis behavior.animation malloc with
  | none => (u.openCall behavior.animation malloc).complete u.calls cb p behavior
  | some ax => ((u.openCall behavior.animation malloc).popupRadius p ax).lvAnimStart (p, ax)
      ⟨start ax, stop ax, ⟨p, cb, behavior, u.calls⟩⟩ node

theorem pmAnimaAppear_eq (p : Addr) (behavior : LvPmOpenOptions) (cb : CompleteCb) (malloc : Bool)
    (u : Ui ω) (node : Bool) :
    u.pmAnimaAppear p behavior cb malloc node =
      u.transit (appearStart u.disp (u.pages p).back) (appearEnd (u.pages p).back) p behavior cb
        malloc node := by
  unfold pmAnimaAppear pmAnima transit startedAxis openCall
  cases behavior.animation <;> cases malloc <;>
    simp [pmSlideAppear, pmPopupAppear, popupRadius, appearStart, appearEnd]
  split <;> rfl

theorem pmAnimaDisAppear_eq (p : Addr) (behavior : LvPmOpenOptions) (cb : CompleteCb)
    (malloc : Bool) (u : Ui ω) (node : Bool) :
    u.pmAnimaDisAppear p behavior cb malloc node =
      u.transit (disAppearStart (u.pages p).back) (disAppearEnd u.disp (u.pages p).back) p behavior
        cb malloc node := by
  unfold pmAnimaDisAppear pmAnima transit startedAxis openCall
  cases behavior.animation <;> cases malloc <;>
    simp [pmSlideDisAppear, pmPopupDisAppear, popupRadius, disAppearStart, disAppearEnd]
  split <;> rfl

end Ui

end SwmLvgl.Pm
