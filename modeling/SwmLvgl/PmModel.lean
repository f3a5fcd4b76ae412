import Mathlib.Algebra.Ring.Int.Defs
import Mathlib.Algebra.Ring.Nat
import Mathlib.Data.List.AList
import Mathlib.Logic.Function.Basic

/-! Data model of the page manager (`pm.h`, `anima.h`, `anima.c`) and of the part of LVGL it drives:
page objects with their hidden flag, position and corner radius, and the list of running page
animations, which `lv_anim_start` keeps to one entry for each object and exec callback. The lifecycle
callbacks belong to the application; a callback is a change of the application's own state `ω`. -/

namespace SwmLvgl.Pm

/-- `enum LV_PM_PAGE_ANIMA`. -/
inductive LvPmPageAnima where
  | none
  | slide
  | slideScale
  | popup
  deriving DecidableEq, Repr, Inhabited

/-- `enum LV_PM_ANIMA_DIR`. -/
inductive LvPmAnimaDir where
  | top
  | right
  | bottom
  | left
  deriving DecidableEq, Repr, Inhabited

/-- `enum LV_PM_OPEN_TARGET`. -/
inductive LvPmOpenTarget where
  /-- open in new page -/
  | new
  /-- replace current page -/
  | self
  /-- close all page and open in new page -/
  | reset
  deriving DecidableEq, Repr, Inhabited

/-- `lv_pm_open_options_t`; the default value is the all-zero structure. -/
structure LvPmOpenOptions where
  animation : LvPmPageAnima
  target : LvPmOpenTarget
  direction : LvPmAnimaDir
  deriving DecidableEq, Repr, Inhabited

/-- The display size that `lv_disp_get_hor_res` and `lv_disp_get_ver_res` return, both `lv_coord_t`. -/
structure Display where
  horRes : Int
  verRes : Int
  hor_range : 0 < horRes ∧ horRes < 2 ^ 15
  ver_range : 0 < verRes ∧ verRes < 2 ^ 15

/-- Conversion of an `int32_t` to the 16-bit `lv_coord_t`. -/
def lvCoord (v : Int) : Int := v.bmod (2 ^ 16)

theorem lvCoord_of_range {v : Int} (h : -2 ^ 15 ≤ v) (h' : v < 2 ^ 15) : lvCoord v = v := by
  unfold lvCoord
  rw [Int.bmod_eq_of_le] <;> omega

/-- What the page manager and the pages use of an `lv_obj_t`: the hidden flag, the style position and
size, the local corner radius, and the size the last layout gave it. -/
structure LvObj where
  hidden : Bool
  x : Int
  y : Int
  width : Int
  height : Int
  radius : Int
  coordsWidth : Int
  coordsHeight : Int
  deriving DecidableEq, Repr, Inhabited

/-- The address of an `lv_pm_page_t`, and of the page object it owns. -/
abbrev Addr := Nat

/-- `lv_pm_lifecycle`: what a callback does to the application's state. It is given the page object
and may ask LVGL for the display size. -/
abbrev LvPmLifecycle (ω : Type) := Display → Addr → LvObj → ω → ω

/-- The lifecycle members of `lv_pm_page_t`. -/
inductive Hook where
  | onLoad
  | willAppear
  | didAppear
  | willDisappear
  | didDisappear
  | unLoad
  deriving DecidableEq, Repr

/-- The six function pointers of an `lv_pm_page_t`. -/
structure Lifecycle (ω : Type) where
  onLoad : Option (LvPmLifecycle ω)
  willAppear : Option (LvPmLifecycle ω)
  didAppear : Option (LvPmLifecycle ω)
  willDisappear : Option (LvPmLifecycle ω)
  didDisappear : Option (LvPmLifecycle ω)
  unLoad : Option (LvPmLifecycle ω)

/-- The function pointers after `memset(pm_page, 0, ...)`. -/
def Lifecycle.null (ω : Type) : Lifecycle ω := ⟨none, none, none, none, none, none⟩

def Lifecycle.get {ω : Type} (l : Lifecycle ω) : Hook → Option (LvPmLifecycle ω)
  | .onLoad => l.onLoad
  | .willAppear => l.willAppear
  | .didAppear => l.didAppear
  | .willDisappear => l.willDisappear
  | .didDisappear => l.didDisappear
  | .unLoad => l.unLoad

/-- `lv_pm_page_t`; `options` and `back` are its members `_options` and `_back`. -/
structure LvPmPage (ω : Type) where
  page : LvObj
  lifecycle : Lifecycle ω
  options : LvPmOpenOptions
  back : Bool

/-- The `lv_pm_anima_complete_cb` functions of `pm.c`. -/
inductive CompleteCb where
  | appear
  | disAppear
  | backAppear
  | backDisAppear
  deriving DecidableEq, Repr

/-- `lv_pm_anima_data`. The block is named after the call of `_pm_anima_appear` or
`_pm_anima_disAppear` that allocates it. -/
structure LvPmAnimaData where
  pmPage : Addr
  cb : CompleteCb
  options : LvPmOpenOptions
  block : Nat
  deriving DecidableEq, Repr

/-- The exec callbacks of `anima.c`. -/
inductive ExecCb where
  | translateX
  | translateY
  deriving DecidableEq, Repr

/-- The object (`var`) and exec callback of an animation. -/
abbrev AnimKey := Addr × ExecCb

/-- The rest of an `lv_anim_t`. -/
structure LvAnim where
  startValue : Int
  endValue : Int
  userData : LvPmAnimaData
  deriving DecidableEq, Repr

/-- What LVGL and the heap hold for the page manager. `calls` counts the calls of `_pm_anima_appear`
and `_pm_anima_disAppear`, `done` lists the calls whose completion callback has run and `trace` the
lifecycle callbacks, both in order; these three record the run and steer nothing. -/
structure Ui (ω : Type) where
  disp : Display
  pages : Addr → LvPmPage ω
  anims : AList fun _ : AnimKey => LvAnim
  blocks : List Nat
  app : ω
  calls : Nat
  done : List Nat
  trace : List (Addr × Hook)

variable {ω : Type}

namespace Ui

def modPage (u : Ui ω) (p : Addr) (f : LvPmPage ω → LvPmPage ω) : Ui ω :=
  { u with pages := Function.update u.pages p (f (u.pages p)) }

def modObj (u : Ui ω) (p : Addr) (f : LvObj → LvObj) : Ui ω :=
  u.modPage p fun pg => { pg with page := f pg.page }

def setOptions (u : Ui ω) (p : Addr) (options : LvPmOpenOptions) : Ui ω :=
  u.modPage p fun pg => { pg with options := options }

def setBack (u : Ui ω) (p : Addr) (back : Bool) : Ui ω :=
  u.modPage p fun pg => { pg with back := back }

/-- `lv_obj_add_flag(page, LV_OBJ_FLAG_HIDDEN)`. -/
def addHidden (u : Ui ω) (p : Addr) : Ui ω := u.modObj p fun o => { o with hidden := true }

/-- `lv_obj_clear_flag(page, LV_OBJ_FLAG_HIDDEN)`. -/
def clearHidden (u : Ui ω) (p : Addr) : Ui ω := u.modObj p fun o => { o with hidden := false }

/-- `lv_obj_set_x`. -/
def lvObjSetX (u : Ui ω) (p : Addr) (v : Int) : Ui ω := u.modObj p fun o => { o with x := lvCoord v }

/-- `lv_obj_set_y`. -/
def lvObjSetY (u : Ui ω) (p : Addr) (v : Int) : Ui ω := u.modObj p fun o => { o with y := lvCoord v }

/-- `lv_obj_set_style_radius`. -/
def lvObjSetStyleRadius (u : Ui ω) (p : Addr) (v : Int) : Ui ω :=
  u.modObj p fun o => { o with radius := lvCoord v }

/-- LVGL lays the page out: its coordinates take the style size. -/
def layout (u : Ui ω) (p : Addr) : Ui ω :=
  u.modObj p fun o => { o with coordsWidth := o.width, coordsHeight := o.height }

/-- `if (pm_page->hook) pm_page->hook(page);` -/
def hook (u : Ui ω) (h : Hook) (p : Addr) : Ui ω :=
  match (u.pages p).lifecycle.get h with
  | none => u
  | some f => { u with app := f u.disp p (u.pages p).page u.app, trace := u.trace ++ [(p, h)] }

end Ui

end SwmLvgl.Pm
