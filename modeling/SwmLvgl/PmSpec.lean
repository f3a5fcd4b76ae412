import Mathlib.Tactic.Common
import SwmLvgl.PmManager

/-! What one step of the page manager can do. The history array is read as a stack of ids; with the
index invariant `Wf` no operation faults except through a null `onLoad`, and `StepTo` lists every
outcome of a step. Everything proved about runs starts from `StepTo`. -/

namespace SwmLvgl.Pm

variable {ω : Type} {node : Bool} {nodes : AnimNodes}

namespace Ui

@[simp] theorem modPage_pages (u : Ui ω) (p q : Addr) (f : LvPmPage ω → LvPmPage ω) :
    (u.modPage p f).pages q = if q = p then f (u.pages p) else u.pages q :=
  Function.update_apply _ _ _ _

@[simp] theorem modPage_disp (u : Ui ω) (p : Addr) (f : LvPmPage ω → LvPmPage ω) :
    (u.modPage p f).disp = u.disp := rfl

@[simp] theorem modPage_anims (u : Ui ω) (p : Addr) (f : LvPmPage ω → LvPmPage ω) :
    (u.modPage p f).anims = u.anims := rfl

@[simp] theorem hook_pages (u : Ui ω) (h : Hook) (p : Addr) : (u.hook h p).pages = u.pages := by
  unfold hook
  split <;> rfl

@[simp] theorem hook_disp (u : Ui ω) (h : Hook) (p : Addr) : (u.hook h p).disp = u.disp := by
  unfold hook
  split <;> rfl

@[simp] theorem hook_anims (u : Ui ω) (h : Hook) (p : Addr) : (u.hook h p).anims = u.anims := by
  unfold hook
  split <;> rfl

/-- The function pointers of every page. -/
def lifecycles (u : Ui ω) (q : Addr) : Lifecycle ω := (u.pages q).lifecycle

/-- The display size and the function pointers of the pages stay. -/
def SameStatic (u v : Ui ω) : Prop := v.disp = u.disp ∧ v.lifecycles = u.lifecycles

theorem SameStatic.trans {u v w : Ui ω} (h : u.SameStatic v) (h' : v.SameStatic w) :
    u.SameStatic w :=
  ⟨h'.1.trans h.1, h'.2.trans h.2⟩

theorem sameStatic_modPage (u : Ui ω) (p : Addr) {f : LvPmPage ω → LvPmPage ω}
    (h : ∀ pg, (f pg).lifecycle = pg.lifecycle) : u.SameStatic (u.modPage p f) := by
  refine ⟨rfl, funext fun q => ?_⟩
  simp only [lifecycles, modPage_pages]
  split
  · rw [h, ‹q = p›]
  · rfl

theorem sameStatic_modObj (u : Ui ω) (p : Addr) (f : LvObj → LvObj) :
    u.SameStatic (u.modObj p f) :=
  sameStatic_modPage u p fun _ => rfl

theorem sameStatic_setBack (u : Ui ω) (p : Addr) (b : Bool) : u.SameStatic (u.setBack p b) :=
  sameStatic_modPage u p fun _ => rfl

theorem sameStatic_setOptions (u : Ui ω) (p : Addr) (options : LvPmOpenOptions) :
    u.SameStatic (u.setOptions p options) :=
  sameStatic_modPage u p fun _ => rfl

theorem sameStatic_prepare (u : Ui ω) (p : Addr) (behavior : Option LvPmOpenOptions) :
    u.SameStatic (u.prepare p behavior) := by
  cases behavior with
  | none => exact sameStatic_setBack u p false
  | some b => exact (sameStatic_setOptions u p b).trans (sameStatic_setBack _ p false)

theorem sameStatic_hook (u : Ui ω) (h : Hook) (p : Addr) : u.SameStatic (u.hook h p) :=
  ⟨hook_disp u h p, by funext q; simp only [lifecycles, hook_pages]⟩

/-- Whether a completion callback hides its page. -/
def hides (cb : CompleteCb) (options : LvPmOpenOptions) : Bool :=
  match cb with
  | .appear => false
  | .backAppear => false
  | .disAppear => options.animation ≠ .popup
  | .backDisAppear => true

theorem complete_pages (u : Ui ω) (block : Nat) (cb : CompleteCb) (p : Addr)
    (options : LvPmOpenOptions) :
    (u.complete block cb p options).pages =
      if hides cb options then (u.addHidden p).pages else u.pages := by
  cases cb with
  | appear => simp [complete, appearCompleteCb, hides]
  | backAppear => simp [complete, backAppearCompleteCb, hides]
  | backDisAppear => simp [complete, backDisAppearCompleteCb, hides]
  | disAppear =>
      by_cases h : options.animation = .popup <;> simp [complete, disAppearCompleteCb, hides, h]

@[simp] theorem complete_disp (u : Ui ω) (block : Nat) (cb : CompleteCb) (p : Addr)
    (options : LvPmOpenOptions) : (u.complete block cb p options).disp = u.disp := by
  cases cb <;> simp [complete, appearCompleteCb, backAppearCompleteCb, disAppearCompleteCb,
    backDisAppearCompleteCb, addHidden, modObj]
  split <;> rfl

@[simp] theorem complete_anims (u : Ui ω) (block : Nat) (cb : CompleteCb) (p : Addr)
    (options : LvPmOpenOptions) : (u.complete block cb p options).anims = u.anims := by
  cases cb <;> simp [complete, appearCompleteCb, backAppearCompleteCb, disAppearCompleteCb,
    backDisAppearCompleteCb, addHidden, modObj]
  split <;> rfl

theorem sameStatic_complete (u : Ui ω) (block : Nat) (cb : CompleteCb) (p : Addr)
    (options : LvPmOpenOptions) : u.SameStatic (u.complete block cb p options) := by
  refine ⟨complete_disp u block cb p options, funext fun q => ?_⟩
  simp only [lifecycles, complete_pages]
  split
  · exact congrFun (sameStatic_modObj u p _).2 q
  · rfl

theorem sameStatic_exec (u : Ui ω) (key : AnimKey) (v : Int) : u.SameStatic (u.exec key v) := by
  unfold exec
  cases key.2 <;> exact sameStatic_modObj u _ _

theorem sameStatic_lvAnimStart (u : Ui ω) (key : AnimKey) (a : LvAnim) :
    u.SameStatic (u.lvAnimStart key a node) := by
  cases node with
  | false => exact ⟨rfl, rfl⟩
  | true =>
      exact sameStatic_exec
        { u.lvAnimDel key with anims := (u.lvAnimDel key).anims.insert key a } key a.startValue

theorem sameStatic_popupRadius (u : Ui ω) (p : Addr) (ax : ExecCb) :
    u.SameStatic (u.popupRadius p ax) := by
  cases ax with
  | translateX => exact ⟨rfl, rfl⟩
  | translateY => exact sameStatic_modObj u p _

theorem sameStatic_transit (u : Ui ω) (start stop : ExecCb → Int) (p : Addr)
    (behavior : LvPmOpenOptions) (cb : CompleteCb) (malloc : Bool) :
    u.SameStatic (u.transit start stop p behavior cb malloc node) := by
  unfold transit
  cases startedAxis behavior.animation malloc with
  | none => exact sameStatic_complete (u.openCall behavior.animation malloc) _ _ _ _
  | some ax =>
      exact (sameStatic_popupRadius (u.openCall behavior.animation malloc) p ax).trans
        (sameStatic_lvAnimStart _ _ _)

theorem sameStatic_pmAnimaAppear (u : Ui ω) (p : Addr) (behavior : LvPmOpenOptions)
    (cb : CompleteCb) (malloc : Bool) : u.SameStatic (u.pmAnimaAppear p behavior cb malloc node) :=
  pmAnimaAppear_eq p behavior cb malloc u node ▸ sameStatic_transit u _ _ _ _ _ _

theorem sameStatic_pmAnimaDisAppear (u : Ui ω) (p : Addr) (behavior : LvPmOpenOptions)
    (cb : CompleteCb) (malloc : Bool) : u.SameStatic (u.pmAnimaDisAppear p behavior cb malloc node) :=
  pmAnimaDisAppear_eq p behavior cb malloc u node ▸ sameStatic_transit u _ _ _ _ _ _

theorem sameStatic_leave (u : Ui ω) (q p : Addr) (back : Bool) (cb : CompleteCb) (malloc : Bool) :
    u.SameStatic (u.leave q p back cb malloc node) :=
  (sameStatic_setBack u q back).trans
    ((sameStatic_hook _ _ _).trans (sameStatic_pmAnimaDisAppear _ _ _ _ _))

theorem sameStatic_openAppear (u : Ui ω) (p : Addr) (malloc : Bool) :
    u.SameStatic (u.openAppear p malloc node) :=
  (sameStatic_modObj u p _).trans
    ((sameStatic_hook _ _ _).trans (sameStatic_pmAnimaAppear _ _ _ _ _))

theorem sameStatic_backAppear (u : Ui ω) (q p : Addr) (malloc : Bool) :
    u.SameStatic (u.backAppear q p malloc node) :=
  (sameStatic_setBack u q true).trans ((sameStatic_hook _ _ _).trans
    ((sameStatic_modObj _ q _).trans (sameStatic_pmAnimaAppear _ _ _ _ _)))

theorem sameStatic_step (u : Ui ω) (a : UiAction) : u.SameStatic (u.step a) := by
  cases a with
  | layout p => exact sameStatic_modObj u p _
  | progress key v =>
      simp only [step, animProgress]
      split
      · exact ⟨rfl, rfl⟩
      · exact sameStatic_exec u key v
  | ready key =>
      simp only [step, animReady]
      split
      · exact ⟨rfl, rfl⟩
      · exact (sameStatic_exec u key _).trans
          (sameStatic_complete ((u.exec key _).lvAnimDel key) 0 _ _ _)

end Ui

namespace State

/-- `lv_pm_history[0 .. lv_pm_history_len)`, bottom first. -/
def stack (s : State ω) : List UInt8 := CArray.view s.lvPmHistory s.lvPmHistoryLen.toNat

/-- The page that `lv_pm_router[id]` points to. -/
def slot (s : State ω) (id : UInt8) : Option Addr := (CArray.get s.lvPmRouter id.toNat).join

/-- The id and the page on top of the history. -/
def top (s : State ω) : Option UInt8 := s.stack.getLast?

def topPage (s : State ω) : Option Addr := s.top.bind s.slot

/-- The index invariant: the length fits the array, and every entry below it names a router slot
that is not null. -/
structure Wf (s : State ω) : Prop where
  len_le : s.lvPmHistoryLen.toNat ≤ lvPmPageNum
  named : ∀ id ∈ s.stack, (s.slot id).isSome

theorem router_of_slot {s : State ω} {id : UInt8} {p : Addr} (h : s.slot id = some p) :
    s.router id = .ok (some p) := by
  have hget : CArray.get s.lvPmRouter id.toNat = some (some p) := Option.join_eq_some_iff.mp h
  simp [router, hget]

theorem router_of_slot_none {s : State ω} {id : UInt8} (hid : id.toNat < lvPmPageNum)
    (h : s.slot id = none) : s.router id = .ok none := by
  unfold slot at h
  rw [CArray.get_of_lt _ hid] at h
  simp only [router, CArray.get_of_lt _ hid]
  simpa using h

theorem page_of_slot {s : State ω} {id : UInt8} {p : Addr} (h : s.slot id = some p) :
    s.page id = .ok p := by
  rw [page, router_of_slot h]
  rfl

theorem lt_of_slot {s : State ω} {id : UInt8} {p : Addr} (h : s.slot id = some p) :
    id.toNat < lvPmPageNum := by
  by_contra hge
  have : CArray.get s.lvPmRouter id.toNat = none := by
    rw [CArray.get_eq_none_iff]
    omega
  simp [slot, this] at h

theorem history_of_lt (s : State ω) {n : Nat} (h : n < lvPmPageNum) :
    s.history n = .ok s.lvPmHistory[n] := by
  simp [history, CArray.get_of_lt _ h]

theorem setHistory_of_lt (s : State ω) {n : Nat} (h : n < lvPmPageNum) (id : UInt8) :
    s.setHistory n id = .ok { s with lvPmHistory := s.lvPmHistory.setIfInBounds n id } := by
  simp [setHistory, CArray.set_of_lt _ h]

theorem top_of_len {s : State ω} {n : Nat} (hlen : s.lvPmHistoryLen.toNat = n + 1)
    (hn : n < lvPmPageNum) : s.top = some s.lvPmHistory[n] := by
  rw [top, stack, hlen, CArray.getLast?_view _ hn, Vector.getElem?_eq_getElem hn]

theorem exists_topPage {s : State ω} (hs : s.Wf) {n : Nat} (hlen : s.lvPmHistoryLen.toNat = n + 1)
    (hn : n < lvPmPageNum) :
    ∃ q, s.slot s.lvPmHistory[n] = some q ∧ s.topPage = some q := by
  have htop := top_of_len hlen hn
  have hmem : s.lvPmHistory[n] ∈ s.stack := List.mem_of_getLast? htop
  obtain ⟨q, hq⟩ := Option.isSome_iff_exists.mp (hs.named _ hmem)
  exact ⟨q, hq, by rw [topPage, htop]; exact hq⟩

theorem stack_eq_nil_iff {s : State ω} (hs : s.Wf) : s.stack = [] ↔ s.lvPmHistoryLen.toNat = 0 := by
  rw [← List.length_eq_zero_iff, stack, CArray.length_view _ hs.len_le]

theorem length_stack {s : State ω} (hs : s.Wf) : s.stack.length = s.lvPmHistoryLen.toNat :=
  CArray.length_view _ hs.len_le

end State

namespace Ui

/-- The middle part of `lv_pm_open_page`: the top page, if any, is sent away, and page `p` loaded
and shown. -/
def openUi (prev : Option Addr) (p : Addr) (behavior : Option LvPmOpenOptions) (mem : Mem)
    (u : Ui ω) (nodes : AnimNodes := .all) : Ui ω :=
  let u := u.prepare p behavior
  let u :=
    match prev with
    | some q => u.leave q p false .disAppear mem.disAppear nodes.disAppear
    | none => u
  (u.hook .onLoad p).openAppear p mem.appear nodes.appear

/-- The page `c` on top is sent away and the page `r` below it shown. -/
def backUi (c r : Addr) (mem : Mem) (u : Ui ω) (nodes : AnimNodes := .all) : Ui ω :=
  (u.leave c c true .backDisAppear mem.disAppear nodes.disAppear).backAppear r c mem.appear
    nodes.appear

theorem sameStatic_openLeave (u : Ui ω) (prev : Option Addr) (p : Addr) (cb : CompleteCb)
    (malloc : Bool) :
    u.SameStatic (match prev with
      | some q => u.leave q p false cb malloc node
      | none => u) := by
  cases prev with
  | none => exact ⟨rfl, rfl⟩
  | some q => exact sameStatic_leave u q p false cb malloc

theorem sameStatic_openUi (u : Ui ω) (prev : Option Addr) (p : Addr)
    (behavior : Option LvPmOpenOptions) (mem : Mem) :
    u.SameStatic (u.openUi prev p behavior mem nodes) :=
  (sameStatic_prepare u p behavior).trans ((sameStatic_openLeave _ prev p _ _).trans
    ((sameStatic_hook _ _ _).trans (sameStatic_openAppear _ _ _)))

theorem sameStatic_backUi (u : Ui ω) (c r : Addr) (mem : Mem) :
    u.SameStatic (u.backUi c r mem nodes) :=
  (sameStatic_leave u c c true _ _).trans (sameStatic_backAppear _ _ _ _)

end Ui

/-- The stack after an accepted open, as the code leaves it. -/
def openStack (k : List UInt8) (id : UInt8) (behavior : Option LvPmOpenOptions) : List UInt8 :=
  match behavior.map LvPmOpenOptions.target with
  | some .new => k.dropLast ++ [id]
  | some .self => k.dropLast ++ [id]
  | _ => k ++ [id]

/-- The outcome of an accepted open. -/
structure Opened (s : State ω) (id : UInt8) (behavior : Option LvPmOpenOptions) (p : Addr)
    (mem : Mem) (t : State ω) (nodes : AnimNodes := .all) : Prop where
  ui : t.ui = s.ui.openUi s.topPage p behavior mem nodes
  stack : t.stack = openStack s.stack id behavior
  router : t.lvPmRouter = s.lvPmRouter
  heap : t.heap = s.heap
  wf : t.Wf

/-- The outcome of a back from page `c` to page `r`, which stands below it in the history. -/
structure Backed (s : State ω) (c r : Addr) (mem : Mem) (t : State ω) (nodes : AnimNodes := .all) :
    Prop where
  ui : t.ui = s.ui.backUi c r mem nodes
  stack : t.stack = s.stack.dropLast
  router : t.lvPmRouter = s.lvPmRouter
  heap : t.heap = s.heap
  wf : t.Wf
  topPage : s.topPage = some c
  below : t.topPage = some r

/-! ### The operations -/

theorem toNat_succ {l : UInt8} (h : l.toNat < lvPmPageNum) : (l + 1).toNat = l.toNat + 1 := by
  have h10 : l.toNat < 10 := h
  rw [UInt8.toNat_add]
  exact Nat.mod_eq_of_lt (by simp; omega)

theorem toNat_pred {l : UInt8} (h : 0 < l.toNat) : (l - 1).toNat = l.toNat - 1 := by
  rw [UInt8.toNat_sub_of_le]
  · rfl
  · exact UInt8.le_iff_toNat_le.mpr h

theorem pos_iff {l : UInt8} : l > 0 ↔ 0 < l.toNat := UInt8.lt_iff_toNat_lt

namespace State

theorem topPage_of_empty {s : State ω} (h : s.lvPmHistoryLen.toNat = 0) : s.topPage = none := by
  simp [topPage, top, stack, h]

/-- The page sent away by an open is the top page; entries at the top or above it do not matter. -/
theorem openLeave_eq {s : State ω} (hs : s.Wf) (p : Addr) (malloc : Bool)
    (a : Vector UInt8 lvPmPageNum) (u : Ui ω)
    (ha : ∀ i, i < s.lvPmHistoryLen.toNat → a[i]? = s.lvPmHistory[i]?) :
    ({ s with lvPmHistory := a, ui := u } : State ω).openLeave p malloc node =
      .ok { s with
        lvPmHistory := a
        ui :=
          match s.topPage with
          | some q => u.leave q p false .disAppear malloc node
          | none => u } := by
  unfold openLeave
  by_cases hpos : 0 < s.lvPmHistoryLen.toNat
  · obtain ⟨n, hn⟩ : ∃ n, s.lvPmHistoryLen.toNat = n + 1 :=
      ⟨_, (Nat.succ_pred_eq_of_pos hpos).symm⟩
    have hlt : n < lvPmPageNum := by have := hs.len_le; omega
    obtain ⟨q, hq, htop⟩ := exists_topPage hs hn hlt
    have hcast : ((s.lvPmHistoryLen.toNat : Int) - 1) = (n : Int) := by omega
    have hget : a[n] = s.lvPmHistory[n] := by
      have := ha n (by omega)
      rwa [Vector.getElem?_eq_getElem hlt, Vector.getElem?_eq_getElem hlt,
        Option.some.injEq] at this
    have hpage : ({ s with lvPmHistory := a, ui := u } : State ω).page a[n] = .ok q := by
      rw [hget]
      exact page_of_slot hq
    rw [if_pos (pos_iff.mpr hpos)]
    simp only [hcast, history_of_lt _ hlt, bind, Except.bind, hpage, htop]
    rfl
  · rw [if_neg (fun hgt => hpos (pos_iff.mp hgt))]
    simp only [topPage_of_empty (Nat.eq_zero_of_not_pos hpos)]

theorem lvPmOpenPage_null {s : State ω} {id : UInt8} (hid : id.toNat < lvPmPageNum)
    (h : s.slot id = none) (behavior : Option LvPmOpenOptions) (mem : Mem) :
    s.lvPmOpenPage id behavior mem nodes = .ok (4, s) := by
  rw [lvPmOpenPage, router_of_slot_none hid h]
  rfl

theorem lvPmOpenPage_full {s : State ω} {id : UInt8} {p : Addr} (h : s.slot id = some p)
    (hlen : s.lvPmHistoryLen.toNat = lvPmPageNum) (behavior : Option LvPmOpenOptions) (mem : Mem) :
    s.lvPmOpenPage id behavior mem nodes = .ok (5, s) := by
  rw [lvPmOpenPage, router_of_slot h]
  simp only [bind, Except.bind, hlen, if_true]
  rfl

/-- Whether an open replaces the top entry at once, without writing above it. -/
def replacesTop (s : State ω) (behavior : Option LvPmOpenOptions) : Bool :=
  decide (behavior.map (·.target) = some .new ∧ s.lvPmHistoryLen > 0)

/-- The history array when an accepted open calls `onLoad`. -/
def openHistory (s : State ω) (id : UInt8) (behavior : Option LvPmOpenOptions) :
    Vector UInt8 lvPmPageNum :=
  if s.replacesTop behavior then s.lvPmHistory
  else s.lvPmHistory.setIfInBounds s.lvPmHistoryLen.toNat id

/-- The pages and animations when an accepted open calls `onLoad`. -/
def openLeft (s : State ω) (p : Addr) (behavior : Option LvPmOpenOptions) (malloc : Bool)
    (node : Bool := true) : Ui ω :=
  match s.topPage with
  | some q => (s.ui.prepare p behavior).leave q p false .disAppear malloc node
  | none => s.ui.prepare p behavior

theorem lifecycle_openLeft (s : State ω) (p q : Addr) (behavior : Option LvPmOpenOptions)
    (malloc : Bool) :
    ((s.openLeft p behavior malloc node).pages q).lifecycle = s.ui.lifecycles q := by
  have hstatic : s.ui.SameStatic (s.openLeft p behavior malloc node) :=
    (Ui.sameStatic_prepare s.ui p behavior).trans (Ui.sameStatic_openLeave _ s.topPage p _ _)
  exact congrFun hstatic.2 q

/-- An accepted open up to the call of `onLoad`. -/
theorem lvPmOpenPage_eq {s : State ω} (hs : s.Wf) {id : UInt8} {p : Addr}
    (h : s.slot id = some p) (hlen : s.lvPmHistoryLen.toNat ≠ lvPmPageNum)
    (behavior : Option LvPmOpenOptions) (mem : Mem) :
    s.lvPmOpenPage id behavior mem nodes = (do
      let t ← ({ s with
        lvPmHistory := s.openHistory id behavior
        ui := s.openLeft p behavior mem.disAppear nodes.disAppear } : State ω).onLoad p
      let t := { t with ui := t.ui.openAppear p mem.appear nodes.appear }
      let t ← t.openEnter id behavior (s.replacesTop behavior)
      return (0, t)) := by
  have hlt : s.lvPmHistoryLen.toNat < lvPmPageNum := lt_of_le_of_ne hs.len_le hlen
  have hwrite : s.openWrite id (s.replacesTop behavior) =
      .ok { s with lvPmHistory := s.openHistory id behavior } := by
    unfold openWrite openHistory
    split
    · rfl
    · exact setHistory_of_lt s hlt id
  have hbelow : ∀ i, i < s.lvPmHistoryLen.toNat →
      (s.openHistory id behavior)[i]? = s.lvPmHistory[i]? := by
    intro i hi
    unfold openHistory
    split
    · rfl
    · rw [Vector.getElem?_setIfInBounds, if_neg (by omega)]
  rw [lvPmOpenPage, router_of_slot h]
  simp only [bind, Except.bind, if_neg hlen]
  rw [show decide (behavior.map (·.target) = some .new ∧ s.lvPmHistoryLen > 0) =
    s.replacesTop behavior from rfl, hwrite]
  dsimp only
  rw [openLeave_eq hs p mem.disAppear _ _ hbelow]
  rfl

theorem lvPmOpenPage_nullOnLoad {s : State ω} (hs : s.Wf) {id : UInt8} {p : Addr}
    (h : s.slot id = some p) (hlen : s.lvPmHistoryLen.toNat ≠ lvPmPageNum)
    (behavior : Option LvPmOpenOptions) (mem : Mem) (hload : (s.ui.lifecycles p).onLoad = none) :
    s.lvPmOpenPage id behavior mem nodes = .error (.nullOnLoad p) := by
  rw [lvPmOpenPage_eq hs h hlen]
  simp [onLoad, lifecycle_openLeft, hload, bind, Except.bind]

/-- The outcome of entering the page into the history. -/
structure Entered (s : State ω) (id : UInt8) (behavior : Option LvPmOpenOptions) (u : Ui ω)
    (t : State ω) : Prop where
  ui : t.ui = u
  router : t.lvPmRouter = s.lvPmRouter
  heap : t.heap = s.heap
  len_le : t.lvPmHistoryLen.toNat ≤ lvPmPageNum
  stack : t.stack = openStack s.stack id behavior

/-- An open that pushes counts in the id, which already stands at the old length. -/
theorem openEnter_push {s : State ω} (hlt : s.lvPmHistoryLen.toNat < lvPmPageNum) {id : UInt8}
    {behavior : Option LvPmOpenOptions} (hkeep : s.replacesTop behavior = false)
    (hself : behavior.map (·.target) = some .self → s.lvPmHistoryLen = 0)
    (hstack : openStack s.stack id behavior = s.stack ++ [id]) (u : Ui ω) :
    ∃ t, ({ s with lvPmHistory := s.openHistory id behavior, ui := u } : State ω).openEnter
        id behavior (s.replacesTop behavior) = .ok t ∧ s.Entered id behavior u t := by
  refine ⟨{ s with
    lvPmHistory := s.openHistory id behavior
    lvPmHistoryLen := s.lvPmHistoryLen + 1
    ui := u }, ?_, rfl, rfl, rfl, (toNat_succ hlt).trans_le hlt, ?_⟩
  · by_cases h : behavior.map (·.target) = some .self
    · simp [openEnter, hkeep, h, hself h]
    · simp [openEnter, hkeep, h]
  · rw [hstack]
    simp only [stack, openHistory, hkeep, toNat_succ hlt]
    exact CArray.view_push _ hlt id

/-- Writing the id over the top entry. -/
theorem stack_replaceTop {s : State ω} {n : Nat} (hn : s.lvPmHistoryLen.toNat = n + 1)
    (hnlt : n < lvPmPageNum) {a : Vector UInt8 lvPmPageNum}
    (ha : CArray.view a (n + 1) = s.stack) (id : UInt8) (u : Ui ω) :
    ({ s with lvPmHistory := a.setIfInBounds n id, ui := u } : State ω).stack =
      s.stack.dropLast ++ [id] := by
  simp only [stack, hn] at ha ⊢
  rw [CArray.view_replaceTop _ hnlt, ha]

/-- Target NEW on a history with entries. -/
theorem openEnter_new {s : State ω} (hs : s.Wf) {n : Nat} (hn : s.lvPmHistoryLen.toNat = n + 1)
    (id : UInt8) {behavior : Option LvPmOpenOptions}
    (hnew : behavior.map (·.target) = some .new) (u : Ui ω) :
    ∃ t, ({ s with lvPmHistory := s.openHistory id behavior, ui := u } : State ω).openEnter
        id behavior (s.replacesTop behavior) = .ok t ∧ s.Entered id behavior u t := by
  have hnlt : n < lvPmPageNum := by have := hs.len_le; omega
  have hcast : ((s.lvPmHistoryLen.toNat : Int) - 1) = (n : Int) := by omega
  have hpos : s.lvPmHistoryLen > 0 := pos_iff.mpr (by omega)
  have htop : s.replacesTop behavior = true := by simp [replacesTop, hnew, hpos]
  refine ⟨{ s with lvPmHistory := s.lvPmHistory.setIfInBounds n id, ui := u }, ?_, rfl, rfl, rfl,
    hs.len_le, ?_⟩
  · simp only [openEnter, htop, if_true, hcast]
    rw [setHistory_of_lt _ hnlt]
    simp [openHistory, htop]
  · rw [stack_replaceTop hn hnlt (by rw [stack, hn])]
    simp only [openStack, hnew]

/-- Target SELF writes the id above the top and copies it down. -/
theorem openEnter_self {s : State ω} (hs : s.Wf) {n : Nat} (hn : s.lvPmHistoryLen.toNat = n + 1)
    (hlt : n + 1 < lvPmPageNum) (id : UInt8) {behavior : Option LvPmOpenOptions}
    (hself : behavior.map (·.target) = some .self) (u : Ui ω) :
    ∃ t, ({ s with lvPmHistory := s.openHistory id behavior, ui := u } : State ω).openEnter
        id behavior (s.replacesTop behavior) = .ok t ∧ s.Entered id behavior u t := by
  have hnlt : n < lvPmPageNum := by omega
  have hcast : ((s.lvPmHistoryLen.toNat : Int) - 1) = (n : Int) := by omega
  have hkeep : s.replacesTop behavior = false := by simp [replacesTop, hself]
  have hne : ¬s.lvPmHistoryLen = 0 := fun h => by simp [h] at hn
  have hread : ({ s with lvPmHistory := s.openHistory id behavior, ui := u } : State ω).history
      s.lvPmHistoryLen.toNat = .ok id := by
    rw [history_of_lt _ (hn ▸ hlt)]
    simp [openHistory, hkeep]
  refine ⟨{ s with
    lvPmHistory := (s.lvPmHistory.setIfInBounds (n + 1) id).setIfInBounds n id, ui := u },
    ?_, rfl, rfl, rfl, hs.len_le, ?_⟩
  · simp only [openEnter, hkeep, hself, if_true, Bool.false_eq_true, if_false, if_neg hne, hcast,
      bind, Except.bind, hread, setHistory_of_lt _ hnlt]
    simp [openHistory, hkeep, hn]
  · rw [stack_replaceTop hn hnlt (by rw [stack, hn, CArray.view_set_of_le _ le_rfl])]
    simp only [openStack, hself]

/-- Entering the page into the history leaves the stack that `openStack` gives. -/
theorem openEnter_eq {s : State ω} (hs : s.Wf) (hlen : s.lvPmHistoryLen.toNat ≠ lvPmPageNum)
    (id : UInt8) (behavior : Option LvPmOpenOptions) (u : Ui ω) :
    ∃ t, ({ s with lvPmHistory := s.openHistory id behavior, ui := u } : State ω).openEnter
        id behavior (s.replacesTop behavior) = .ok t ∧ s.Entered id behavior u t := by
  have hlt : s.lvPmHistoryLen.toNat < lvPmPageNum := lt_of_le_of_ne hs.len_le hlen
  cases hn : s.lvPmHistoryLen.toNat with
  | zero =>
      have hkeep : s.replacesTop behavior = false := by
        have : ¬s.lvPmHistoryLen > 0 := fun h => by have := pos_iff.mp h; omega
        simp [replacesTop, this]
      have hstack : openStack s.stack id behavior = s.stack ++ [id] := by
        rw [(stack_eq_nil_iff hs).mpr hn]
        unfold openStack
        split <;> rfl
      exact openEnter_push hlt hkeep (fun _ => UInt8.toNat_inj.mp hn) hstack u
  | succ n =>
      by_cases hnew : behavior.map (·.target) = some .new
      · exact openEnter_new hs hn id hnew u
      by_cases hself : behavior.map (·.target) = some .self
      · exact openEnter_self hs hn (hn ▸ hlt) id hself u
      have hstack : openStack s.stack id behavior = s.stack ++ [id] := by
        unfold openStack
        split
        · exact absurd ‹_› hnew
        · exact absurd ‹_› hself
        · rfl
      exact openEnter_push hlt (by simp [replacesTop, hnew]) (fun h => absurd h hself) hstack u

theorem slot_congr {s t : State ω} (h : t.lvPmRouter = s.lvPmRouter) : t.slot = s.slot := by
  funext id
  rw [slot, slot, h]

/-- A history whose entries all come from a well-formed one, or are a created page, is well-formed. -/
theorem wf_of_stack {s t : State ω} (hs : s.Wf) (hrouter : t.lvPmRouter = s.lvPmRouter)
    (hlen : t.lvPmHistoryLen.toNat ≤ lvPmPageNum)
    (hstack : ∀ x ∈ t.stack, x ∈ s.stack ∨ (s.slot x).isSome) : t.Wf := by
  refine ⟨hlen, fun x hx => ?_⟩
  rw [slot_congr hrouter]
  rcases hstack x hx with h | h
  · exact hs.named x h
  · exact h

theorem mem_openStack {k : List UInt8} {id x : UInt8} {behavior : Option LvPmOpenOptions}
    (h : x ∈ openStack k id behavior) : x ∈ k ∨ x = id := by
  unfold openStack at h
  split at h <;> rw [List.mem_append, List.mem_singleton] at h
  · exact h.imp_left List.mem_of_mem_dropLast
  · exact h.imp_left List.mem_of_mem_dropLast
  · exact h

theorem lvPmOpenPage_ok {s : State ω} (hs : s.Wf) {id : UInt8} {p : Addr}
    (h : s.slot id = some p) (hlen : s.lvPmHistoryLen.toNat ≠ lvPmPageNum)
    (behavior : Option LvPmOpenOptions) (mem : Mem) (hload : (s.ui.lifecycles p).onLoad.isSome) :
    ∃ t, s.lvPmOpenPage id behavior mem nodes = .ok (0, t) ∧ Opened s id behavior p mem t nodes := by
  have hsome : ((s.openLeft p behavior mem.disAppear nodes.disAppear).pages p).lifecycle.onLoad.isNone =
      false := by
    rw [lifecycle_openLeft, ← Option.not_isSome, hload]
    rfl
  obtain ⟨t, ht, hentered⟩ := openEnter_eq hs hlen id behavior
    (((s.openLeft p behavior mem.disAppear nodes.disAppear).hook .onLoad p).openAppear p mem.appear
      nodes.appear)
  refine ⟨t, ?_, ?_, hentered.stack, hentered.router, hentered.heap, ?_⟩
  · rw [lvPmOpenPage_eq hs h hlen]
    simp only [onLoad, hsome, bind, Except.bind, Bool.false_eq_true, if_false, ht]
    rfl
  · rw [hentered.ui]
    rfl
  · apply wf_of_stack hs hentered.router hentered.len_le
    intro x hx
    rw [hentered.stack] at hx
    rcases mem_openStack hx with hmem | rfl
    · exact Or.inl hmem
    · exact Or.inr (by rw [h]; rfl)

theorem lvPmBack_short {s : State ω} (hs : s.Wf) (h : s.stack.length < 2) (mem : Mem) :
    s.lvPmBack mem nodes = .ok s := by
  have : s.lvPmHistoryLen < 2 := UInt8.lt_iff_toNat_lt.mpr (length_stack hs ▸ h)
  rw [lvPmBack, if_pos this]

theorem lvPmBack_ok {s : State ω} (hs : s.Wf) (h : 2 ≤ s.stack.length) (mem : Mem) :
    ∃ c r t, s.lvPmBack mem nodes = .ok t ∧ Backed s c r mem t nodes := by
  obtain ⟨n, hn⟩ : ∃ n, s.lvPmHistoryLen.toNat = n + 2 :=
    ⟨s.lvPmHistoryLen.toNat - 2, by rw [length_stack hs] at h; omega⟩
  have hge : ¬s.lvPmHistoryLen < 2 := fun hlt => by
    have : s.lvPmHistoryLen.toNat < 2 := UInt8.lt_iff_toNat_lt.mp hlt
    omega
  have hlt : n + 1 < lvPmPageNum := by have := hs.len_le; omega
  have hlt' : n < lvPmPageNum := by omega
  have hpred : (s.lvPmHistoryLen - 1).toNat = n + 1 := by rw [toNat_pred (by omega), hn]; rfl
  have hcast : ((s.lvPmHistoryLen.toNat : Int) - 1) = ((n + 1 : Nat) : Int) := by omega
  have hcast' : (((s.lvPmHistoryLen - 1).toNat : Int) - 1) = (n : Int) := by omega
  obtain ⟨c, hc, htop⟩ := exists_topPage hs hn hlt
  -- the page below the top
  have hmem : s.lvPmHistory[n] ∈ s.stack := by
    apply List.mem_of_getElem? (i := n)
    rw [stack, hn, CArray.getElem?_view, if_pos (by omega), Vector.getElem?_eq_getElem hlt']
  obtain ⟨r, hr⟩ := Option.isSome_iff_exists.mp (hs.named _ hmem)
  let t : State ω :=
    { s with ui := s.ui.backUi c r mem nodes, lvPmHistoryLen := s.lvPmHistoryLen - 1 }
  have hstack : t.stack = s.stack.dropLast := by
    simp only [stack, t, hpred, hn]
    exact CArray.view_pop _ hlt
  have hpage : ∀ (l : UInt8) (u : Ui ω) (id : UInt8) (q : Addr), s.slot id = some q →
      ({ s with lvPmHistoryLen := l, ui := u } : State ω).page id = .ok q :=
    fun _ _ _ _ hq => page_of_slot hq
  refine ⟨c, r, t, ?_, rfl, hstack, rfl, rfl, ?_, htop, ?_⟩
  · rw [lvPmBack, if_neg hge]
    simp only [bind, Except.bind, hcast, history_of_lt _ hlt, page_of_slot hc]
    simp only [hcast', history_of_lt _ hlt', hpage _ _ _ _ hr]
    rfl
  · refine wf_of_stack hs rfl ?_ fun x hx => Or.inl ?_
    · simp only [t, hpred]
      exact hlt.le
    · rw [hstack] at hx
      exact List.mem_of_mem_dropLast hx
  · have hslot : t.slot s.lvPmHistory[n] = some r := hr
    rw [topPage, top_of_len (s := t) hpred hlt']
    exact hslot

end State

/-! ### All outcomes of a step -/

/-- Every outcome of a step from a well-formed state. -/
inductive StepTo (s : State ω) : Action → State ω → (nodes : AnimNodes := .all) → Prop where
  | refused {id : PageId} {behavior : Option LvPmOpenOptions} {mem : Mem} {n : AnimNodes}
      (h : s.slot id.id = none ∨ s.stack.length = lvPmPageNum) :
      StepTo s (.openPage id behavior mem) s n
  | opened {id : PageId} {behavior : Option LvPmOpenOptions} {mem : Mem} {p : Addr} {t : State ω}
      {n : AnimNodes} (hslot : s.slot id.id = some p) (hlen : s.stack.length ≠ lvPmPageNum)
      (h : Opened s id.id behavior p mem t n) : StepTo s (.openPage id behavior mem) t n
  | noBack {mem : Mem} {n : AnimNodes} (h : s.stack.length < 2) : StepTo s (.back mem) s n
  | back {mem : Mem} {c r : Addr} {t : State ω} {n : AnimNodes} (hlen : 2 ≤ s.stack.length)
      (h : Backed s c r mem t n) : StepTo s (.back mem) t n
  | lvgl {a : UiAction} {n : AnimNodes} : StepTo s (.lvgl a) { s with ui := s.ui.step a } n

/-- The state is well-formed and every page in the router has an `onLoad`. -/
structure State.Ready (s : State ω) : Prop where
  wf : s.Wf
  loads : ∀ id p, s.slot id = some p → (s.ui.lifecycles p).onLoad.isSome

/-- A step from a well-formed state has one of the listed outcomes, unless it opens a page that has
no `onLoad`. -/
theorem stepNodes_cases {s : State ω} (hs : s.Wf) (a : Action) (nodes : AnimNodes) :
    (∃ t, stepNodes s (a, nodes) = .ok t ∧ StepTo s a t nodes) ∨
      ∃ id p, stepNodes s (a, nodes) = .error (.nullOnLoad p) ∧ s.slot id = some p ∧
        (s.ui.lifecycles p).onLoad = none := by
  cases a with
  | lvgl a => exact Or.inl ⟨_, rfl, .lvgl⟩
  | back mem =>
      left
      by_cases h : s.stack.length < 2
      · exact ⟨s, State.lvPmBack_short hs h mem, .noBack h⟩
      · obtain ⟨c, r, t, ht, hback⟩ := State.lvPmBack_ok hs (not_lt.mp h) mem
        exact ⟨t, ht, .back (not_lt.mp h) hback⟩
  | openPage id behavior mem =>
      cases hslot : s.slot id.id with
      | none =>
          refine Or.inl ⟨s, ?_, .refused (Or.inl hslot)⟩
          rw [stepNodes, State.lvPmOpenPage_null id.lt hslot]
          rfl
      | some p =>
          by_cases hlen : s.stack.length = lvPmPageNum
          · refine Or.inl ⟨s, ?_, .refused (Or.inr hlen)⟩
            rw [stepNodes, State.lvPmOpenPage_full hslot (State.length_stack hs ▸ hlen)]
            rfl
          have hlen' : s.lvPmHistoryLen.toNat ≠ lvPmPageNum := State.length_stack hs ▸ hlen
          cases hload : (s.ui.lifecycles p).onLoad with
          | none =>
              refine Or.inr ⟨id.id, p, ?_, hslot, hload⟩
              rw [stepNodes, State.lvPmOpenPage_nullOnLoad hs hslot hlen' _ _ hload]
              rfl
          | some f =>
              obtain ⟨t, ht, hopen⟩ := State.lvPmOpenPage_ok hs hslot hlen' behavior mem
                (by rw [hload]; rfl)
              refine Or.inl ⟨t, ?_, .opened hslot hlen hopen⟩
              rw [stepNodes, ht]
              rfl

theorem step_cases {s : State ω} (hs : s.Wf) (a : Action) :
    (∃ t, step s a = .ok t ∧ StepTo s a t) ∨
      ∃ id p, step s a = .error (.nullOnLoad p) ∧ s.slot id = some p ∧
        (s.ui.lifecycles p).onLoad = none := by
  rw [← stepNodes_all]
  exact stepNodes_cases hs a .all

/-- A step from a ready state succeeds, in one of the listed ways. -/
theorem stepNodes_total {s : State ω} (hs : s.Ready) (a : Action) (nodes : AnimNodes) :
    ∃ t, stepNodes s (a, nodes) = .ok t ∧ StepTo s a t nodes := by
  rcases stepNodes_cases hs.wf a nodes with h | ⟨id, p, -, hslot, hnone⟩
  · exact h
  · have := hs.loads id p hslot
    simp [hnone] at this

theorem step_total {s : State ω} (hs : s.Ready) (a : Action) :
    ∃ t, step s a = .ok t ∧ StepTo s a t := by
  rw [← stepNodes_all]
  exact stepNodes_total hs a .all

theorem stepTo_of_step {s t : State ω} (hs : s.Ready) {a : Action} (h : step s a = .ok t) :
    StepTo s a t :=
  Run.of_exists_ok (step_total hs a) h

/-- No step changes the router, the display or a function pointer, and all keep a state ready. -/
theorem StepTo.static {s t : State ω} {a : Action} (h : StepTo s a t nodes) :
    t.lvPmRouter = s.lvPmRouter ∧ s.ui.SameStatic t.ui := by
  cases h with
  | refused _ => exact ⟨rfl, rfl, rfl⟩
  | noBack _ => exact ⟨rfl, rfl, rfl⟩
  | lvgl => exact ⟨rfl, Ui.sameStatic_step _ _⟩
  | opened _ _ h => exact ⟨h.router, h.ui ▸ Ui.sameStatic_openUi _ _ _ _ _⟩
  | back _ h => exact ⟨h.router, h.ui ▸ Ui.sameStatic_backUi _ _ _ _⟩

theorem StepTo.wf {s t : State ω} {a : Action} (hs : s.Wf) (h : StepTo s a t nodes) : t.Wf := by
  cases h with
  | refused _ => exact hs
  | noBack _ => exact hs
  | lvgl => exact ⟨hs.len_le, hs.named⟩
  | opened _ _ h => exact h.wf
  | back _ h => exact h.wf

theorem StepTo.ready {s t : State ω} {a : Action} (hs : s.Ready) (h : StepTo s a t nodes) : t.Ready := by
  obtain ⟨hrouter, hstatic⟩ := h.static
  refine ⟨h.wf hs.wf, fun id p hp => ?_⟩
  rw [State.slot_congr hrouter] at hp
  rw [hstatic.2]
  exact hs.loads id p hp

end SwmLvgl.Pm
