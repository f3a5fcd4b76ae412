import SwmLvgl.PmPicture

/-! What an open, a back and a step of LVGL do to the picture. An open and a back are one kind of
transition (`Move`): a page is sent away and a page is shown, with the same options. `Moved` gives the
running animations and the picture after it; a step of LVGL changes no rest position and no rest
visibility. -/

namespace SwmLvgl.Pm

variable {ω : Type} {node : Bool} {nodes : AnimNodes}

namespace Ui

/-- Only the page objects differ. -/
def OnlyObjects (u v : Ui ω) : Prop := ∀ p, v.pages p = { u.pages p with page := v.obj p }

theorem OnlyObjects.trans {u v w : Ui ω} (h : u.OnlyObjects v) (h' : v.OnlyObjects w) :
    u.OnlyObjects w := fun p => by rw [h' p, h p]

theorem onlyObjects_of_pages {u v : Ui ω} (h : v.pages = u.pages) : u.OnlyObjects v := fun p => by
  rw [obj, h]

theorem onlyObjects_modObj (u : Ui ω) (p : Addr) (f : LvObj → LvObj) :
    u.OnlyObjects (u.modObj p f) := fun q => by
  simp only [obj, modObj, modPage_pages]
  split <;> simp [*]

theorem onlyObjects_complete (u : Ui ω) (block : Nat) (cb : CompleteCb) (p : Addr)
    (options : LvPmOpenOptions) : u.OnlyObjects (u.complete block cb p options) := by
  have h := complete_pages u block cb p options
  split at h
  · intro q
    rw [obj, h]
    exact onlyObjects_modObj u p _ q
  · exact onlyObjects_of_pages h

theorem onlyObjects_exec (u : Ui ω) (key : AnimKey) (v : Int) : u.OnlyObjects (u.exec key v) := by
  unfold exec
  cases key.2 with
  | translateX => exact onlyObjects_modObj u key.1 fun o => { o with x := lvCoord v }
  | translateY => exact onlyObjects_modObj u key.1 fun o => { o with y := lvCoord v }

theorem onlyObjects_popupRadius (u : Ui ω) (p : Addr) (ax : ExecCb) :
    u.OnlyObjects (u.popupRadius p ax) := by
  cases ax with
  | translateX => exact onlyObjects_of_pages rfl
  | translateY =>
      exact onlyObjects_modObj u p fun o =>
        { o with radius := lvCoord (if (u.pages p).back then 0 else 10) }

theorem onlyObjects_transit (u : Ui ω) (start stop : ExecCb → Int) (p : Addr)
    (behavior : LvPmOpenOptions) (cb : CompleteCb) (malloc : Bool) :
    u.OnlyObjects (u.transit start stop p behavior cb malloc node) := by
  unfold transit
  cases startedAxis behavior.animation malloc with
  | none => exact onlyObjects_complete (u.openCall behavior.animation malloc) _ _ _ _
  | some ax =>
      have hradius := onlyObjects_popupRadius (u.openCall behavior.animation malloc) p ax
      cases node with
      | false => exact hradius
      | true => exact hradius.trans (onlyObjects_exec _ _ _)

end Ui

/-- An accepted open or back: the page sent away, the page shown, the direction, and the options and
allocations both animations use. -/
structure Move where
  away : Option Addr
  page : Addr
  back : Bool
  options : LvPmOpenOptions
  mem : Mem

namespace Move

/-- The axis on which the page sent away starts an animation. -/
def leaving (m : Move) : Option ExecCb := startedAxis m.options.animation m.mem.disAppear

/-- The axis on which the page shown starts an animation. -/
def appearing (m : Move) : Option ExecCb := startedAxis m.options.animation m.mem.appear

def disAppearCb (m : Move) : CompleteCb := if m.back then .backDisAppear else .disAppear

def appearCb (m : Move) : CompleteCb := if m.back then .backAppear else .appear

end Move

namespace Ui

/-- `v` is `u` after the transition `m`. -/
inductive Moved (u : Ui ω) : Move → Ui ω → (nodes : AnimNodes := .all) → Prop where
  | opened (prev : Option Addr) (p : Addr) (behavior : Option LvPmOpenOptions) (mem : Mem)
      {n : AnimNodes} :
      Moved u ⟨prev, p, false, behavior.getD (u.pages p).options, mem⟩
        (u.openUi prev p behavior mem n) n
  | backed (c r : Addr) (mem : Mem) {n : AnimNodes} :
      Moved u ⟨some c, r, true, (u.pages c).options, mem⟩ (u.backUi c r mem n) n

theorem pages_setBack (u : Ui ω) (p q : Addr) (b : Bool) :
    (u.setBack p b).pages q = if q = p then { u.pages q with back := b } else u.pages q := by
  simp only [setBack, modPage_pages]
  split <;> simp [*]

theorem pages_prepare (u : Ui ω) (p q : Addr) (behavior : Option LvPmOpenOptions) :
    (u.prepare p behavior).pages q =
      if q = p then { u.pages q with options := behavior.getD (u.pages q).options, back := false }
      else u.pages q := by
  cases behavior with
  | none =>
      rw [prepare, pages_setBack]
      rfl
  | some b =>
      simp only [prepare, pages_setBack, setOptions, modPage_pages]
      split <;> simp [*]

theorem leave_eq (u : Ui ω) (q p : Addr) (back : Bool) (cb : CompleteCb) (malloc : Bool) :
    u.leave q p back cb malloc node =
      ((u.setBack q back).hook .willDisappear q).transit (disAppearStart back)
        (disAppearEnd u.disp back) q (u.pages p).options cb malloc node := by
  have hback : (((u.setBack q back).hook .willDisappear q).pages q).back = back := by
    rw [hook_pages, pages_setBack, if_pos rfl]
  have hoptions : (((u.setBack q back).hook .willDisappear q).pages p).options =
      (u.pages p).options := by
    rw [hook_pages, pages_setBack]
    split <;> rfl
  have hdisp : ((u.setBack q back).hook .willDisappear q).disp = u.disp := hook_disp _ _ _
  rw [leave, pmAnimaDisAppear_eq, hback, hoptions, hdisp]

theorem openAppear_eq (u : Ui ω) (p : Addr) (malloc : Bool) :
    u.openAppear p malloc node =
      ((u.clearHidden p).hook .willAppear p).transit (appearStart u.disp (u.pages p).back)
        (appearEnd (u.pages p).back) p (u.pages p).options .appear malloc node := by
  have hpage : ((u.clearHidden p).hook .willAppear p).pages p =
      { u.pages p with page := ((u.clearHidden p).obj p) } := by
    rw [hook_pages]
    exact onlyObjects_modObj u p _ p
  have hdisp : ((u.clearHidden p).hook .willAppear p).disp = u.disp := hook_disp _ _ _
  rw [openAppear, pmAnimaAppear_eq, hpage, hdisp]

theorem backAppear_eq (u : Ui ω) (q p : Addr) (malloc : Bool) :
    u.backAppear q p malloc node =
      (((u.setBack q true).hook .willAppear q).clearHidden q).transit (appearStart u.disp true)
        (appearEnd true) q (u.pages p).options .backAppear malloc node := by
  have hobj : ∀ x, (((u.setBack q true).hook .willAppear q).clearHidden q).pages x =
      { (u.setBack q true).pages x with
        page := (((u.setBack q true).hook .willAppear q).clearHidden q).obj x } := by
    intro x
    rw [← hook_pages (u.setBack q true) .willAppear q]
    exact onlyObjects_modObj _ q _ x
  have hback : ((((u.setBack q true).hook .willAppear q).clearHidden q).pages q).back = true := by
    rw [hobj, pages_setBack, if_pos rfl]
  have hoptions : ((((u.setBack q true).hook .willAppear q).clearHidden q).pages p).options =
      (u.pages p).options := by
    rw [hobj, pages_setBack]
    split <;> rfl
  have hdisp : (((u.setBack q true).hook .willAppear q).clearHidden q).disp = u.disp :=
    hook_disp _ _ _
  rw [backAppear, pmAnimaAppear_eq, hback, hoptions, hdisp]

/-- The two halves of a transition: from `u₁` to `u₂` the page on top, if any, is sent away, and from
`u₃` to `v` the page shown appears, no longer hidden. -/
structure Halves (u : Ui ω) (m : Move) (v u₁ u₂ u₃ : Ui ω) (nodes : AnimNodes := .all) : Prop where
  before : u.SamePicture u₁
  back₁ : ∀ q, m.away = some q → (u₁.pages q).back = m.back
  leave : u₂ =
    match m.away with
    | some q => u₁.transit (disAppearStart m.back) (disAppearEnd u.disp m.back) q m.options
        m.disAppearCb m.mem.disAppear nodes.disAppear
    | none => u₁
  shown : (u₂.clearHidden m.page).SamePicture u₃
  back₃ : (u₃.pages m.page).back = m.back
  appear : v = u₃.transit (appearStart u.disp m.back) (appearEnd m.back) m.page m.options m.appearCb
    m.mem.appear nodes.appear

theorem samePicture_clearHidden {u v : Ui ω} (h : u.SamePicture v) (p : Addr) :
    (u.clearHidden p).SamePicture (v.clearHidden p) := by
  refine ⟨funext fun q => ?_, h.anims, h.disp, h.blocks, h.calls, h.done⟩
  simp only [clearHidden, obj_modObj, h.obj]

theorem openAppear_half {u : Ui ω} {p : Addr} {options : LvPmOpenOptions}
    (hoptions : (u.pages p).options = options) (hback : (u.pages p).back = false) (malloc : Bool) :
    ∃ u₃, (u.clearHidden p).SamePicture u₃ ∧ (u₃.pages p).back = false ∧
      (u.hook .onLoad p).openAppear p malloc node =
        u₃.transit (appearStart u.disp false) (appearEnd false) p options .appear malloc node := by
  refine ⟨((u.hook .onLoad p).clearHidden p).hook .willAppear p,
    (samePicture_clearHidden (samePicture_hook u .onLoad p) p).trans (samePicture_hook _ _ _), ?_, ?_⟩
  · rw [hook_pages, clearHidden, onlyObjects_modObj _ p _ p, hook_pages, hback]
  · rw [openAppear_eq, hook_pages, hoptions, hback, hook_disp]

theorem backUi_halves (u : Ui ω) (c r : Addr) (mem : Mem) :
    ∃ u₁ u₂ u₃, u.Halves ⟨some c, r, true, (u.pages c).options, mem⟩ (u.backUi c r mem nodes)
      u₁ u₂ u₃ nodes := by
  let u₁ := (u.setBack c true).hook .willDisappear c
  let u₂ := u.leave c c true .backDisAppear mem.disAppear nodes.disAppear
  have hleave : u₂ = u₁.transit (disAppearStart true) (disAppearEnd u.disp true) c
      (u.pages c).options .backDisAppear mem.disAppear nodes.disAppear := leave_eq _ _ _ _ _ _
  have hoptions : (u₂.pages c).options = (u.pages c).options := by
    rw [hleave, onlyObjects_transit _ _ _ _ _ _ _ c, hook_pages, pages_setBack, if_pos rfl]
  have hdisp : u₂.disp = u.disp := (sameStatic_leave _ _ _ _ _ _).1
  refine ⟨u₁, u₂, ((u₂.setBack r true).hook .willAppear r).clearHidden r,
    (samePicture_setBack u c true).trans (samePicture_hook _ _ _), ?_, hleave, ?_, ?_, ?_⟩
  · rintro q hq
    cases hq
    rw [hook_pages, pages_setBack, if_pos rfl]
  · exact samePicture_clearHidden
      ((samePicture_setBack u₂ r true).trans (samePicture_hook _ _ _)) r
  · show ((((u₂.setBack r true).hook .willAppear r).clearHidden r).pages r).back = true
    rw [clearHidden, onlyObjects_modObj _ r _ r, hook_pages, pages_setBack, if_pos rfl]
  · rw [backUi, backAppear_eq, hoptions, hdisp]
    rfl

theorem openUi_halves (u : Ui ω) (prev : Option Addr) (p : Addr) (behavior : Option LvPmOpenOptions)
    (mem : Mem) :
    ∃ u₁ u₂ u₃, u.Halves ⟨prev, p, false, behavior.getD (u.pages p).options, mem⟩
      (u.openUi prev p behavior mem nodes) u₁ u₂ u₃ nodes := by
  let u₀ := u.prepare p behavior
  have hsame : u.SamePicture u₀ := samePicture_prepare u p behavior
  have hpage : u₀.pages p =
      { u.pages p with options := behavior.getD (u.pages p).options, back := false } := by
    rw [pages_prepare, if_pos rfl]
  cases prev with
  | none =>
      obtain ⟨u₃, hshown, hback₃, happear⟩ := openAppear_half (u := u₀)
        (congrArg LvPmPage.options hpage) (congrArg LvPmPage.back hpage) mem.appear
      rw [hsame.disp] at happear
      exact ⟨u₀, u₀, u₃, hsame, fun q hq => by simp at hq, rfl, hshown, hback₃, happear⟩
  | some q =>
      let u₁ := (u₀.setBack q false).hook .willDisappear q
      let u₂ := u₀.leave q p false .disAppear mem.disAppear nodes.disAppear
      have hleave : u₂ = u₁.transit (disAppearStart false) (disAppearEnd u₀.disp false) q
          (u₀.pages p).options .disAppear mem.disAppear nodes.disAppear := leave_eq _ _ _ _ _ _
      have hpage₂ : u₂.pages p = { u₀.pages p with page := u₂.obj p } := by
        rw [hleave, onlyObjects_transit _ _ _ _ _ _ _ p, hook_pages, pages_setBack]
        split
        · rw [hpage]
        · rfl
      have hdisp : u₂.disp = u.disp := (sameStatic_leave _ _ _ _ _ _).1.trans hsame.disp
      rw [hpage, hsame.disp] at hleave
      rw [hpage] at hpage₂
      obtain ⟨u₃, hshown, hback₃, happear⟩ := openAppear_half (u := u₂)
        (congrArg LvPmPage.options hpage₂) (congrArg LvPmPage.back hpage₂) mem.appear
      rw [hdisp] at happear
      refine ⟨u₁, u₂, u₃, ?_, ?_, hleave, hshown, hback₃, happear⟩
      · exact hsame.trans ((samePicture_setBack u₀ q false).trans (samePicture_hook _ _ _))
      · rintro x hx
        cases hx
        rw [hook_pages, pages_setBack, if_pos rfl]

theorem Moved.halves {u v : Ui ω} {m : Move} (h : u.Moved m v nodes) :
    ∃ u₁ u₂ u₃, u.Halves m v u₁ u₂ u₃ nodes := by
  cases h with
  | backed c r mem => exact backUi_halves u c r mem
  | opened prev p behavior mem => exact openUi_halves u prev p behavior mem

theorem options_leave (u : Ui ω) (q p : Addr) (back : Bool) (cb : CompleteCb) (malloc : Bool)
    (x : Addr) : ((u.leave q p back cb malloc node).pages x).options = (u.pages x).options := by
  rw [leave_eq, onlyObjects_transit _ _ _ _ _ _ _ x, hook_pages, pages_setBack]
  split <;> rfl

theorem options_openAppear (u : Ui ω) (p : Addr) (malloc : Bool) (x : Addr) :
    ((u.openAppear p malloc node).pages x).options = (u.pages x).options := by
  rw [openAppear_eq, onlyObjects_transit _ _ _ _ _ _ _ x, hook_pages, clearHidden,
    onlyObjects_modObj _ p _ x]

theorem options_backAppear (u : Ui ω) (q p : Addr) (malloc : Bool) (x : Addr) :
    ((u.backAppear q p malloc node).pages x).options = (u.pages x).options := by
  rw [backAppear_eq, onlyObjects_transit _ _ _ _ _ _ _ x, clearHidden, onlyObjects_modObj _ q _ x,
    hook_pages, pages_setBack]
  split <;> rfl

theorem options_openUi (u : Ui ω) (prev : Option Addr) (q : Addr)
    (behavior : Option LvPmOpenOptions) (mem : Mem) (p : Addr) :
    ((u.openUi prev q behavior mem).pages p).options =
      if p = q then behavior.getD (u.pages q).options else (u.pages p).options := by
  have hprepare : ((u.openUi prev q behavior mem).pages p).options =
      ((u.prepare q behavior).pages p).options := by
    cases prev with
    | none => simp only [openUi, options_openAppear, hook_pages]
    | some c => simp only [openUi, options_openAppear, hook_pages, options_leave]
  rw [hprepare, pages_prepare]
  split
  · rw [‹p = q›]
  · rfl

/-- Only an open stores options, in the page it opens. -/
theorem Moved.options {u v : Ui ω} {m : Move} (h : u.Moved m v) (p : Addr) :
    (v.pages p).options = (u.pages p).options ∨ (v.pages p).options = m.options := by
  cases h with
  | backed c r mem =>
      left
      rw [backUi, options_backAppear, options_leave]
  | opened prev q behavior mem =>
      rw [options_openUi]
      split
      · exact Or.inr rfl
      · exact Or.inl rfl

/-! ### What a transition does to the picture -/

theorem SamePicture.settled_eq {u v : Ui ω} (h : u.SamePicture v) : v.settled = u.settled := by
  funext p ax
  simp only [settled, h.anims, h.obj]

theorem settled_clearHidden (u : Ui ω) (p : Addr) : (u.clearHidden p).settled = u.settled := by
  funext q ax
  have hcoord : ((u.clearHidden p).obj q).coord ax = (u.obj q).coord ax :=
    proj_modObj (·.coord ax) u p q fun o => by cases ax <;> rfl
  simp only [settled, hcoord]
  rfl

theorem lvCoord_appearEnd (back : Bool) (ax : ExecCb) :
    lvCoord (appearEnd back ax) = appearEnd back ax := by
  cases back <;> cases ax <;> rfl

theorem lvCoord_disAppearEnd (disp : Display) (back : Bool) (ax : ExecCb) :
    lvCoord (disAppearEnd disp back ax) = disAppearEnd disp back ax := by
  obtain ⟨hx, hx'⟩ := disp.hor_range
  obtain ⟨hy, hy'⟩ := disp.ver_range
  refine lvCoord_of_range ?_ ?_ <;> cases back <;> cases ax <;> simp [disAppearEnd] <;> omega

section Moved

variable {u v : Ui ω} {m : Move}

/-- The running animations after a transition. -/
theorem Moved.lookup (h : u.Moved m v) (key : AnimKey) :
    v.anims.lookup key =
      if key.1 = m.page ∧ m.appearing = some key.2 then
        some ⟨appearStart u.disp m.back key.2, appearEnd m.back key.2,
          ⟨m.page, m.appearCb, m.options, u.calls + m.away.toList.length⟩⟩
      else if m.away = some key.1 ∧ m.leaving = some key.2 then
        some ⟨disAppearStart m.back key.2, disAppearEnd u.disp m.back key.2,
          ⟨key.1, m.disAppearCb, m.options, u.calls⟩⟩
      else u.anims.lookup key := by
  obtain ⟨u₁, u₂, u₃, hh⟩ := h.halves
  have hanims : u₃.anims = u₂.anims := hh.shown.anims
  have hcalls : u₃.calls = u₂.calls := hh.shown.calls
  have hleave := hh.leave
  cases haway : m.away with
  | none =>
      simp only [haway] at hleave
      rw [hh.appear, lookup_transit, hanims, hcalls, hleave, hh.before.anims, hh.before.calls]
      simp [Move.appearing]
  | some q =>
      simp only [haway] at hleave
      rw [hh.appear, lookup_transit, hanims, hcalls, hleave, lookup_transit,
        (ledger_transit _ _ _ _ _ _ _ _).1, hh.before.anims, hh.before.calls]
      simp only [Move.appearing, Move.leaving, Option.some.injEq, Option.toList_some,
        List.length_singleton, @eq_comm _ q]
      split
      · rfl
      · split
        · rw [‹key.1 = q ∧ _›.1]
        · rfl

theorem Moved.settled (h : u.Moved m v) (p : Addr) (ax : ExecCb) :
    v.settled p ax =
      if p = m.page ∧ m.appearing = some ax then appearEnd m.back ax
      else if m.away = some p ∧ m.leaving = some ax then disAppearEnd u.disp m.back ax
      else u.settled p ax := by
  obtain ⟨u₁, u₂, u₃, hh⟩ := h.halves
  have hthree : u₃.settled = u₂.settled := hh.shown.settled_eq.trans (settled_clearHidden u₂ m.page)
  rw [hh.appear, settled_transit, hthree, lvCoord_appearEnd]
  apply if_congr Iff.rfl rfl
  have hleave := hh.leave
  cases haway : m.away with
  | none =>
      simp only [haway] at hleave
      simp [hleave, hh.before.settled_eq]
  | some q =>
      simp only [haway] at hleave
      rw [hleave, settled_transit, hh.before.settled_eq, lvCoord_disAppearEnd]
      simp only [Option.some.injEq, @eq_comm _ q, Move.leaving]

theorem Moved.pending (h : u.Moved m v) (f : CompleteCb → LvPmOpenOptions → Bool) (p : Addr)
    (ax : ExecCb) :
    v.pending f p ax =
      if p = m.page ∧ m.appearing = some ax then f m.appearCb m.options
      else if m.away = some p ∧ m.leaving = some ax then f m.disAppearCb m.options
      else u.pending f p ax := by
  simp only [Ui.pending, h.lookup]
  by_cases happear : p = m.page ∧ m.appearing = some ax
  · simp only [if_pos happear]
  · simp only [if_neg happear]
    by_cases hleave : m.away = some p ∧ m.leaving = some ax
    · simp only [if_pos hleave]
    · simp only [if_neg hleave]

theorem hides_appearCb (m : Move) (options : LvPmOpenOptions) : hides m.appearCb options = false := by
  cases hb : m.back <;> simp [Move.appearCb, hb, hides]

theorem Moved.hidden (h : u.Moved m v) (p : Addr) :
    (v.obj p).hidden =
      if p = m.page then false
      else ((u.obj p).hidden ||
        decide (m.away = some p ∧ m.leaving = none) && hides m.disAppearCb m.options) := by
  obtain ⟨u₁, u₂, u₃, hh⟩ := h.halves
  rw [hh.appear, hidden_transit, hides_appearCb, Bool.and_false, Bool.or_false, hh.shown.obj,
    clearHidden, obj_modObj]
  by_cases hp : p = m.page
  · rw [if_pos hp, if_pos hp]
  rw [if_neg hp, if_neg hp]
  have hleave := hh.leave
  cases haway : m.away with
  | none =>
      simp only [haway] at hleave
      simp [hleave, hh.before.obj]
  | some q =>
      simp only [haway] at hleave
      rw [hleave, hidden_transit, hh.before.obj]
      simp only [Option.some.injEq, @eq_comm _ q, Move.leaving]

theorem Moved.radius (h : u.Moved m v) (p : Addr) :
    (v.obj p).radius =
      if p = m.page ∧ m.appearing = some .translateY ∨ m.away = some p ∧ m.leaving = some .translateY
      then if m.back then 0 else 10
      else (u.obj p).radius := by
  obtain ⟨u₁, u₂, u₃, hh⟩ := h.halves
  have hthree : (u₃.obj p).radius = (u₂.obj p).radius := by
    rw [hh.shown.obj]
    exact proj_modObj LvObj.radius u₂ m.page p fun _ => rfl
  rw [hh.appear, radius_transit, hthree, hh.back₃, ← Move.appearing]
  have hleave := hh.leave
  by_cases hp : p = m.page ∧ m.appearing = some .translateY
  · rw [if_pos hp, if_pos (Or.inl hp)]
  rw [if_neg hp]
  simp only [hp, false_or]
  cases haway : m.away with
  | none =>
      simp only [haway] at hleave
      simp [hleave, hh.before.obj]
  | some q =>
      simp only [haway] at hleave
      rw [hleave, radius_transit, hh.before.obj, hh.back₁ q haway]
      simp only [Option.some.injEq, @eq_comm _ q, Move.leaving]

end Moved

/-! ### Steps of LVGL -/

theorem coord_exec (u : Ui ω) (key : AnimKey) (v : Int) (q : Addr) (ax : ExecCb) :
    ((u.exec key v).obj q).coord ax = if (q, ax) = key then lvCoord v else (u.obj q).coord ax := by
  obtain ⟨p, ax'⟩ := key
  rw [obj_exec]
  by_cases hq : q = p
  · cases ax <;> cases ax' <;> simp [hq, LvObj.coord]
  · simp [hq]

theorem hidden_exec (u : Ui ω) (key : AnimKey) (v : Int) (q : Addr) :
    ((u.exec key v).obj q).hidden = (u.obj q).hidden := by
  rw [obj_exec]
  split
  · split <;> rfl
  · rfl

theorem radius_exec (u : Ui ω) (key : AnimKey) (v : Int) (q : Addr) :
    ((u.exec key v).obj q).radius = (u.obj q).radius := by
  rw [obj_exec]
  split
  · split <;> rfl
  · rfl

theorem animReady_of_lookup {u : Ui ω} {key : AnimKey} {a : LvAnim}
    (h : u.anims.lookup key = some a) :
    u.animReady key = ((u.exec key a.endValue).lvAnimDel key).animaReadyCb a := by
  simp only [animReady, h]

theorem animReady_of_none {u : Ui ω} {key : AnimKey} (h : u.anims.lookup key = none) :
    u.animReady key = u := by
  simp only [animReady, h]

theorem anims_animReady (u : Ui ω) (key : AnimKey) :
    (u.animReady key).anims = u.anims.erase key := by
  cases h : u.anims.lookup key with
  | none =>
      rw [animReady_of_none h]
      refine AList.ext (List.kerase_of_notMem_keys fun hmem => ?_).symm
      exact AList.lookup_eq_none.mp h (AList.mem_keys.mpr hmem)
  | some a =>
      rw [animReady_of_lookup h]
      simp only [animaReadyCb, complete_anims, lvAnimDel, anims_exec]

theorem lookup_animReady (u : Ui ω) (key key' : AnimKey) :
    (u.animReady key).anims.lookup key' = if key' = key then none else u.anims.lookup key' := by
  rw [anims_animReady]
  by_cases h : key' = key
  · rw [h, AList.lookup_erase, if_pos rfl]
  · rw [AList.lookup_erase_ne h, if_neg h]

theorem obj_animReady {u : Ui ω} {key : AnimKey} {a : LvAnim} (h : u.anims.lookup key = some a)
    (q : Addr) :
    (u.animReady key).obj q =
      if q = a.userData.pmPage ∧ hides a.userData.cb a.userData.options then
        { (u.exec key a.endValue).obj q with hidden := true }
      else (u.exec key a.endValue).obj q := by
  rw [animReady_of_lookup h]
  exact obj_complete ((u.exec key a.endValue).lvAnimDel key) a.userData.block _ _ _ _

theorem pending_animReady (u : Ui ω) (f : CompleteCb → LvPmOpenOptions → Bool) (key : AnimKey)
    (q : Addr) (ax : ExecCb) :
    (u.animReady key).pending f q ax = if (q, ax) = key then false else u.pending f q ax := by
  simp only [pending, lookup_animReady]
  by_cases h : (q, ax) = key
  · simp only [if_pos h]
  · simp only [if_neg h]

theorem hidden_animReady {u : Ui ω} (hu : u.Tagged) (key : AnimKey) (q : Addr) :
    ((u.animReady key).obj q).hidden =
      ((u.obj q).hidden || decide (q = key.1) && u.pending hides key.1 key.2) := by
  cases h : u.anims.lookup key with
  | none => simp [animReady_of_none h, pending, h]
  | some a =>
      have hhidden := hidden_exec u key a.endValue q
      have hpending : u.pending hides key.1 key.2 = hides a.userData.cb a.userData.options := by
        simp only [pending, h]
      rw [obj_animReady h, hu key a h, hpending, ← hhidden]
      by_cases hq : q = key.1
      · cases hides a.userData.cb a.userData.options <;> simp [hq]
      · simp [hq]

/-- A step of LVGL leaves the rest positions alone. -/
theorem settled_step (u : Ui ω) (x : UiAction) : (u.step x).settled = u.settled := by
  funext q ax
  cases x with
  | layout p =>
      have hcoord : ((u.layout p).obj q).coord ax = (u.obj q).coord ax :=
        proj_modObj (·.coord ax) u p q fun o => by cases ax <;> rfl
      simp only [step, settled, hcoord]
      rfl
  | progress key v =>
      simp only [step, animProgress]
      cases h : u.anims.lookup key with
      | none => rfl
      | some a =>
          simp only [settled, anims_exec, coord_exec]
          by_cases hkey : (q, ax) = key
          · rw [← hkey] at h
            simp only [h]
          · simp only [if_neg hkey]
  | ready key =>
      simp only [step]
      cases h : u.anims.lookup key with
      | none => rw [animReady_of_none h]
      | some a =>
          have hcoord : ((u.animReady key).obj q).coord ax =
              ((u.exec key a.endValue).obj q).coord ax := by
            rw [obj_animReady h]
            split
            · cases ax <;> rfl
            · rfl
          simp only [settled, lookup_animReady, hcoord, coord_exec]
          by_cases hkey : (q, ax) = key
          · rw [← hkey] at h
            simp only [if_pos hkey, h]
          · simp only [if_neg hkey]

/-- A step of LVGL hides no page that was not going to be hidden, and shows none. -/
theorem settledHidden_step {u : Ui ω} (hu : u.Tagged) (x : UiAction) :
    (u.step x).settledHidden = u.settledHidden := by
  funext q
  cases x with
  | layout p =>
      have hhidden : ((u.layout p).obj q).hidden = (u.obj q).hidden :=
        proj_modObj LvObj.hidden u p q fun _ => rfl
      simp only [step, settledHidden, hhidden]
      rfl
  | progress key v =>
      simp only [step, animProgress]
      cases h : u.anims.lookup key with
      | none => rfl
      | some a => simp only [settledHidden, hidden_exec, pending, anims_exec]
  | ready key =>
      obtain ⟨p, ax⟩ := key
      simp only [step, settledHidden, hidden_animReady hu, pending_animReady, Prod.mk.injEq]
      by_cases hq : q = p
      · -- the completion that was pending has taken place
        cases ax
        · cases hX : u.pending hides p .translateX <;> simp [hq, hX]
        · cases hX : u.pending hides p .translateX <;>
            cases hY : u.pending hides p .translateY <;> simp [hq, hX, hY]
      · simp [hq]

theorem radius_step (u : Ui ω) (x : UiAction) (q : Addr) :
    ((u.step x).obj q).radius = (u.obj q).radius := by
  cases x with
  | layout p =>
      rw [step, layout]
      exact proj_modObj LvObj.radius u p q fun _ => rfl
  | progress key v =>
      simp only [step, animProgress]
      split
      · rfl
      · exact radius_exec u key v q
  | ready key =>
      simp only [step]
      cases h : u.anims.lookup key with
      | none => rw [animReady_of_none h]
      | some a =>
          rw [obj_animReady h, ← radius_exec u key a.endValue q]
          split <;> rfl

/-- Animations that a step of LVGL leaves running. -/
theorem lookup_step {u : Ui ω} {x : UiAction} {key : AnimKey} {a : LvAnim}
    (h : (u.step x).anims.lookup key = some a) : u.anims.lookup key = some a := by
  cases x with
  | layout p => exact h
  | progress key' v =>
      simp only [step, animProgress] at h
      split at h
      · exact h
      · rwa [anims_exec] at h
  | ready key' =>
      simp only [step, lookup_animReady] at h
      split at h
      · cases h
      · exact h

theorem onlyObjects_step (u : Ui ω) (x : UiAction) : u.OnlyObjects (u.step x) := by
  cases x with
  | layout p =>
      exact onlyObjects_modObj u p fun o =>
        { o with coordsWidth := o.width, coordsHeight := o.height }
  | progress key v =>
      simp only [step, animProgress]
      split
      · exact onlyObjects_of_pages rfl
      · exact onlyObjects_exec u key v
  | ready key =>
      simp only [step, animReady]
      split
      · exact onlyObjects_of_pages rfl
      · exact (onlyObjects_exec u key _).trans
          (onlyObjects_complete ((u.exec key _).lvAnimDel key) 0 _ _ _)

theorem Tagged.step {u : Ui ω} (hu : u.Tagged) (x : UiAction) : (u.step x).Tagged :=
  fun key a h => hu key a (lookup_step h)

theorem Moved.tagged {u v : Ui ω} {m : Move} (h : u.Moved m v) (hu : u.Tagged) : v.Tagged := by
  intro key a ha
  rw [h.lookup] at ha
  split at ha
  · cases ha
    exact ‹key.1 = m.page ∧ _›.1.symm
  · split at ha
    · cases ha
      rfl
    · exact hu key a ha

end Ui

end SwmLvgl.Pm
