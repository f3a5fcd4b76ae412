import SwmLvgl.PmStart

/-! The picture a state settles to. Where each page comes to rest, whether it comes to rest hidden and
which completions are still to come are read off the running animations; here is what the pieces of a
transition do to each. -/

namespace SwmLvgl.Pm

variable {ω : Type}

/-- The style coordinate on an axis. -/
def LvObj.coord (o : LvObj) : ExecCb → Int
  | .translateX => o.x
  | .translateY => o.y

namespace Ui

/-- The number of running page animations. -/
def running (u : Ui ω) : Nat := u.anims.entries.length

def obj (u : Ui ω) (p : Addr) : LvObj := (u.pages p).page

/-- The page animation running on an axis will complete with a callback that satisfies `f`. -/
def pending (f : CompleteCb → LvPmOpenOptions → Bool) (u : Ui ω) (p : Addr) (ax : ExecCb) : Bool :=
  match u.anims.lookup (p, ax) with
  | some a => f a.userData.cb a.userData.options
  | none => false

/-- Where the page comes to rest on an axis. -/
def settled (u : Ui ω) (p : Addr) (ax : ExecCb) : Int :=
  match u.anims.lookup (p, ax) with
  | some a => lvCoord a.endValue
  | none => (u.obj p).coord ax

/-- Whether the page comes to rest hidden. -/
def settledHidden (u : Ui ω) (p : Addr) : Bool :=
  (u.obj p).hidden || u.pending hides p .translateX || u.pending hides p .translateY

/-- Every page animation completes for the page it moves. -/
def Tagged (u : Ui ω) : Prop := ∀ key a, u.anims.lookup key = some a → a.userData.pmPage = key.1

theorem running_eq_zero_iff {u : Ui ω} : u.running = 0 ↔ ∀ key, u.anims.lookup key = none := by
  rw [running, List.length_eq_zero_iff]
  constructor
  · intro h key
    rw [AList.lookup_eq_none, AList.mem_keys, AList.keys, h]
    simp
  · intro h
    rw [List.eq_nil_iff_forall_not_mem]
    rintro ⟨key, a⟩ hmem
    have : u.anims.lookup key = some a := AList.mem_lookup_iff.mpr hmem
    rw [h key] at this
    cases this

theorem pending_of_quiet {u : Ui ω} (h : u.running = 0) (f : CompleteCb → LvPmOpenOptions → Bool)
    (p : Addr) (ax : ExecCb) : u.pending f p ax = false := by
  rw [pending, running_eq_zero_iff.mp h]

theorem settled_of_quiet {u : Ui ω} (h : u.running = 0) (p : Addr) (ax : ExecCb) :
    u.settled p ax = (u.obj p).coord ax := by
  rw [settled, running_eq_zero_iff.mp h]

theorem settledHidden_of_quiet {u : Ui ω} (h : u.running = 0) (p : Addr) :
    u.settledHidden p = (u.obj p).hidden := by
  simp [settledHidden, pending_of_quiet h]

theorem obj_modObj (u : Ui ω) (p q : Addr) (f : LvObj → LvObj) :
    (u.modObj p f).obj q = if q = p then f (u.obj p) else u.obj q := by
  simp only [obj, modObj, modPage_pages]
  split <;> rfl

/-- What a change of an object does not concern. -/
theorem proj_modObj {β : Type*} (g : LvObj → β) (u : Ui ω) (p q : Addr) {f : LvObj → LvObj}
    (h : ∀ o, g (f o) = g o) : g ((u.modObj p f).obj q) = g (u.obj q) := by
  rw [obj_modObj]
  split
  · rw [h, ‹q = p›]
  · rfl

theorem obj_modPage (u : Ui ω) (p : Addr) {f : LvPmPage ω → LvPmPage ω}
    (h : ∀ pg, (f pg).page = pg.page) : (u.modPage p f).obj = u.obj := by
  funext q
  simp only [obj, modPage_pages]
  split
  · rw [h, ‹q = p›]
  · rfl

@[simp] theorem obj_setBack (u : Ui ω) (p : Addr) (b : Bool) : (u.setBack p b).obj = u.obj :=
  obj_modPage u p fun _ => rfl

@[simp] theorem obj_setOptions (u : Ui ω) (p : Addr) (options : LvPmOpenOptions) :
    (u.setOptions p options).obj = u.obj :=
  obj_modPage u p fun _ => rfl

@[simp] theorem obj_hook (u : Ui ω) (h : Hook) (p : Addr) : (u.hook h p).obj = u.obj := by
  funext q
  simp only [obj, hook_pages]

/-- `v` differs from `u` at most in the callbacks run, the options stored and the `_back` flags. -/
structure SamePicture (u v : Ui ω) : Prop where
  obj : v.obj = u.obj
  anims : v.anims = u.anims
  disp : v.disp = u.disp
  blocks : v.blocks = u.blocks
  calls : v.calls = u.calls
  done : v.done = u.done

theorem SamePicture.trans {u v w : Ui ω} (h : u.SamePicture v) (h' : v.SamePicture w) :
    u.SamePicture w :=
  ⟨h'.obj.trans h.obj, h'.anims.trans h.anims, h'.disp.trans h.disp, h'.blocks.trans h.blocks,
    h'.calls.trans h.calls, h'.done.trans h.done⟩

theorem samePicture_setBack (u : Ui ω) (p : Addr) (b : Bool) : u.SamePicture (u.setBack p b) :=
  ⟨obj_setBack u p b, rfl, rfl, rfl, rfl, rfl⟩

theorem samePicture_hook (u : Ui ω) (h : Hook) (p : Addr) : u.SamePicture (u.hook h p) := by
  refine ⟨obj_hook u h p, hook_anims u h p, hook_disp u h p, ?_, ?_, ?_⟩ <;> unfold hook <;> split <;>
    rfl

theorem samePicture_prepare (u : Ui ω) (p : Addr) (behavior : Option LvPmOpenOptions) :
    u.SamePicture (u.prepare p behavior) := by
  cases behavior with
  | none => exact samePicture_setBack u p false
  | some b =>
      have h : u.SamePicture (u.setOptions p b) := ⟨obj_setOptions u p b, rfl, rfl, rfl, rfl, rfl⟩
      exact h.trans (samePicture_setBack _ p false)

theorem ledger_complete (u : Ui ω) (block : Nat) (cb : CompleteCb) (p : Addr)
    (options : LvPmOpenOptions) :
    (u.complete block cb p options).calls = u.calls ∧
      (u.complete block cb p options).blocks = u.blocks ∧
      (u.complete block cb p options).done = u.done ++ [block] := by
  have hhook : ∀ (v : Ui ω) h, (v.hook h p).calls = v.calls ∧ (v.hook h p).blocks = v.blocks ∧
      (v.hook h p).done = v.done := fun v h =>
    ⟨(samePicture_hook v h p).calls, (samePicture_hook v h p).blocks, (samePicture_hook v h p).done⟩
  cases cb with
  | appear => simp [complete, appearCompleteCb, hhook]
  | backAppear => simp [complete, backAppearCompleteCb, hhook]
  | backDisAppear =>
      simp only [complete, backDisAppearCompleteCb, hhook]
      exact ⟨rfl, rfl, rfl⟩
  | disAppear =>
      simp only [complete, disAppearCompleteCb, hhook]
      split <;> exact ⟨rfl, rfl, rfl⟩

theorem obj_complete (u : Ui ω) (block : Nat) (cb : CompleteCb) (p q : Addr)
    (options : LvPmOpenOptions) :
    (u.complete block cb p options).obj q =
      if q = p ∧ hides cb options then { u.obj q with hidden := true } else u.obj q := by
  rw [obj, complete_pages]
  by_cases h : hides cb options
  · simp only [h, if_true, and_true]
    have := obj_modObj u p q fun o => { o with hidden := true }
    rw [obj, ← addHidden] at this
    rw [this]
    split <;> simp [*]
  · simp [h, obj]

theorem obj_exec (u : Ui ω) (key : AnimKey) (v : Int) (q : Addr) :
    (u.exec key v).obj q =
      if q = key.1 then
        match key.2 with
        | .translateX => { u.obj q with x := lvCoord v }
        | .translateY => { u.obj q with y := lvCoord v }
      else u.obj q := by
  obtain ⟨p, ax⟩ := key
  cases ax <;> simp only [exec, lvObjSetX, lvObjSetY, obj_modObj] <;> split <;> simp [*]

theorem anims_exec (u : Ui ω) (key : AnimKey) (v : Int) : (u.exec key v).anims = u.anims := by
  unfold exec
  split <;> rfl

theorem lookup_lvAnimStart (u : Ui ω) (key key' : AnimKey) (a : LvAnim) :
    (u.lvAnimStart key a).anims.lookup key' = if key' = key then some a else u.anims.lookup key' := by
  simp only [lvAnimStart, anims_exec, lvAnimDel]
  by_cases h : key' = key
  · rw [h, AList.lookup_insert, if_pos rfl]
  · rw [AList.lookup_insert_ne h, AList.lookup_erase_ne h, if_neg h]

theorem obj_popupRadius (u : Ui ω) (p q : Addr) (ax : ExecCb) :
    (u.popupRadius p ax).obj q =
      if q = p ∧ ax = .translateY then
        { u.obj q with radius := if (u.pages p).back then 0 else 10 }
      else u.obj q := by
  cases ax with
  | translateX => simp [popupRadius]
  | translateY =>
      simp only [popupRadius, lvObjSetStyleRadius, obj_modObj, and_true]
      split
      · rw [‹q = p›]
        congr 1
        split <;> rfl
      · rfl

section Transit

variable (u : Ui ω) (start stop : ExecCb → Int) (p : Addr) (behavior : LvPmOpenOptions)
  (cb : CompleteCb) (malloc : Bool)

theorem lookup_transit (key : AnimKey) :
    (u.transit start stop p behavior cb malloc).anims.lookup key =
      if key.1 = p ∧ startedAxis behavior.animation malloc = some key.2 then
        some ⟨start key.2, stop key.2, ⟨p, cb, behavior, u.calls⟩⟩
      else u.anims.lookup key := by
  unfold transit
  cases startedAxis behavior.animation malloc with
  | none => simp [openCall]
  | some ax =>
      have hanims : ((u.openCall behavior.animation malloc).popupRadius p ax).anims = u.anims := by
        cases ax <;> rfl
      obtain ⟨q, ax'⟩ := key
      simp only [lookup_lvAnimStart, hanims, Prod.mk.injEq, Option.some.injEq]
      by_cases h : q = p ∧ ax' = ax
      · rw [if_pos h, if_pos ⟨h.1, h.2.symm⟩, h.2]
      · rw [if_neg h, if_neg fun h' => h ⟨h'.1, h'.2.symm⟩]

theorem obj_transit (q : Addr) :
    (u.transit start stop p behavior cb malloc).obj q =
      if q = p then
        match startedAxis behavior.animation malloc with
        | none => if hides cb behavior then { u.obj q with hidden := true } else u.obj q
        | some .translateX => { u.obj q with x := lvCoord (start .translateX) }
        | some .translateY =>
            { u.obj q with
              radius := if (u.pages p).back then 0 else 10
              y := lvCoord (start .translateY) }
      else u.obj q := by
  unfold transit
  have hopen : (u.openCall behavior.animation malloc).obj = u.obj := rfl
  cases startedAxis behavior.animation malloc with
  | none =>
      simp only [obj_complete, hopen]
      by_cases h : q = p <;> simp [h]
  | some ax =>
      have hstart : ∀ (v : Ui ω) (a : LvAnim), (v.lvAnimStart (p, ax) a).obj q =
          (v.exec (p, ax) a.startValue).obj q := by
        intro v a
        simp only [lvAnimStart, obj_exec]
        rfl
      simp only [hstart, obj_exec, obj_popupRadius, hopen]
      cases ax <;> by_cases h : q = p <;> (simp [h]; try rfl)

/-- The page keeps its place on the axes where nothing starts. -/
theorem coord_transit (q : Addr) {ax : ExecCb}
    (h : ¬(q = p ∧ startedAxis behavior.animation malloc = some ax)) :
    ((u.transit start stop p behavior cb malloc).obj q).coord ax = (u.obj q).coord ax := by
  rw [obj_transit]
  by_cases hq : q = p
  · have hax : startedAxis behavior.animation malloc ≠ some ax := fun h' => h ⟨hq, h'⟩
    rw [if_pos hq]
    split
    · split <;> cases ax <;> rfl
    · cases ax with
      | translateX => exact absurd ‹_› hax
      | translateY => rfl
    · cases ax with
      | translateX => rfl
      | translateY => exact absurd ‹_› hax
  · rw [if_neg hq]

theorem settled_transit (q : Addr) (ax : ExecCb) :
    (u.transit start stop p behavior cb malloc).settled q ax =
      if q = p ∧ startedAxis behavior.animation malloc = some ax then lvCoord (stop ax)
      else u.settled q ax := by
  simp only [settled, lookup_transit]
  by_cases h : q = p ∧ startedAxis behavior.animation malloc = some ax
  · simp only [if_pos h]
  · simp only [if_neg h, coord_transit u start stop p behavior cb malloc q h]

theorem hidden_transit (q : Addr) :
    ((u.transit start stop p behavior cb malloc).obj q).hidden =
      ((u.obj q).hidden ||
        decide (q = p ∧ startedAxis behavior.animation malloc = none) && hides cb behavior) := by
  rw [obj_transit]
  by_cases hq : q = p
  · rw [if_pos hq]
    split
    · cases hides cb behavior <;> simp [*]
    · simp [*]
    · simp [*]
  · simp [hq]

theorem radius_transit (q : Addr) :
    ((u.transit start stop p behavior cb malloc).obj q).radius =
      if q = p ∧ startedAxis behavior.animation malloc = some .translateY then
        if (u.pages p).back then 0 else 10
      else (u.obj q).radius := by
  rw [obj_transit]
  by_cases hq : q = p
  · rw [if_pos hq]
    split
    · split <;> simp [*]
    · simp [*]
    · simp [*]
  · simp [hq]

theorem ledger_transit (node : Bool) :
    (u.transit start stop p behavior cb malloc node).calls = u.calls + 1 ∧
      (u.transit start stop p behavior cb malloc node).blocks =
        (u.openCall behavior.animation malloc).blocks ∧
      (u.transit start stop p behavior cb malloc node).done =
        if startedAxis behavior.animation malloc = none then u.done ++ [u.calls] else u.done := by
  unfold transit
  cases startedAxis behavior.animation malloc with
  | none => exact ledger_complete (u.openCall behavior.animation malloc) _ _ _ _
  | some ax => cases node <;> cases ax <;> exact ⟨rfl, rfl, rfl⟩

end Transit

end Ui

theorem Started.running {s : State ω} (h : Started s) : s.ui.running = 0 := by
  rw [Ui.running, h.anims]
  rfl

theorem Started.tagged {s : State ω} (h : Started s) : s.ui.Tagged := by
  intro key a ha
  rw [h.anims] at ha
  cases ha

end SwmLvgl.Pm
