import SwmLvgl.PmStart

/-! Memory safety of the page manager, for runs that also create pages and initialise again. The index
invariant `Wf` is kept by every operation, so the only fault a run can end with is the call of a null
`onLoad`: no access to the history or the router is out of bounds and no null router slot is followed. -/

namespace SwmLvgl.Pm

variable {ω : Type}

/-- A call of one of the four functions of `pm.h`, or a step of LVGL. A page created gets arbitrary
callbacks, and its allocation may fail. -/
inductive ApiAction (ω : Type) where
  | init
  | createPage (id : PageId) (lifecycle : Lifecycle ω) (malloc : Bool)
  | page (a : Action)

def apiStep (s : State ω) : ApiAction ω → Except Fault (State ω)
  | .init => .ok s.lvPmInit
  | .createPage id lifecycle malloc => (s.lvPmCreatePage id.id lifecycle malloc).map Prod.snd
  | .page a => step s a

/-- Every entry below the length is below `LV_PM_PAGE_NUM` and names a router slot that is not null. -/
def HistoryOk (s : State ω) : Prop :=
  s.lvPmHistoryLen.toNat ≤ lvPmPageNum ∧
    ∀ id ∈ s.stack, id.toNat < lvPmPageNum ∧ ∃ p, s.slot id = some p

/-- What one operation may do to the length: an open counts at most one entry in and a back at most one
out, without wrapping, and a back leaves a non-empty history non-empty. -/
def LengthStep (s : State ω) (a : ApiAction ω) (t : State ω) : Prop :=
  match a with
  | .init => t.lvPmHistoryLen.toNat = 0
  | .page (.openPage _ _ _) =>
      t.lvPmHistoryLen.toNat = s.lvPmHistoryLen.toNat ∨
        t.lvPmHistoryLen.toNat = s.lvPmHistoryLen.toNat + 1
  | .page (.back _) =>
      (t.lvPmHistoryLen.toNat = s.lvPmHistoryLen.toNat ∨
        t.lvPmHistoryLen.toNat + 1 = s.lvPmHistoryLen.toNat) ∧
      (0 < s.lvPmHistoryLen.toNat → 0 < t.lvPmHistoryLen.toNat)
  | _ => t.lvPmHistoryLen.toNat = s.lvPmHistoryLen.toNat

theorem historyOk_of_wf {s : State ω} (hs : s.Wf) : HistoryOk s := by
  refine ⟨hs.len_le, fun id hid => ?_⟩
  obtain ⟨p, hp⟩ := Option.isSome_iff_exists.mp (hs.named id hid)
  exact ⟨State.lt_of_slot hp, p, hp⟩

theorem wf_lvPmInit (s : State ω) : s.lvPmInit.Wf := wf_of_empty rfl

theorem lvPmCreatePage_wf {s : State ω} (hs : s.Wf) (id : PageId) (lifecycle : Lifecycle ω)
    (malloc : Bool) : ∃ r t, s.lvPmCreatePage id.id lifecycle malloc = .ok (r, t) ∧ t.Wf ∧
      t.lvPmHistoryLen = s.lvPmHistoryLen := by
  cases malloc with
  | false => exact ⟨none, s, rfl, hs, rfl⟩
  | true =>
      refine ⟨_, _, lvPmCreatePage_eq s id lifecycle, ⟨hs.len_le, fun x hx => ?_⟩, rfl⟩
      rw [slot_created]
      split
      · rfl
      · exact hs.named x hx

theorem length_openStack (k : List UInt8) (id : UInt8) (behavior : Option LvPmOpenOptions) :
    (openStack k id behavior).length = k.length ∨ (openStack k id behavior).length = k.length + 1 := by
  have hreplace : (k.dropLast ++ [id]).length = k.length ∨
      (k.dropLast ++ [id]).length = k.length + 1 := by
    rw [List.length_append, List.length_dropLast, List.length_singleton]
    omega
  unfold openStack
  split
  · exact hreplace
  · exact hreplace
  · exact Or.inr (by simp)

theorem StepTo.lengthStep {s t : State ω} {a : Action} (hs : s.Wf) (h : StepTo s a t) :
    LengthStep s (.page a) t := by
  have ht := h.wf hs
  cases h with
  | refused _ => exact Or.inl rfl
  | noBack _ => exact ⟨Or.inl rfl, id⟩
  | lvgl => rfl
  | opened _ _ h =>
      simp only [LengthStep, ← State.length_stack hs, ← State.length_stack ht, h.stack]
      exact length_openStack _ _ _
  | back hlen h =>
      simp only [LengthStep, ← State.length_stack hs, ← State.length_stack ht, h.stack,
        List.length_dropLast]
      exact ⟨Or.inr (by omega), fun _ => by omega⟩

/-- One operation keeps the index invariant, or calls a null `onLoad`. -/
theorem apiStep_cases {s : State ω} (hs : s.Wf) (a : ApiAction ω) :
    (∃ t, apiStep s a = .ok t ∧ t.Wf ∧ LengthStep s a t) ∨
      ∃ p, apiStep s a = .error (.nullOnLoad p) := by
  cases a with
  | init => exact Or.inl ⟨_, rfl, wf_lvPmInit s, rfl⟩
  | createPage id lifecycle malloc =>
      obtain ⟨r, t, ht, hwf, hlen⟩ := lvPmCreatePage_wf hs id lifecycle malloc
      refine Or.inl ⟨t, ?_, hwf, congrArg UInt8.toNat hlen⟩
      rw [apiStep, ht]
      rfl
  | page a =>
      rcases step_cases hs a with ⟨t, ht, hstep⟩ | ⟨-, p, herr, -⟩
      · exact Or.inl ⟨t, ht, hstep.wf hs, hstep.lengthStep hs⟩
      · exact Or.inr ⟨p, herr⟩

theorem apiStep_ok {s t : State ω} (hs : s.Wf) {a : ApiAction ω} (h : apiStep s a = .ok t) :
    t.Wf ∧ LengthStep s a t := by
  rcases apiStep_cases hs a with ⟨u, hu, hwf, hlen⟩ | ⟨p, herr⟩
  · rw [h] at hu
    cases hu
    exact ⟨hwf, hlen⟩
  · rw [h] at herr
    cases herr

/-- A sequence of operations stays well-formed, unless it opens a page that has no `onLoad`. -/
theorem run_apiStep_cases {s : State ω} (hs : s.Wf) (w : List (ApiAction ω)) :
    (∃ t, Run.run apiStep s w = .ok t ∧ t.Wf) ∨
      ∃ p, Run.run apiStep s w = .error (.nullOnLoad p) := by
  induction w generalizing s with
  | nil => exact Or.inl ⟨s, rfl, hs⟩
  | cons a w ih =>
      rcases apiStep_cases hs a with ⟨t, ht, hwf, -⟩ | ⟨p, herr⟩
      · rw [Run.run_cons_of_ok ht]
        exact ih hwf
      · exact Or.inr ⟨p, by rw [Run.run, herr]⟩

/-- **Memory safety.** After a first `lv_pm_init`, any sequence of operations leaves a history whose
entries are all below `LV_PM_PAGE_NUM` and created, every step of it changes the length as
`LengthStep` says, and the sequence can fail only by calling an `onLoad` that was never set. -/
theorem index_safety (disp : Display) (app : ω) (w : List (ApiAction ω)) :
    ((∃ t, Run.run apiStep (boot disp app).lvPmInit w = .ok t ∧ HistoryOk t) ∨
      ∃ p, Run.run apiStep (boot disp app).lvPmInit w = .error (.nullOnLoad p)) ∧
    ∀ v a s t, v ++ [a] <+: w → Run.run apiStep (boot disp app).lvPmInit v = .ok s →
      apiStep s a = .ok t → LengthStep s a t := by
  have hinit := wf_lvPmInit (boot disp app)
  constructor
  · exact (run_apiStep_cases hinit w).imp_left fun h =>
      h.imp fun t ht => ⟨ht.1, historyOk_of_wf ht.2⟩
  · intro v a s t _ hs ht
    have hwf : s.Wf := Run.run_invariant (fun s a t hs h => (apiStep_ok hs h).1) hinit hs
    exact (apiStep_ok hwf ht).2

end SwmLvgl.Pm
