import SwmLvgl.PmStart

/-! The history against the page stack it stands for. `specOpen` and `specBack` say what an open and a
back do to a stack of page ids, with RESET as `pm.h` documents it; `stackStep` runs the page manager
and this stack side by side. The two agree along a run exactly when no accepted RESET finds pages in
the history, because the code handles RESET as a plain push. -/

namespace SwmLvgl.Pm

variable {ω : Type}

/-- An accepted open on the page stack. -/
def specOpen (k : List UInt8) (id : UInt8) (behavior : Option LvPmOpenOptions) : List UInt8 :=
  match behavior.map LvPmOpenOptions.target with
  | none => k ++ [id]
  | some .new => k.dropLast ++ [id]
  | some .self => k.dropLast ++ [id]
  | some .reset => [id]

/-- A back on the page stack. -/
def specBack (k : List UInt8) : List UInt8 := if 2 ≤ k.length then k.dropLast else k

/-- A step of the page manager beside its page stack, which follows an open only if it is accepted. -/
def stackStep (s : State ω × List UInt8) : Action → Except Fault (State ω × List UInt8)
  | .openPage id behavior mem =>
      (s.1.lvPmOpenPage id.id behavior mem).map fun r =>
        (r.2, if r.1 = 0 then specOpen s.2 id.id behavior else s.2)
  | .back mem => (s.1.lvPmBack mem).map fun t => (t, specBack s.2)
  | .lvgl a => (step s.1 (.lvgl a)).map fun t => (t, s.2)

/-- The step is no accepted open with target RESET on a history that holds a page. -/
def ResetOnEmpty (s : State ω) : Action → Prop
  | .openPage id behavior _ => behavior.map LvPmOpenOptions.target = some .reset →
      s.stack = [] ∨ s.slot id.id = none ∨ s.stack.length = lvPmPageNum
  | _ => True

instance (s : State ω) : DecidablePred (ResetOnEmpty s)
  | .openPage _ _ _ => inferInstanceAs (Decidable (_ → _))
  | .back _ | .lvgl _ => inferInstanceAs (Decidable True)

/-- The two stacks agree after an open unless it is a RESET on a page. -/
theorem openStack_eq_specOpen (k : List UInt8) (id : UInt8) (behavior : Option LvPmOpenOptions) :
    openStack k id behavior = specOpen k id behavior ↔
      (behavior.map LvPmOpenOptions.target = some .reset → k = []) := by
  unfold openStack specOpen
  cases behavior.map LvPmOpenOptions.target with
  | none => simp
  | some target => cases target <;> simp

/-- The outcomes of a step beside the page stack. -/
theorem stackStep_cases {s : State ω} (hs : s.Ready) (k : List UInt8) (a : Action) :
    ∃ t k', stackStep (s, k) a = .ok (t, k') ∧ StepTo s a t ∧
      (s.stack = k → (t.stack = k' ↔ ResetOnEmpty s a)) := by
  obtain ⟨t, ht, hstep⟩ := step_total hs a
  cases hstep with
  | lvgl => exact ⟨_, k, rfl, .lvgl, fun h => ⟨fun _ => trivial, fun _ => h⟩⟩
  | noBack h =>
      refine ⟨s, specBack k, ?_, .noBack h, fun hk => ?_⟩
      · simp only [step] at ht
        simp [stackStep, ht, Except.map]
      · rw [← hk, specBack, if_neg (by omega)]
        simp [ResetOnEmpty]
  | back hlen h =>
      refine ⟨t, specBack k, ?_, .back hlen h, fun hk => ?_⟩
      · simp only [step] at ht
        simp [stackStep, ht, Except.map]
      · rw [← hk, specBack, if_pos hlen, h.stack]
        simp [ResetOnEmpty]
  | @refused id behavior mem _ h =>
      -- a refused open returns a code other than 0
      have hcode : ∃ code, s.lvPmOpenPage id.id behavior mem = .ok (code, s) ∧ code ≠ 0 := by
        cases hslot : s.slot id.id with
        | none => exact ⟨4, State.lvPmOpenPage_null id.lt hslot _ _, by decide⟩
        | some p =>
            have hlen := h.resolve_left (by simp [hslot])
            exact ⟨5, State.lvPmOpenPage_full hslot (State.length_stack hs.wf ▸ hlen) _ _,
              by decide⟩
      obtain ⟨code, hopen, hne⟩ := hcode
      refine ⟨s, k, ?_, .refused h, fun hk => ?_⟩
      · simp [stackStep, hopen, Except.map, hne]
      · simp only [hk, ResetOnEmpty, true_iff]
        exact fun _ => Or.inr (hk ▸ h)
  | @opened id behavior mem p _ _ hslot hlen h =>
      obtain ⟨t', hopen, h'⟩ : ∃ t', s.lvPmOpenPage id.id behavior mem = .ok (0, t') ∧
          Opened s id.id behavior p mem t' :=
        State.lvPmOpenPage_ok hs.wf hslot (State.length_stack hs.wf ▸ hlen) behavior mem
          (hs.loads _ _ hslot)
      refine ⟨t', specOpen k id.id behavior, ?_, .opened hslot hlen h', fun hk => ?_⟩
      · simp [stackStep, hopen, Except.map]
      · rw [h'.stack, ← hk, openStack_eq_specOpen]
        simp [ResetOnEmpty, hslot, hlen]

/-- A step leaves the entries below the top alone. -/
theorem StepTo.below_top {s t : State ω} {a : Action} (h : StepTo s a t) :
    s.stack.dropLast <+: t.stack := by
  cases h with
  | refused _ => exact List.dropLast_prefix _
  | noBack _ => exact List.dropLast_prefix _
  | lvgl => exact List.dropLast_prefix _
  | back _ h => rw [h.stack]
  | opened _ _ h =>
      rw [h.stack]
      unfold openStack
      split
      · exact List.prefix_append _ _
      · exact List.prefix_append _ _
      · exact (List.dropLast_prefix _).trans (List.prefix_append _ _)

/-- **The history refines the page stack** exactly on the runs in which RESET is accepted only on an
empty history: there, and only there, the history is the page stack in every state of the run. Along
every run each step leaves the entries below the top unchanged. -/
theorem history_refines_stack (c : Setup ω) {s₀ : State ω} (h₀ : c.Starts s₀) (w : List Action) :
    ((∀ v t, v <+: w → Run.run stackStep (s₀, []) v = .ok t → t.1.stack = t.2) ↔
      Run.AllSteps stackStep (fun t a => ResetOnEmpty t.1 a) (s₀, []) w) ∧
    ∀ v a s t, v ++ [a] <+: w → Run.run step s₀ v = .ok s → step s a = .ok t →
      s.stack.dropLast <+: t.stack := by
  have hready := h₀.started.ready
  constructor
  · refine Run.prefixes_iff_allSteps
      (I := fun t : State ω × List UInt8 => t.1.Ready ∧ t.1.stack = t.2)
      (fun t ht => ht.2) ?_ ?_ ⟨hready, h₀.started.stack⟩
    · rintro ⟨s, k⟩ a t ⟨hs, hk⟩ hC ht
      obtain ⟨s', k', hstep, hto, hiff⟩ := stackStep_cases hs k a
      rw [ht] at hstep
      cases hstep
      exact ⟨hto.ready hs, (hiff hk).mpr hC⟩
    · rintro ⟨s, k⟩ a ⟨hs, hk⟩ hP
      obtain ⟨s', k', hstep, -, hiff⟩ := stackStep_cases hs k a
      exact (hiff hk).mp (hP _ hstep)
  · intro v a s t _ hv ht
    exact (stepTo_of_step (ready_of_run hready hv) ht).below_top

/-- Page 1 opened with target RESET over page 0 stands on top of page 0, while the page stack holds
page 1 alone. -/
theorem reset_keeps_history : demo.Starts demoState ∧
    ∃ t, Run.run stackStep (demoState, [])
      [.openPage (.ofNat 0) none ⟨true, true⟩,
        .openPage (.ofNat 1) (some ⟨.none, .reset, .left⟩) ⟨true, true⟩] = .ok t ∧
    t.1.stack = [0, 1] ∧ t.2 = [1] :=
  ⟨demo_starts, _, rfl, by decide, by decide⟩

/-- A RESET on the empty history, a push, a replacement and a back. -/
def historyDemo : List Action :=
  [.openPage (.ofNat 0) (some ⟨.none, .reset, .left⟩) ⟨true, true⟩,
    .openPage (.ofNat 1) none ⟨true, true⟩,
    .openPage (.ofNat 2) (some ⟨.slide, .new, .left⟩) ⟨true, true⟩, .back ⟨true, true⟩]

theorem history_refines_stack_demo :
    Run.AllSteps stackStep (fun t a => ResetOnEmpty t.1 a) (demoState, []) historyDemo ∧
    ∀ v t, v <+: historyDemo → Run.run stackStep (demoState, []) v = .ok t → t.1.stack = t.2 :=
  have h : Run.AllSteps stackStep (fun t a => ResetOnEmpty t.1 a) (demoState, []) historyDemo := by
    decide
  ⟨h, (history_refines_stack demo demo_starts historyDemo).1.mpr h⟩

end SwmLvgl.Pm
