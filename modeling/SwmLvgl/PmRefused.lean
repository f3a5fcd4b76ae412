import SwmLvgl.PmHistory
import SwmLvgl.PmSafety

/-! Refused opens. `lv_pm_open_page` looks at two things before it does anything: whether the page was
created since the last `lv_pm_init`, and whether the history is full. The second test does not look at
the target, so a full history also refuses an open that would replace the page on top. -/

namespace SwmLvgl.Pm

variable {ω : Type}

/-- The operation creates the page, with a successful allocation. -/
def ApiAction.Creates (id : PageId) : ApiAction ω → Prop
  | .createPage x _ malloc => x = id ∧ malloc = true
  | _ => False

/-- The operations create the page and do not initialise again afterwards. -/
def Created (id : PageId) (w : List (ApiAction ω)) : Prop :=
  ∃ u a v, w = u ++ a :: v ∧ a.Creates id ∧ ∀ b ∈ v, b ≠ .init

theorem not_created_nil (id : PageId) : ¬Created id ([] : List (ApiAction ω)) := by
  rintro ⟨u, a, v, h, -⟩
  simp at h

theorem created_cons (id : PageId) (a : ApiAction ω) (w : List (ApiAction ω)) :
    Created id (a :: w) ↔ Created id w ∨ a.Creates id ∧ ∀ b ∈ w, b ≠ .init := by
  constructor
  · rintro ⟨u, c, v, h, hc, hv⟩
    cases u with
    | nil =>
        obtain ⟨rfl, rfl⟩ := List.cons.inj h
        exact Or.inr ⟨hc, hv⟩
    | cons x u =>
        obtain ⟨rfl, rfl⟩ := List.cons.inj h
        exact Or.inl ⟨u, c, v, rfl, hc, hv⟩
  · rintro (⟨u, c, v, rfl, hc, hv⟩ | ⟨hc, hw⟩)
    · exact ⟨a :: u, c, v, rfl, hc, hv⟩
    · exact ⟨[], a, w, rfl, hc, hw⟩

/-- An operation fills the slot of the page it creates; only `lv_pm_init` empties slots. -/
theorem slot_apiStep {s t : State ω} (hs : s.Wf) {a : ApiAction ω} (h : apiStep s a = .ok t)
    (id : PageId) :
    (t.slot id.id).isSome ↔ a.Creates id ∨ a ≠ .init ∧ (s.slot id.id).isSome := by
  cases a with
  | init =>
      cases h
      simp [slot_init, ApiAction.Creates]
  | createPage x lifecycle malloc =>
      cases malloc with
      | false =>
          cases h
          simp [ApiAction.Creates]
      | true =>
          rw [apiStep, lvPmCreatePage_eq] at h
          cases h
          rw [slot_created]
          by_cases hx : id.id = x.id
          · have hid : x = id := by
              cases x
              cases id
              simpa using hx.symm
            simp [hx, hid, ApiAction.Creates]
          · have hid : x ≠ id := fun heq => hx (congrArg PageId.id heq.symm)
            simp [hx, hid, ApiAction.Creates]
  | page a =>
      rcases step_cases hs a with ⟨u, hu, hstep⟩ | ⟨_, p, herr, -⟩
      · have htu : t = u := by
          rw [apiStep, hu] at h
          cases h
          rfl
        rw [htu, State.slot_congr hstep.static.1]
        simp [ApiAction.Creates]
      · rw [apiStep, herr] at h
        cases h

/-- After any operations, the slots filled are those of the pages created since the last init. -/
theorem slot_run {s t : State ω} (hs : s.Wf) {w : List (ApiAction ω)}
    (h : Run.run apiStep s w = .ok t) (id : PageId) :
    (t.slot id.id).isSome ↔ Created id w ∨ (∀ b ∈ w, b ≠ .init) ∧ (s.slot id.id).isSome := by
  induction w generalizing s with
  | nil =>
      cases h
      simp [not_created_nil]
  | cons a w ih =>
      obtain ⟨r, hr, hrun⟩ := Run.run_cons_ok h
      calc (t.slot id.id).isSome
          ↔ Created id w ∨ (∀ b ∈ w, b ≠ .init) ∧ (r.slot id.id).isSome := ih (apiStep_ok hs hr).1 hrun
        _ ↔ Created id w ∨ (∀ b ∈ w, b ≠ .init) ∧
            (a.Creates id ∨ a ≠ .init ∧ (s.slot id.id).isSome) := by rw [slot_apiStep hs hr]
        _ ↔ Created id (a :: w) ∨ (∀ b ∈ a :: w, b ≠ .init) ∧ (s.slot id.id).isSome := by
            rw [created_cons, List.forall_mem_cons]
            tauto

/-- All outcomes of an open: a code other than 0 comes with an unchanged state. -/
theorem lvPmOpenPage_cases {s : State ω} (hs : s.Wf) (id : PageId)
    (behavior : Option LvPmOpenOptions) (mem : Mem) :
    ((s.slot id.id = none ∨ s.lvPmHistoryLen.toNat = lvPmPageNum) ∧
        ∃ c, c ≠ 0 ∧ s.lvPmOpenPage id.id behavior mem = .ok (c, s)) ∨
      (¬(s.slot id.id = none ∨ s.lvPmHistoryLen.toNat = lvPmPageNum) ∧
        ((∃ t, s.lvPmOpenPage id.id behavior mem = .ok (0, t)) ∨
          ∃ p, s.lvPmOpenPage id.id behavior mem = .error (.nullOnLoad p))) := by
  cases hslot : s.slot id.id with
  | none => exact Or.inl ⟨Or.inl rfl, 4, by decide, State.lvPmOpenPage_null id.lt hslot behavior mem⟩
  | some p =>
      by_cases hlen : s.lvPmHistoryLen.toNat = lvPmPageNum
      · exact Or.inl ⟨Or.inr hlen, 5, by decide, State.lvPmOpenPage_full hslot hlen behavior mem⟩
      refine Or.inr ⟨by simp [hlen], ?_⟩
      cases hload : (s.ui.lifecycles p).onLoad with
      | none => exact Or.inr ⟨p, State.lvPmOpenPage_nullOnLoad hs hslot hlen behavior mem hload⟩
      | some f =>
          obtain ⟨t, ht, -⟩ := State.lvPmOpenPage_ok hs hslot hlen behavior mem (by rw [hload]; rfl)
          exact Or.inl ⟨t, ht⟩

/-- **Refused opens.** After a first `lv_pm_init` and any operations, an open returns a code other than
0 if and only if the page was not created since the last `lv_pm_init` or the history is full, whatever
the options; and then nothing at all has changed. -/
theorem open_refused_iff (disp : Display) (app : ω) {w : List (ApiAction ω)} {s : State ω}
    (hw : Run.run apiStep (boot disp app).lvPmInit w = .ok s) (id : PageId)
    (behavior : Option LvPmOpenOptions) (mem : Mem) :
    ((∃ c t, s.lvPmOpenPage id.id behavior mem = .ok (c, t) ∧ c ≠ 0) ↔
      ¬Created id w ∨ s.lvPmHistoryLen.toNat = lvPmPageNum) ∧
    ∀ c t, s.lvPmOpenPage id.id behavior mem = .ok (c, t) → c ≠ 0 → t = s := by
  have hinit := wf_lvPmInit (boot disp app)
  have hs : s.Wf := Run.run_invariant (fun s a t hs h => (apiStep_ok hs h).1) hinit hw
  have hslot : s.slot id.id = none ↔ ¬Created id w := by
    have hrun := slot_run hinit hw id
    rw [slot_init] at hrun
    rw [← Option.not_isSome_iff_eq_none, hrun]
    simp
  rw [← hslot]
  rcases lvPmOpenPage_cases hs id behavior mem with ⟨hrefused, c, hc, heq⟩ | ⟨haccepted, hok⟩
  · refine ⟨iff_of_true ⟨c, s, heq, hc⟩ hrefused, fun c' t ht _ => ?_⟩
    rw [heq] at ht
    cases ht
    rfl
  · have hzero : ∀ c t, s.lvPmOpenPage id.id behavior mem = .ok (c, t) → c = 0 := by
      intro c t ht
      rcases hok with ⟨t', ht'⟩ | ⟨p, herr⟩
      · rw [ht'] at ht
        cases ht
        rfl
      · rw [herr] at ht
        cases ht
    refine ⟨iff_of_false ?_ haccepted, fun c t ht hc => absurd (hzero c t ht) hc⟩
    rintro ⟨c, t, ht, hc⟩
    exact hc (hzero c t ht)

/-- Two pages, and page 0 opened over and over until the history is full. -/
def fullHistory : List (ApiAction Unit) :=
  [.createPage (.ofNat 0) demoLifecycle true, .createPage (.ofNat 1) demoLifecycle true] ++
    List.replicate lvPmPageNum (.page (.openPage (.ofNat 0) none ⟨true, true⟩))

theorem created_fullHistory : Created (.ofNat 1) fullHistory := by
  refine ⟨[.createPage (.ofNat 0) demoLifecycle true], _, _, rfl, ⟨rfl, rfl⟩, fun b hb => ?_⟩
  rw [List.eq_of_mem_replicate hb]
  exact nofun

/-- With the history full, page 1 has been created and would only replace the page on top, and yet it
is refused. -/
theorem full_history_refuses_new : ∃ s,
    Run.run apiStep (boot demo.disp ()).lvPmInit fullHistory = .ok s ∧
      Created (.ofNat 1) fullHistory ∧
      (specOpen s.stack 1 (some ⟨.none, .new, .top⟩)).length ≤ lvPmPageNum ∧
      s.lvPmOpenPage 1 (some ⟨.none, .new, .top⟩) ⟨true, true⟩ = .ok (5, s) :=
  ⟨_, rfl, created_fullHistory, by decide, rfl⟩

/-- With the history full, an open with the default target is refused as well, and changes nothing. -/
theorem open_refused_iff_demo : ∃ s,
    Run.run apiStep (boot demo.disp ()).lvPmInit fullHistory = .ok s ∧
      (∃ c t, s.lvPmOpenPage 1 none ⟨true, true⟩ = .ok (c, t) ∧ c ≠ 0) ∧
      ∀ c t, s.lvPmOpenPage 1 none ⟨true, true⟩ = .ok (c, t) → c ≠ 0 → t = s := by
  have hrun : ∃ s, Run.run apiStep (boot demo.disp ()).lvPmInit fullHistory = .ok s ∧
      s.lvPmHistoryLen.toNat = lvPmPageNum := ⟨_, rfl, by decide⟩
  obtain ⟨s, hs, hlen⟩ := hrun
  obtain ⟨hiff, hsame⟩ := open_refused_iff demo.disp () hs (.ofNat 1) none ⟨true, true⟩
  exact ⟨s, hs, hiff.mpr (.inr hlen), hsame⟩

end SwmLvgl.Pm
