import SwmLvgl.PmMove

/-! From transitions to runs. `moveOf` is the transition an action makes from a state; LVGL can always
finish the animations that run, and `moves_exact` turns a condition on single transitions into the
exact condition for what a run shows once its animations have completed. -/

namespace SwmLvgl.Pm

variable {ω : Type}

namespace State

/-- The transition an action makes, if it makes one. -/
def moveOf (s : State ω) : Action → Option Move
  | .openPage id behavior mem =>
      match s.slot id.id with
      | none => none
      | some p =>
          if s.stack.length = lvPmPageNum then none
          else some ⟨s.topPage, p, false, behavior.getD (s.ui.pages p).options, mem⟩
  | .back mem =>
      if s.stack.length < 2 then none
      else
        match s.topPage, s.stack.dropLast.getLast?.bind s.slot with
        | some c, some r => some ⟨some c, r, true, (s.ui.pages c).options, mem⟩
        | _, _ => none
  | .lvgl _ => none

end State

/-- Every outcome of a step, as a transition. -/
inductive MoveTo (s : State ω) : Action → State ω → (nodes : AnimNodes := .all) → Prop where
  | stays {a : Action} {n : AnimNodes} (h : s.moveOf a = none) : MoveTo s a s n
  | moves {a : Action} {m : Move} {t : State ω} {n : AnimNodes} (h : s.moveOf a = some m)
      (hui : s.ui.Moved m t.ui n) (htop : t.topPage = some m.page) (haway : m.away = s.topPage)
      (hslot : t.slot = s.slot) : MoveTo s a t n
  | lvgl {x : UiAction} {n : AnimNodes} : MoveTo s (.lvgl x) { s with ui := s.ui.step x } n

theorem getLast?_openStack (k : List UInt8) (id : UInt8) (behavior : Option LvPmOpenOptions) :
    (openStack k id behavior).getLast? = some id := by
  unfold openStack
  split <;> exact List.getLast?_concat

theorem StepTo.moveTo {s t : State ω} {a : Action} {nodes : AnimNodes} (h : StepTo s a t nodes) :
    MoveTo s a t nodes := by
  cases h with
  | refused h =>
      apply MoveTo.stays
      rcases h with h | h <;> simp [State.moveOf, h]
      split <;> rfl
  | noBack h => exact .stays (by simp [State.moveOf, h])
  | lvgl => exact .lvgl
  | @opened id behavior mem p _ _ hslot hlen h =>
      refine .moves (m := ⟨s.topPage, p, false, behavior.getD (s.ui.pages p).options, mem⟩) ?_ ?_ ?_ rfl
        (State.slot_congr h.router)
      · simp [State.moveOf, hslot, hlen]
      · rw [h.ui]
        exact .opened _ _ _ _
      · rw [State.topPage, State.top, h.stack, getLast?_openStack, State.slot_congr h.router]
        exact hslot
  | @back mem c r _ _ hlen h =>
      have hbelow : s.stack.dropLast.getLast?.bind s.slot = some r := by
        rw [← h.below, State.topPage, State.top, h.stack, State.slot_congr h.router]
      refine .moves (m := ⟨some c, r, true, (s.ui.pages c).options, mem⟩) ?_ ?_ h.below h.topPage.symm
        (State.slot_congr h.router)
      · simp [State.moveOf, not_lt.mpr hlen, h.topPage, hbelow]
      · rw [h.ui]
        exact .backed _ _ _

/-- The page on top is a page of the router. -/
theorem exists_slot_of_topPage {s : State ω} {p : Addr} (h : s.topPage = some p) :
    ∃ id, s.slot id = some p := by
  obtain ⟨id, -, hid⟩ := Option.bind_eq_some_iff.mp h
  exact ⟨id, hid⟩

theorem moveTo_of_step {s t : State ω} (hs : s.Ready) {a : Action} (h : step s a = .ok t) :
    MoveTo s a t :=
  (stepTo_of_step hs h).moveTo

/-- The action is a step of LVGL. -/
def Action.IsLvgl : Action → Prop
  | .lvgl _ => True
  | _ => False

instance : DecidablePred Action.IsLvgl
  | .lvgl _ => inferInstanceAs (Decidable True)
  | .openPage _ _ _ | .back _ => inferInstanceAs (Decidable False)

/-- `t` follows `s` by steps of LVGL: the history and the picture that `s` settles to are the same. -/
structure Finishes (s t : State ω) : Prop where
  len : t.lvPmHistoryLen = s.lvPmHistoryLen
  stack : t.stack = s.stack
  slot : t.slot = s.slot
  settled : t.ui.settled = s.ui.settled
  settledHidden : t.ui.settledHidden = s.ui.settledHidden
  radius : ∀ p, (t.ui.obj p).radius = (s.ui.obj p).radius
  options : ∀ p, (t.ui.pages p).options = (s.ui.pages p).options
  disp : t.ui.disp = s.ui.disp

theorem Finishes.topPage {s t : State ω} (h : Finishes s t) : t.topPage = s.topPage := by
  rw [State.topPage, State.top, h.stack, h.slot]
  rfl

theorem finishes_of_run {s t : State ω} {d : List Action} (hd : ∀ a ∈ d, a.IsLvgl)
    (hs : s.ui.Tagged) (h : Run.run step s d = .ok t) : Finishes s t ∧ t.ui.Tagged := by
  induction d generalizing s with
  | nil =>
      cases h
      exact ⟨⟨rfl, rfl, rfl, rfl, rfl, fun _ => rfl, fun _ => rfl, rfl⟩, hs⟩
  | cons a d ih =>
      obtain ⟨r, hr, hrun⟩ := Run.run_cons_ok h
      cases a with
      | openPage id behavior mem => exact (hd _ List.mem_cons_self).elim
      | back mem => exact (hd _ List.mem_cons_self).elim
      | lvgl x =>
          cases hr
          obtain ⟨hfin, htagged⟩ := ih (fun b hb => hd b (List.mem_cons_of_mem _ hb)) (hs.step x) hrun
          refine ⟨⟨hfin.len, hfin.stack, hfin.slot, hfin.settled.trans (Ui.settled_step _ _),
            hfin.settledHidden.trans (Ui.settledHidden_step hs x), fun p => ?_, fun p => ?_, ?_⟩,
            htagged⟩
          · rw [hfin.radius, Ui.radius_step]
          · rw [hfin.options, Ui.onlyObjects_step s.ui x p]
          · exact hfin.disp.trans (Ui.sameStatic_step s.ui x).1

/-- Every animation of a run completes for the page it moves. -/
theorem ready_tagged_of_run {s t : State ω} {w : List Action} (hs : Started s)
    (h : Run.run step s w = .ok t) : t.Ready ∧ t.ui.Tagged := by
  refine Run.run_invariant (I := fun s : State ω => s.Ready ∧ s.ui.Tagged) ?_ ⟨hs.ready, hs.tagged⟩ h
  rintro s a t ⟨hready, htagged⟩ ht
  have hto := stepTo_of_step hready ht
  refine ⟨hto.ready hready, ?_⟩
  cases hto.moveTo with
  | stays _ => exact htagged
  | moves _ hui _ _ _ => exact hui.tagged htagged
  | lvgl => exact htagged.step _

/-- LVGL can complete every animation that runs. -/
theorem exists_drain (s : State ω) : ∃ d t, (∀ a ∈ d, a.IsLvgl) ∧ Run.run step s d = .ok t ∧
    t.ui.running = 0 := by
  -- complete the animations in the order of the list
  have hdrain : ∀ (keys : List AnimKey) (s : State ω), (∀ key ∈ s.ui.anims.keys, key ∈ keys) →
      ∃ t, Run.run step s (keys.map fun key => .lvgl (.ready key)) = .ok t ∧ t.ui.running = 0 := by
    intro keys
    induction keys with
    | nil =>
        intro s hkeys
        refine ⟨s, rfl, Ui.running_eq_zero_iff.mpr fun key => AList.lookup_eq_none.mpr fun hmem => ?_⟩
        exact absurd (hkeys key (AList.mem_keys.mp hmem)) (by simp)
    | cons key keys ih =>
        intro s hkeys
        obtain ⟨t, ht, hquiet⟩ := ih { s with ui := s.ui.animReady key } fun key' hmem => by
          rw [Ui.anims_animReady, ← AList.mem_keys, AList.mem_erase] at hmem
          exact (List.mem_cons.mp (hkeys key' (AList.mem_keys.mp hmem.2))).resolve_left hmem.1
        exact ⟨t, ht, hquiet⟩
  obtain ⟨t, ht, hquiet⟩ := hdrain s.ui.anims.keys s fun _ h => h
  refine ⟨_, t, fun a ha => ?_, ht, hquiet⟩
  obtain ⟨key, -, rfl⟩ := List.mem_map.mp ha
  trivial

/-- The transition that the action makes, if any, meets `K`. -/
def MoveMeets (K : State ω → Move → Prop) (s : State ω) (a : Action) : Prop :=
  match s.moveOf a with
  | some m => K s m
  | none => True

instance (K : State ω → Move → Prop) [∀ s m, Decidable (K s m)] (s : State ω) (a : Action) :
    Decidable (MoveMeets K s a) :=
  match h : s.moveOf a with
  | some m => decidable_of_iff (K s m) (by simp [MoveMeets, h])
  | none => isTrue (by simp [MoveMeets, h])

/-- If the steps of LVGL do not change `G` and a transition keeps it exactly when it meets `K`, then
`P`, which `G` gives and which gives `G` once nothing runs, holds along a run whatever completes in
between if and only if every transition of the run meets `K`. -/
theorem moves_exact {J G P : State ω → Prop} {K : State ω → Move → Prop} {A : Action → Prop}
    (hready : ∀ s, J s → s.Ready) (hJ : ∀ s a t, A a → J s → StepTo s a t → J t)
    (hA : ∀ x, A (.lvgl x)) (hG : ∀ s x, J s → (G { s with ui := s.ui.step x } ↔ G s))
    (hgood : ∀ s, J s → G s → P s)
    (hquiet : ∀ s, J s → s.ui.running = 0 → P s → G s)
    (hmove : ∀ s a m t, A a → J s → G s → s.moveOf a = some m → s.ui.Moved m t.ui →
      t.topPage = some m.page → m.away = s.topPage → t.slot = s.slot → (G t ↔ K s m))
    {s : State ω} {w : List Action} (hw : ∀ a ∈ w, A a) (hs : J s) (hGs : G s) :
    (∀ v d t, v <+: w → (∀ a ∈ d, a.IsLvgl) → Run.run step s (v ++ d) = .ok t → P t) ↔
      Run.AllSteps step (MoveMeets K) s w := by
  refine Run.settled_iff_allSteps (J := J) (G := G) (A := A) (Q := fun s => s.ui.running = 0)
    ?_ ?_ ?_ hgood hquiet (fun s _ => exists_drain s) ?_ ?_ hw hs hGs
  · exact fun s a t ha h ht => hJ s a t ha h (stepTo_of_step (hready s h) ht)
  · intro a ha
    cases a with
    | lvgl x => exact hA x
    | openPage id behavior mem => exact ha.elim
    | back mem => exact ha.elim
  · intro s a t ha h ht
    cases a with
    | lvgl x =>
        cases ht
        exact hG s x h
    | openPage id behavior mem => exact ha.elim
    | back mem => exact ha.elim
  · intro s a _ h
    obtain ⟨t, ht, -⟩ := step_total (hready s h) a
    exact ⟨t, ht⟩
  · intro s a t ha h hGs ht
    have hto := moveTo_of_step (hready s h) ht
    cases hto with
    | stays hnone => simp [MoveMeets, hnone, hGs]
    | lvgl => simp [MoveMeets, State.moveOf, hG s _ h, hGs]
    | moves hsome hui htop haway hslot =>
        simp only [MoveMeets, hsome]
        exact hmove s a _ t ha h hGs hsome hui htop haway hslot

end SwmLvgl.Pm
