import SwmLvgl.PmSettle

/-! Which pages are shown once nothing moves, on runs without popups. Showing is immediate and hiding
waits for a completion, so a slide that is still taking a page away can hide it after it was opened
again. `ShowsPage` is the condition on a transition under which this does not happen; it is exact. -/

namespace SwmLvgl.Pm

open Ui (hides)

variable {ω : Type}

/-- NONE or SLIDE. -/
def LvPmPageAnima.Slides (a : LvPmPageAnima) : Prop := a = .none ∨ a = .slide

instance (a : LvPmPageAnima) : Decidable a.Slides := inferInstanceAs (Decidable (_ ∨ _))

/-- An open gives no options, or options with animation NONE or SLIDE. -/
def Action.Slides : Action → Prop
  | .openPage _ behavior _ => ∀ b ∈ behavior, b.animation.Slides
  | _ => True

instance : DecidablePred Action.Slides
  | .openPage _ behavior _ => inferInstanceAs (Decidable (∀ b ∈ behavior, b.animation.Slides))
  | .back _ | .lvgl _ => inferInstanceAs (Decidable True)

/-- Of the pages created, the one on top of the history is without the hidden flag, and no other. -/
def TopAloneShown (s : State ω) : Prop :=
  ∃ p, s.topPage = some p ∧ ∀ id q, s.slot id = some q → ((s.ui.obj q).hidden = false ↔ q = p)

/-- The page shown starts a slide, or no slide that will hide it is running or started by the same
call. -/
def ShowsPage (s : State ω) (m : Move) : Prop :=
  m.appearing ≠ none ∨
    (s.ui.pending hides m.page .translateX = false ∧ ¬(m.away = some m.page ∧ m.leaving ≠ none))

instance (s : State ω) (m : Move) : Decidable (ShowsPage s m) :=
  inferInstanceAs (Decidable (_ ∨ _))

/-- Exactly the page on top comes to rest without the hidden flag. -/
def TopAloneSettles (s : State ω) : Prop :=
  ∀ id p, s.slot id = some p → (s.ui.settledHidden p = false ↔ s.topPage = some p)

/-- What holds along runs of opens with NONE and SLIDE. -/
structure SlideRun (s : State ω) : Prop where
  ready : s.Ready
  tagged : s.ui.Tagged
  stored : ∀ p, (s.ui.pages p).options.animation.Slides
  noPopup : ∀ p, s.ui.anims.lookup (p, .translateY) = none
  empty : s.topPage = none → ∀ id p, s.slot id = some p → s.ui.settledHidden p = true

theorem startedAxis_of_slides {a : LvPmPageAnima} (h : a.Slides) (malloc : Bool) :
    startedAxis a malloc = none ∨ startedAxis a malloc = some .translateX := by
  rcases h with rfl | rfl <;> cases malloc <;> simp [startedAxis]

theorem hides_disAppearCb {m : Move} (h : m.options.animation.Slides) :
    hides m.disAppearCb m.options = true := by
  cases hb : m.back
  · rcases h with h | h <;> simp [Move.disAppearCb, hb, hides, h]
  · simp [Move.disAppearCb, hb, hides]

/-- The options of a transition are among those stored or given. -/
theorem moveOf_slides {s : State ω} (hs : SlideRun s) {a : Action} (ha : a.Slides) {m : Move}
    (h : s.moveOf a = some m) : m.options.animation.Slides := by
  cases a with
  | lvgl x => cases h
  | openPage id behavior mem =>
      simp only [State.moveOf] at h
      split at h
      · cases h
      · split at h
        · cases h
        · cases h
          cases behavior with
          | none => exact hs.stored _
          | some b => exact ha b rfl
  | back mem =>
      simp only [State.moveOf] at h
      split at h
      · cases h
      · split at h
        · cases h
          exact hs.stored _
        · cases h

/-- Pages other than the one shown come to rest hidden exactly if they did before or are sent away. -/
theorem settledHidden_other {u v : Ui ω} {m : Move} (h : u.Moved m v) (hm : m.options.animation.Slides)
    {p : Addr} (hp : p ≠ m.page) :
    v.settledHidden p = (u.settledHidden p || decide (m.away = some p)) := by
  have hhides := hides_disAppearCb hm
  simp only [Ui.settledHidden, h.hidden, h.pending, hp, false_and, if_false, hhides, Bool.and_true]
  by_cases haway : m.away = some p
  · rcases startedAxis_of_slides hm m.mem.disAppear with hleave | hleave <;>
      simp [haway, Move.leaving, hleave]
  · simp [haway]

/-- The page shown comes to rest hidden if a completion that hides it survives. -/
theorem settledHidden_page {u v : Ui ω} {m : Move} (h : u.Moved m v) (hm : m.options.animation.Slides)
    (hu : u.anims.lookup (m.page, .translateY) = none) :
    v.settledHidden m.page =
      if m.appearing = none then
        decide (m.away = some m.page ∧ m.leaving ≠ none) || u.pending hides m.page .translateX
      else false := by
  have hhides := hides_disAppearCb hm
  have hY : u.pending hides m.page .translateY = false := by rw [Ui.pending, hu]
  simp only [Ui.settledHidden, h.hidden, h.pending, if_true, true_and, hhides, hY, Ui.hides_appearCb]
  rcases startedAxis_of_slides hm m.mem.appear with happear | happear <;>
    rcases startedAxis_of_slides hm m.mem.disAppear with hleave | hleave <;>
      simp [Move.appearing, Move.leaving, happear, hleave]

theorem SlideRun.moves {s t : State ω} (hs : SlideRun s) {m : Move} (hm : m.options.animation.Slides)
    (hui : s.ui.Moved m t.ui) (htop : t.topPage = some m.page) (hready : t.Ready) : SlideRun t := by
  refine ⟨hready, hui.tagged hs.tagged, fun p => ?_, fun p => ?_, fun h => ?_⟩
  · rcases hui.options p with h | h
    · rw [h]
      exact hs.stored p
    · rw [h]
      exact hm
  · rw [hui.lookup]
    rcases startedAxis_of_slides hm m.mem.appear with happear | happear <;>
      rcases startedAxis_of_slides hm m.mem.disAppear with hleave | hleave <;>
        simp [Move.appearing, Move.leaving, happear, hleave, hs.noPopup p]
  · rw [htop] at h
    cases h

theorem SlideRun.step {s t : State ω} (hs : SlideRun s) {a : Action} (ha : a.Slides)
    (h : StepTo s a t) : SlideRun t := by
  have hready := h.ready hs.ready
  cases h.moveTo with
  | stays _ => exact hs
  | moves hsome hui htop _ _ => exact hs.moves (moveOf_slides hs ha hsome) hui htop hready
  | @lvgl x =>
      refine ⟨hready, hs.tagged.step x, fun p => ?_, fun p => ?_, fun h id p hp => ?_⟩
      · rw [Ui.onlyObjects_step s.ui x p]
        exact hs.stored p
      · rw [Option.eq_none_iff_forall_ne_some]
        intro a h
        have hrunning := Ui.lookup_step h
        rw [hs.noPopup p] at hrunning
        cases hrunning
      · rw [Ui.settledHidden_step hs.tagged]
        exact hs.empty h id p hp

theorem topAloneSettles_moved {s t : State ω} (hs : SlideRun s) (hsettles : TopAloneSettles s)
    {m : Move} (hm : m.options.animation.Slides) (hui : s.ui.Moved m t.ui)
    (htop : t.topPage = some m.page) (haway : m.away = s.topPage) (hslot : t.slot = s.slot)
    (hcreated : ∃ id, s.slot id = some m.page) : TopAloneSettles t ↔ ShowsPage s m := by
  have hpage := settledHidden_page hui hm (hs.noPopup m.page)
  have hshows : t.ui.settledHidden m.page = false ↔ ShowsPage s m := by
    rw [hpage, ShowsPage]
    by_cases happear : m.appearing = none
    · simp [happear, and_comm]
    · simp [happear]
  rw [← hshows]
  constructor
  · intro h
    obtain ⟨id, hid⟩ := hcreated
    exact (h id m.page (hslot ▸ hid)).mpr htop
  · intro h id p hp
    by_cases heq : p = m.page
    · rw [heq, htop]
      exact ⟨fun _ => rfl, fun _ => h⟩
    · rw [settledHidden_other hui hm heq, htop]
      have hold := hsettles id p (hslot ▸ hp)
      constructor
      · intro hfalse
        simp only [Bool.or_eq_false_iff, decide_eq_false_iff_not, haway] at hfalse
        exact absurd (hold.mp hfalse.1) hfalse.2
      · intro h
        exact absurd (Option.some.inj h).symm heq

theorem topPage_eq_none_iff {s : State ω} (hs : s.Wf) : s.topPage = none ↔ s.stack = [] := by
  constructor
  · intro h
    by_contra hne
    have hlast : s.top = some (s.stack.getLast hne) := List.getLast?_eq_some_getLast hne
    have := hs.named _ (List.getLast_mem hne)
    rw [State.topPage, hlast, Option.bind_some] at h
    simp [h] at this
  · intro h
    simp [State.topPage, State.top, h]

theorem topAloneSettles_quiet {s : State ω} (hs : SlideRun s) (hquiet : s.ui.running = 0)
    (hgood : s.stack ≠ [] → TopAloneShown s) : TopAloneSettles s := by
  intro id p hp
  cases htop : s.topPage with
  | none => simp [hs.empty htop id p hp]
  | some q =>
      have hne : s.stack ≠ [] := fun h => by simp [(topPage_eq_none_iff hs.ready.wf).mpr h] at htop
      obtain ⟨q', hq', h⟩ := hgood hne
      rw [htop] at hq'
      cases hq'
      rw [Ui.settledHidden_of_quiet hquiet, h id p hp, Option.some.injEq, eq_comm]

theorem TopAloneSettles.shown {s : State ω} (hs : s.Wf) (h : TopAloneSettles s)
    (hquiet : s.ui.running = 0) (hne : s.stack ≠ []) : TopAloneShown s := by
  obtain ⟨q, hq⟩ : ∃ q, s.topPage = some q :=
    Option.ne_none_iff_exists'.mp fun hnone => hne ((topPage_eq_none_iff hs).mp hnone)
  refine ⟨q, hq, fun id p hp => ?_⟩
  rw [← Ui.settledHidden_of_quiet hquiet, h id p hp, hq, Option.some.injEq, eq_comm]

theorem Started.slideRun {s : State ω} (h : Started s) : SlideRun s ∧ TopAloneSettles s := by
  have hhidden : ∀ id p, s.slot id = some p → s.ui.settledHidden p = true := by
    intro id p hp
    have : (s.ui.obj p).hidden = true := by rw [Ui.obj, h.page id p hp]; rfl
    simp [Ui.settledHidden, this]
  refine ⟨⟨h.ready, h.tagged, fun p => ?_, fun p => ?_, fun _ => hhidden⟩, ?_⟩
  · rw [h.options]
    exact Or.inl rfl
  · exact Ui.running_eq_zero_iff.mp h.running _
  · intro id p hp
    simp [hhidden id p hp, h.topPage]

/-- **Visibility.** On a run of opens with NONE and SLIDE and of backs, exactly the page on top is
shown whenever no animation is running, whatever completes in between, if and only if every transition
of the run meets `ShowsPage`. -/
theorem top_alone_shown (c : Setup ω) {s₀ : State ω} (h₀ : c.Starts s₀) (w : List Action)
    (hw : ∀ a ∈ w, a.Slides) :
    (∀ v d t, v <+: w → (∀ a ∈ d, a.IsLvgl) → Run.run step s₀ (v ++ d) = .ok t →
      t.ui.running = 0 → t.stack ≠ [] → TopAloneShown t) ↔
      Run.AllSteps step (MoveMeets ShowsPage) s₀ w := by
  obtain ⟨hrun, hsettles⟩ := h₀.started.slideRun
  refine moves_exact (J := SlideRun) (G := TopAloneSettles)
    (P := fun t => t.ui.running = 0 → t.stack ≠ [] → TopAloneShown t) (fun s hs => hs.ready)
    (fun s a t ha hs hto => hs.step ha hto) (fun _ => trivial) ?_
    (fun s hs h hquiet hne => h.shown hs.ready.wf hquiet hne)
    (fun s hs hquiet h => topAloneSettles_quiet hs hquiet (h hquiet)) ?_ hw hrun hsettles
  · intro s x hs
    unfold TopAloneSettles
    rw [Ui.settledHidden_step hs.tagged]
    exact Iff.rfl
  · intro s a m t ha hs h hsome hui htop haway hslot
    obtain ⟨id, hid⟩ := exists_slot_of_topPage htop
    exact topAloneSettles_moved hs h (moveOf_slides hs ha hsome) hui htop haway hslot
      ⟨id, hslot ▸ hid⟩

/-- Page 0 is opened again without animation while the slide that takes it away still runs: the slide
then hides the page on top, and no page is left shown. -/
theorem late_slide_hides_top : demo.Starts demoState ∧
    ∃ t, Run.run step demoState
      [.openPage (.ofNat 0) (some ⟨.none, .new, .left⟩) ⟨true, true⟩,
        .openPage (.ofNat 1) (some ⟨.slide, .new, .left⟩) ⟨true, true⟩,
        .openPage (.ofNat 0) (some ⟨.none, .new, .left⟩) ⟨true, true⟩,
        .lvgl (.ready (0, .translateX)), .lvgl (.ready (1, .translateX))] = .ok t ∧
    t.ui.running = 0 ∧ t.stack = [0] ∧ ¬TopAloneShown t := by
  refine ⟨demo_starts, _, rfl, by decide, by decide, ?_⟩
  rintro ⟨p, htop, h⟩
  cases htop
  exact absurd ((h 0 0 (by decide)).mpr rfl) (by decide)

/-- A slide to page 1 and one back to page 0, whose slide out is cancelled by its slide in. -/
def slideDemo : List Action :=
  [.openPage (.ofNat 0) (some ⟨.none, .new, .left⟩) ⟨true, true⟩,
    .openPage (.ofNat 1) (some ⟨.slide, .reset, .left⟩) ⟨true, true⟩, .back ⟨true, true⟩]

theorem top_alone_shown_demo : Run.AllSteps step (MoveMeets ShowsPage) demoState slideDemo ∧
    ∀ v d t, v <+: slideDemo → (∀ a ∈ d, a.IsLvgl) → Run.run step demoState (v ++ d) = .ok t →
      t.ui.running = 0 → t.stack ≠ [] → TopAloneShown t :=
  have h : Run.AllSteps step (MoveMeets ShowsPage) demoState slideDemo := by decide
  have hslides : ∀ a ∈ slideDemo, a.Slides := by decide
  ⟨h, (top_alone_shown demo demo_starts slideDemo hslides).mpr h⟩

end SwmLvgl.Pm
