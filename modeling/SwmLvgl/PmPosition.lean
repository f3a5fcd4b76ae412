import SwmLvgl.PmSettle

/-! Where the page on top comes to rest. Only an animated appearance writes coordinates, so a page that
left the screen returns to it only if it comes back on the axis on which it left. -/

namespace SwmLvgl.Pm

variable {ω : Type}

/-- At the origin on the horizontal axis, and at most `POPUP_TOP_HEIGHT` down on the vertical one. -/
def OnScreen : ExecCb → Int → Prop
  | .translateX, x => x = 0
  | .translateY, y => 0 ≤ y ∧ y ≤ Ui.popupTopHeight

instance : ∀ (ax : ExecCb) (v : Int), Decidable (OnScreen ax v)
  | .translateX, x => inferInstanceAs (Decidable (x = 0))
  | .translateY, y => inferInstanceAs (Decidable (0 ≤ y ∧ y ≤ Ui.popupTopHeight))

/-- The page on top is on screen. -/
def TopOnScreen (s : State ω) : Prop :=
  ∀ p, s.topPage = some p → ∀ ax, OnScreen ax ((s.ui.obj p).coord ax)

/-- The page shown appears along the axis, or comes to rest on screen there: it is not itself sent
away along the axis, or the place it is sent to is on screen. -/
def ReturnsAlong (s : State ω) (m : Move) (ax : ExecCb) : Prop :=
  m.appearing = some ax ∨
    OnScreen ax
      (if m.away = some m.page ∧ m.leaving = some ax then disAppearEnd s.ui.disp m.back ax
      else s.ui.settled m.page ax)

def ReturnsToScreen (s : State ω) (m : Move) : Prop :=
  ReturnsAlong s m .translateX ∧ ReturnsAlong s m .translateY

instance (s : State ω) (m : Move) : Decidable (ReturnsToScreen s m) :=
  inferInstanceAs (Decidable ((_ ∨ _) ∧ (_ ∨ _)))

/-- The page on top comes to rest on screen. -/
def TopSettlesOnScreen (s : State ω) : Prop :=
  ∀ p, s.topPage = some p → ∀ ax, OnScreen ax (s.ui.settled p ax)

theorem onScreen_appearEnd (back : Bool) (ax : ExecCb) : OnScreen ax (appearEnd back ax) := by
  cases ax <;> cases back <;> decide

theorem onScreen_moved {s t : State ω} {m : Move} (hui : s.ui.Moved m t.ui)
    (htop : t.topPage = some m.page) : TopSettlesOnScreen t ↔ ReturnsToScreen s m := by
  have haxis : ∀ ax, OnScreen ax (t.ui.settled m.page ax) ↔ ReturnsAlong s m ax := by
    intro ax
    rw [hui.settled, ReturnsAlong]
    by_cases happear : m.appearing = some ax
    · simp [happear, onScreen_appearEnd]
    · simp [happear]
  constructor
  · intro h
    exact ⟨(haxis _).mp (h _ htop _), (haxis _).mp (h _ htop _)⟩
  · rintro ⟨hx, hy⟩ p hp ax
    rw [htop] at hp
    cases hp
    rw [haxis]
    cases ax with
    | translateX => exact hx
    | translateY => exact hy

theorem topSettlesOnScreen_quiet {s : State ω} (h : s.ui.running = 0) :
    TopSettlesOnScreen s ↔ TopOnScreen s := by
  simp only [TopSettlesOnScreen, TopOnScreen, Ui.settled_of_quiet h]

/-- **The shown page is on screen.** On any display, the page on top is on screen whenever no animation
is running, whatever completes in between, if and only if every transition of the run meets
`ReturnsToScreen`. -/
theorem top_on_screen (c : Setup ω) {s₀ : State ω} (h₀ : c.Starts s₀) (w : List Action) :
    (∀ v d t, v <+: w → (∀ a ∈ d, a.IsLvgl) → Run.run step s₀ (v ++ d) = .ok t →
      t.ui.running = 0 → TopOnScreen t) ↔
      Run.AllSteps step (MoveMeets ReturnsToScreen) s₀ w := by
  have hstart := h₀.started
  refine moves_exact (J := State.Ready) (G := TopSettlesOnScreen) (A := fun _ => True)
    (P := fun t => t.ui.running = 0 → TopOnScreen t) (fun s hs => hs)
    (fun s a t _ hs hto => hto.ready hs) (fun _ => trivial) ?_
    (fun s _ h hquiet => (topSettlesOnScreen_quiet hquiet).mp h)
    (fun s _ hquiet h => (topSettlesOnScreen_quiet hquiet).mpr (h hquiet)) ?_ (fun _ _ => trivial)
    hstart.ready fun p hp => by simp [hstart.topPage] at hp
  · intro s x _
    unfold TopSettlesOnScreen
    rw [Ui.settled_step]
    exact Iff.rfl
  · intro s a m t _ _ _ _ hui htop _ _
    exact onScreen_moved hui htop

/-- Page 0 slides out to the left and is then opened without animation: it stays where it went. -/
theorem slid_page_stays_off_screen : demo.Starts demoState ∧
    ∃ t, Run.run step demoState
      [.openPage (.ofNat 0) (some ⟨.none, .new, .left⟩) ⟨true, true⟩,
        .openPage (.ofNat 1) (some ⟨.slide, .new, .left⟩) ⟨true, true⟩,
        .lvgl (.ready (0, .translateX)), .lvgl (.ready (1, .translateX)),
        .openPage (.ofNat 0) (some ⟨.none, .new, .left⟩) ⟨true, true⟩] = .ok t ∧
    t.ui.running = 0 ∧ t.topPage = some 0 ∧ (t.ui.obj 0).x = -480 ∧ ¬TopOnScreen t := by
  refine ⟨demo_starts, _, rfl, by decide, by decide, by decide, fun h => ?_⟩
  exact absurd (h 0 (by decide) .translateX) (by decide)

/-- A popup over page 0 and the back that returns to it, then a slide. -/
def positionDemo : List Action :=
  [.openPage (.ofNat 0) (some ⟨.none, .new, .left⟩) ⟨true, true⟩,
    .openPage (.ofNat 1) (some ⟨.popup, .reset, .left⟩) ⟨true, true⟩, .back ⟨true, true⟩,
    .openPage (.ofNat 2) (some ⟨.slide, .new, .left⟩) ⟨true, true⟩]

theorem top_on_screen_demo :
    Run.AllSteps step (MoveMeets ReturnsToScreen) demoState positionDemo ∧
    ∀ v d t, v <+: positionDemo → (∀ a ∈ d, a.IsLvgl) → Run.run step demoState (v ++ d) = .ok t →
      t.ui.running = 0 → TopOnScreen t :=
  have h : Run.AllSteps step (MoveMeets ReturnsToScreen) demoState positionDemo := by decide
  ⟨h, (top_on_screen demo demo_starts positionDemo).mpr h⟩

end SwmLvgl.Pm
