import SwmLvgl.PmSettle

/-! A page pushed over the top page and the back that removes it. The two transitions write fixed
coordinates and radii, so the picture is the same afterwards exactly when the top page already lay
where they leave it. -/

namespace SwmLvgl.Pm

variable {ω : Type}

/-- The history, the shown pages and their place and radius are those of `s`. -/
structure Restored (s t : State ω) : Prop where
  len : t.lvPmHistoryLen = s.lvPmHistoryLen
  stack : t.stack = s.stack
  hidden : ∀ id q, s.slot id = some q → (t.ui.obj q).hidden = (s.ui.obj q).hidden
  place : ∀ id q, s.slot id = some q → (s.ui.obj q).hidden = false →
    (t.ui.obj q).x = (s.ui.obj q).x ∧ (t.ui.obj q).y = (s.ui.obj q).y ∧
      (t.ui.obj q).radius = (s.ui.obj q).radius

/-- The page on top, `o`, lies where a push with animation `a` and the back from it leave it: at the
end of the animation of the back, else at the end of the animation of the push. -/
def LiesAtEnd (disp : Display) (o : LvObj) (a : LvPmPageAnima) (mem mem' : Mem) : Prop :=
  match startedAxis a mem'.appear with
  | some .translateX => o.x = 0
  | some .translateY => o.y = 0 ∧ o.radius = 0
  | none =>
      match startedAxis a mem.disAppear with
      | some .translateX => o.x = -disp.horRes
      | some .translateY => o.y = 5 ∧ o.radius = 10
      | none => True

/-- Both pages of a transition move along the same axis, if they move. -/
theorem startedAxis_agree {a : LvPmPageAnima} {malloc : Bool} {ax : ExecCb} (malloc' : Bool)
    (h : startedAxis a malloc = some ax) :
    startedAxis a malloc' = none ∨ startedAxis a malloc' = some ax := by
  cases malloc' with
  | false => exact Or.inl rfl
  | true =>
      cases malloc with
      | false => cases h
      | true => exact Or.inr h

/-- With both allocations made, the page must lie at the origin of the axis, and after a popup have
no corner radius. -/
theorem liesAtEnd_of_malloc (disp : Display) (o : LvObj) (a : LvPmPageAnima) (mem mem' : Mem)
    (h : mem'.appear = true) :
    LiesAtEnd disp o a mem mem' ↔
      (a = .slide → o.x = 0) ∧ (a = .popup → o.y = 0 ∧ o.radius = 0) := by
  cases a <;> cases hdis : mem.disAppear <;> simp [LiesAtEnd, startedAxis, h, hdis]

/-- Whether a page is hidden at rest after a transition that starts with nothing running. -/
theorem settledHidden_moved {u v : Ui ω} {m : Move} (h : u.Moved m v) (hquiet : u.running = 0)
    (hne : m.away ≠ some m.page) (q : Addr) :
    v.settledHidden q =
      if q = m.page then false
      else ((u.obj q).hidden || decide (m.away = some q) && Ui.hides m.disAppearCb m.options) := by
  simp only [Ui.settledHidden, h.hidden, h.pending, Ui.pending_of_quiet hquiet, Ui.hides_appearCb]
  by_cases hq : q = m.page
  · simp [hq, hne]
  · cases hhide : Ui.hides m.disAppearCb m.options
    · simp [hq]
    · by_cases haway : m.away = some q
      · cases hleave : m.leaving with
        | none => simp [hq, haway]
        | some ax => cases ax <;> simp [hq, haway]
      · simp [hq, haway]

section Finished

variable {u : Ui ω} {m : Move} {r t : State ω} (hfin : Finishes r t) (hmoved : u.Moved m r.ui)

include hfin hmoved

/-- Where a page lies once a move from a state where nothing ran has been finished. -/
theorem Finishes.coord_moved (hu : u.running = 0) (ht : t.ui.running = 0) (q : Addr) (ax : ExecCb) :
    (t.ui.obj q).coord ax =
      if q = m.page ∧ m.appearing = some ax then appearEnd m.back ax
      else if m.away = some q ∧ m.leaving = some ax then disAppearEnd u.disp m.back ax
      else (u.obj q).coord ax := by
  calc
    _ = t.ui.settled q ax := (Ui.settled_of_quiet ht q ax).symm
    _ = r.ui.settled q ax := by rw [hfin.settled]
    _ = _ := by rw [hmoved.settled, Ui.settled_of_quiet hu]

/-- Which pages are hidden then. -/
theorem Finishes.hidden_moved (hu : u.running = 0) (ht : t.ui.running = 0) (hne : m.away ≠ some m.page)
    (q : Addr) :
    (t.ui.obj q).hidden =
      if q = m.page then false
      else ((u.obj q).hidden || decide (m.away = some q) && Ui.hides m.disAppearCb m.options) := by
  rw [← Ui.settledHidden_of_quiet ht, hfin.settledHidden, settledHidden_moved hmoved hu hne]

theorem Finishes.radius_moved (q : Addr) :
    (t.ui.obj q).radius =
      if q = m.page ∧ m.appearing = some .translateY ∨ m.away = some q ∧ m.leaving = some .translateY
      then if m.back then 0 else 10
      else (u.obj q).radius := by
  rw [hfin.radius, hmoved.radius]

end Finished

/-- The page `q`, other than the page `p` pushed over `c`, after the push when nothing runs any more. -/
structure Pushed (s : State ω) (c p : Addr) (b : LvPmOpenOptions) (mem : Mem) (t : State ω) :
    Prop where
  ready : t.Ready
  tagged : t.ui.Tagged
  quiet : t.ui.running = 0
  slot : t.slot = s.slot
  stack : ∃ id, t.stack = s.stack ++ [id]
  topPage : t.topPage = some p
  options : (t.ui.pages p).options = b
  disp : t.ui.disp = s.ui.disp
  hidden : ∀ q, q ≠ p → (t.ui.obj q).hidden =
    ((s.ui.obj q).hidden || decide (c = q) && Ui.hides .disAppear b)
  coord : ∀ q ax, q ≠ p → (t.ui.obj q).coord ax =
    if c = q ∧ startedAxis b.animation mem.disAppear = some ax then disAppearEnd s.ui.disp false ax
    else (s.ui.obj q).coord ax
  radius : ∀ q, q ≠ p → (t.ui.obj q).radius =
    if c = q ∧ startedAxis b.animation mem.disAppear = some .translateY then 10
    else (s.ui.obj q).radius

theorem pushed_of_run {s t : State ω} (hs : s.Ready) (htagged : s.ui.Tagged)
    (hquiet : s.ui.running = 0) {c p : Addr} (htop : s.topPage = some c)
    (hlen : s.stack.length ≠ lvPmPageNum) {id : PageId} (hslot : s.slot id.id = some p) (hne : c ≠ p)
    {behavior : Option LvPmOpenOptions} (hpush : ∀ b ∈ behavior, b.target = .reset) {mem : Mem}
    {d : List Action} (hd : ∀ a ∈ d, a.IsLvgl)
    (hrun : Run.run step s (.openPage id behavior mem :: d) = .ok t) (ht : t.ui.running = 0) :
    Pushed s c p (behavior.getD (s.ui.pages p).options) mem t := by
  obtain ⟨r, hr, hrun⟩ := Run.run_cons_ok hrun
  have hto := stepTo_of_step hs hr
  have htready := ready_of_run (hto.ready hs) hrun
  cases hto with
  | refused h => exact absurd h (by simp [hslot, hlen])
  | @opened _ _ _ p' _ _ hslot' _ h =>
      obtain rfl : p' = p := Option.some.inj (hslot'.symm.trans hslot)
      let m : Move := ⟨some c, p', false, behavior.getD (s.ui.pages p').options, mem⟩
      have hmoved : s.ui.Moved m r.ui := by
        rw [h.ui, htop]
        exact .opened _ _ _ _
      obtain ⟨hfin, htag⟩ := finishes_of_run hd (hmoved.tagged htagged) hrun
      have hstack : r.stack = s.stack ++ [id.id] := by
        rw [h.stack]
        unfold openStack
        cases behavior with
        | none => rfl
        | some b => simp [hpush b rfl]
      have hrouter : r.slot = s.slot := State.slot_congr h.router
      have hdisp : r.ui.disp = s.ui.disp := by
        rw [h.ui]
        exact (Ui.sameStatic_openUi _ _ _ _ _).1
      refine ⟨htready, htag, ht, hfin.slot.trans hrouter, ⟨id.id, hfin.stack.trans hstack⟩, ?_, ?_,
        hfin.disp.trans hdisp, fun q hq => ?_, fun q ax hq => ?_, fun q hq => ?_⟩
      · rw [hfin.topPage, State.topPage, State.top, hstack, List.getLast?_concat, hrouter]
        exact hslot
      · rw [hfin.options, h.ui, Ui.options_openUi, if_pos rfl]
      · rw [hfin.hidden_moved hmoved hquiet ht (fun h => hne (Option.some.inj h)), if_neg hq]
        simp [m, Move.disAppearCb]
      · rw [hfin.coord_moved hmoved hquiet ht]
        simp only [m, hq, false_and, if_false, Option.some.injEq, Move.leaving]
      · rw [hfin.radius_moved hmoved]
        simp [m, hq, Move.leaving]

/-- The page `c` and the other pages after a push of `p` over `c` and the back, when nothing runs any
more. -/
structure Returned (s : State ω) (c p : Addr) (a : LvPmPageAnima) (mem mem' : Mem) (t : State ω) :
    Prop where
  len : t.lvPmHistoryLen = s.lvPmHistoryLen
  stack : t.stack = s.stack
  hidden : ∀ q, (t.ui.obj q).hidden =
    if q = c then false else if q = p then true else (s.ui.obj q).hidden
  coord : ∀ ax, (t.ui.obj c).coord ax =
    if startedAxis a mem'.appear = some ax then 0
    else if startedAxis a mem.disAppear = some ax then disAppearEnd s.ui.disp false ax
    else (s.ui.obj c).coord ax
  radius : (t.ui.obj c).radius =
    if startedAxis a mem'.appear = some .translateY then 0
    else if startedAxis a mem.disAppear = some .translateY then 10
    else (s.ui.obj c).radius
  other : ∀ q, q ≠ c → q ≠ p → (t.ui.obj q).x = (s.ui.obj q).x ∧ (t.ui.obj q).y = (s.ui.obj q).y ∧
    (t.ui.obj q).radius = (s.ui.obj q).radius

/-- The back from the page pushed is a move away from it. -/
theorem Pushed.back_step {s t₁ r : State ω} {c p : Addr} (htop : s.topPage = some c)
    {b : LvPmOpenOptions} {mem mem' : Mem} (hpushed : Pushed s c p b mem t₁)
    (hr : step t₁ (.back mem') = .ok r) :
    r.Wf ∧ r.stack = s.stack ∧ t₁.ui.Moved ⟨some p, c, true, b, mem'⟩ r.ui := by
  have hto := stepTo_of_step hpushed.ready hr
  have hrwf := hto.wf hpushed.ready.wf
  obtain ⟨id, hstack⟩ := hpushed.stack
  cases hto with
  | noBack h =>
      have hne_nil : s.stack ≠ [] := fun h => by simp [State.topPage, State.top, h] at htop
      have := List.length_pos_iff.mpr hne_nil
      rw [hstack, List.length_append, List.length_singleton] at h
      omega
  | @back _ p' c' _ _ hlen h =>
      obtain rfl : p' = p := Option.some.inj (h.topPage.symm.trans hpushed.topPage)
      have hback : r.stack = s.stack := by rw [h.stack, hstack, List.dropLast_concat]
      have hslot : r.slot = s.slot := (State.slot_congr h.router).trans hpushed.slot
      obtain rfl : c' = c := by
        have hbelow := h.below
        rw [State.topPage, State.top, hback, hslot] at hbelow
        exact Option.some.inj (hbelow.symm.trans htop)
      refine ⟨hrwf, hback, ?_⟩
      rw [h.ui, ← hpushed.options]
      exact .backed _ _ _

theorem returned_of_run {s t₁ t : State ω} (hs : s.Wf) {c p : Addr} (htop : s.topPage = some c)
    {b : LvPmOpenOptions} {mem mem' : Mem} (hpushed : Pushed s c p b mem t₁) (hne : c ≠ p)
    {d : List Action} (hd : ∀ a ∈ d, a.IsLvgl) (hrun : Run.run step t₁ (.back mem' :: d) = .ok t)
    (ht : t.ui.running = 0) : Returned s c p b.animation mem mem' t := by
  obtain ⟨r, hr, hrun⟩ := Run.run_cons_ok hrun
  obtain ⟨hrwf, hback, hmoved⟩ := hpushed.back_step htop hr
  obtain ⟨hfin, -⟩ := finishes_of_run hd (hmoved.tagged hpushed.tagged) hrun
  have hcoord : ∀ q ax, q ≠ p → (t.ui.obj q).coord ax =
      if q = c ∧ startedAxis b.animation mem'.appear = some ax then 0
      else (t₁.ui.obj q).coord ax := by
    intro q ax hq
    have hend : appearEnd true ax = 0 := by cases ax <;> rfl
    rw [hfin.coord_moved hmoved hpushed.quiet ht]
    simp only [Move.appearing, Option.some.injEq, hend, hq.symm, false_and, if_false]
  have hradius : ∀ q, q ≠ p → (t.ui.obj q).radius =
      if q = c ∧ startedAxis b.animation mem'.appear = some .translateY then 0
      else (t₁.ui.obj q).radius := by
    intro q hq
    rw [hfin.radius_moved hmoved]
    simp [hq.symm, Move.appearing]
  have hother : ∀ q, q ≠ c → q ≠ p → ∀ ax, (t.ui.obj q).coord ax = (s.ui.obj q).coord ax := by
    intro q hc hp ax
    rw [hcoord q ax hp, if_neg (fun h => hc h.1), hpushed.coord q ax hp,
      if_neg (fun h => hc h.1.symm)]
  refine ⟨?_, hfin.stack.trans hback, fun q => ?_, fun ax => ?_, ?_, fun q hc hp =>
    ⟨hother q hc hp .translateX, hother q hc hp .translateY, ?_⟩⟩
  · rw [hfin.len, ← UInt8.toNat_inj, ← State.length_stack hrwf, ← State.length_stack hs, hback]
  · rw [hfin.hidden_moved hmoved hpushed.quiet ht (fun h => hne (Option.some.inj h).symm)]
    by_cases hc : q = c
    · rw [if_pos hc, if_pos hc]
    · rw [if_neg hc, if_neg hc]
      by_cases hp : q = p
      · simp [hp, Move.disAppearCb, Ui.hides]
      · simp [hp, Ne.symm hp, hpushed.hidden q hp, Ne.symm hc]
  · rw [hcoord c ax hne, hpushed.coord c ax hne]
    simp
  · rw [hradius c hne, hpushed.radius c hne]
    simp
  · rw [hradius q hp, if_neg (fun h => hc h.1), hpushed.radius q hp, if_neg (fun h => hc h.1.symm)]

theorem restored_iff {s t : State ω} {c p : Addr} {a : LvPmPageAnima} {mem mem' : Mem}
    (h : Returned s c p a mem mem' t) (hcreated : ∃ id, s.slot id = some c)
    (hshown : (s.ui.obj c).hidden = false) (hhidden : (s.ui.obj p).hidden = true) :
    Restored s t ↔ LiesAtEnd s.ui.disp (s.ui.obj c) a mem mem' := by
  have hx := h.coord .translateX
  have hy := h.coord .translateY
  have hr := h.radius
  -- the page on top is the only one whose place can differ
  have hplace : Restored s t ↔ (t.ui.obj c).x = (s.ui.obj c).x ∧ (t.ui.obj c).y = (s.ui.obj c).y ∧
      (t.ui.obj c).radius = (s.ui.obj c).radius := by
    obtain ⟨id, hid⟩ := hcreated
    refine ⟨fun hres => hres.place id c hid hshown, fun hc => ⟨h.len, h.stack, ?_, ?_⟩⟩
    · intro _ q _
      rw [h.hidden]
      by_cases hqc : q = c
      · rw [if_pos hqc, hqc, hshown]
      · by_cases hqp : q = p
        · rw [if_neg hqc, if_pos hqp, hqp, hhidden]
        · rw [if_neg hqc, if_neg hqp]
    · intro _ q _ hq
      by_cases hqc : q = c
      · rw [hqc]
        exact hc
      · exact h.other q hqc fun hqp => by simp [hqp, hhidden] at hq
  rw [hplace]
  simp only [LvObj.coord] at hx hy
  rw [hx, hy, hr, LiesAtEnd]
  cases hback : startedAxis a mem'.appear with
  | some ax =>
      cases ax <;> rcases startedAxis_agree mem.disAppear hback with hpush | hpush <;>
        simp [hpush, eq_comm]
  | none =>
      cases hpush : startedAxis a mem.disAppear with
      | none => simp
      | some ax => cases ax <;> simp [disAppearEnd, eq_comm]

/-- `t` follows `s` by an open, the completion of its animations, a back and the completion of
its animations, both in any order. -/
def PushAndBack (s : State ω) (id : PageId) (behavior : Option LvPmOpenOptions) (mem mem' : Mem)
    (t : State ω) : Prop :=
  ∃ d d' t₁, (∀ a ∈ d, a.IsLvgl) ∧ (∀ a ∈ d', a.IsLvgl) ∧
    Run.run step s (.openPage id behavior mem :: d) = .ok t₁ ∧ t₁.ui.running = 0 ∧
    Run.run step t₁ (.back mem' :: d') = .ok t ∧ t.ui.running = 0

theorem exists_settle {s : State ω} (hs : s.Ready) (a : Action) :
    ∃ d t, (∀ b ∈ d, b.IsLvgl) ∧ Run.run step s (a :: d) = .ok t ∧ t.ui.running = 0 := by
  obtain ⟨r, hr, -⟩ := step_total hs a
  obtain ⟨d, t, hd, ht, hquiet⟩ := exists_drain r
  exact ⟨d, t, hd, by rw [Run.run_cons_of_ok hr, ht], hquiet⟩

theorem exists_pushAndBack {s : State ω} (hs : s.Ready) (id : PageId)
    (behavior : Option LvPmOpenOptions) (mem mem' : Mem) :
    ∃ t, PushAndBack s id behavior mem mem' t := by
  obtain ⟨d, t₁, hd, ht₁, hquiet₁⟩ := exists_settle hs (.openPage id behavior mem)
  obtain ⟨d', t, hd', ht, hquiet⟩ := exists_settle (ready_of_run hs ht₁) (.back mem')
  exact ⟨t, d, d', t₁, hd, hd', ht₁, hquiet₁, ht, hquiet⟩

/-- **Back restores the picture.** From every reachable state in which nothing runs and the page on top
is not hidden, an open that pushes a hidden page, all completions, a back and all completions restore
the history and the picture if and only if the page on top lies where the two transitions leave it. -/
theorem back_restores_picture (c : Setup ω) {s₀ s : State ω} (h₀ : c.Starts s₀)
    (hreach : Run.Reachable step s₀ s) (hquiet : s.ui.running = 0) {q p : Addr}
    (htop : s.topPage = some q) (hlen : s.stack.length ≠ lvPmPageNum)
    (hshown : (s.ui.obj q).hidden = false) {id : PageId} (hslot : s.slot id.id = some p)
    (hhidden : (s.ui.obj p).hidden = true) (behavior : Option LvPmOpenOptions)
    (hpush : ∀ b ∈ behavior, b.target = .reset) (mem mem' : Mem) :
    (∃ t, PushAndBack s id behavior mem mem' t) ∧
    ∀ t, PushAndBack s id behavior mem mem' t →
      (Restored s t ↔ LiesAtEnd s.ui.disp (s.ui.obj q)
        (behavior.getD (s.ui.pages p).options).animation mem mem') := by
  obtain ⟨w, hw⟩ := hreach
  have hs := ready_tagged_of_run h₀.started hw
  have hne : q ≠ p := fun h => by simp [h, hhidden] at hshown
  refine ⟨exists_pushAndBack hs.1 id behavior mem mem', ?_⟩
  rintro t ⟨d, d', t₁, hd, hd', hrun, hquiet₁, hrun', ht⟩
  have hpushed := pushed_of_run hs.1 hs.2 hquiet htop hlen hslot hne hpush hd hrun hquiet₁
  have hreturned := returned_of_run hs.1.wf htop hpushed hne hd' hrun' ht
  exact restored_iff hreturned (exists_slot_of_topPage htop) hshown hhidden

/-- The state after a run of the demonstration that does not fail. -/
def demoAfter (w : List Action) : State Unit :=
  match Run.run step demoState w with
  | .ok s => s
  | .error _ => demoState

/-- Page 1 is shown as a popup, 15 below the top edge and with rounded corners; a popup over it and the
back move it to the top edge and make its corners square. -/
theorem popup_over_popup_not_restored : demo.Starts demoState ∧
    let w : List Action :=
      [.openPage (.ofNat 0) (some ⟨.none, .new, .left⟩) ⟨true, true⟩,
        .openPage (.ofNat 1) (some ⟨.popup, .new, .left⟩) ⟨true, true⟩,
        .lvgl (.ready (0, .translateY)), .lvgl (.ready (1, .translateY))]
    let s := demoAfter w
    Run.run step demoState w = .ok s ∧ s.ui.running = 0 ∧ s.topPage = some 1 ∧
    (s.ui.obj 1).hidden = false ∧ s.slot 2 = some 2 ∧ (s.ui.obj 2).hidden = true ∧
    ∃ t, PushAndBack s (.ofNat 2) (some ⟨.popup, .reset, .left⟩) ⟨true, true⟩ ⟨true, true⟩ t ∧
      (s.ui.obj 1).y = 15 ∧ (t.ui.obj 1).y = 0 ∧ (s.ui.obj 1).radius = 10 ∧
      (t.ui.obj 1).radius = 0 ∧ ¬Restored s t := by
  refine ⟨demo_starts, rfl, by decide, by decide, by decide, by decide, by decide, _,
    ⟨[.lvgl (.ready (1, .translateY)), .lvgl (.ready (2, .translateY))],
      [.lvgl (.ready (1, .translateY)), .lvgl (.ready (2, .translateY))], _, by decide, by decide, rfl,
      by decide, rfl, by decide⟩, by decide, by decide, by decide, by decide, fun h => ?_⟩
  exact absurd (h.place 1 1 (by decide) (by decide)).2.1 (by decide)

/-- Page 0 is shown at the origin. -/
def restoreDemo : List Action :=
  [.openPage (.ofNat 0) (some ⟨.none, .new, .left⟩) ⟨true, true⟩]

theorem back_restores_picture_demo :
    let s := demoAfter restoreDemo
    (∃ t, PushAndBack s (.ofNat 1) (some ⟨.popup, .reset, .left⟩) ⟨true, true⟩ ⟨true, true⟩ t) ∧
    ∀ t, PushAndBack s (.ofNat 1) (some ⟨.popup, .reset, .left⟩) ⟨true, true⟩ ⟨true, true⟩ t →
      (Restored s t ↔ LiesAtEnd s.ui.disp (s.ui.obj 0) .popup ⟨true, true⟩ ⟨true, true⟩) :=
  back_restores_picture demo demo_starts ⟨restoreDemo, rfl⟩ (by decide) (q := 0) (p := 1) (by decide)
    (by decide) (by decide) (by decide) (by decide) _ (by decide) _ _

end SwmLvgl.Pm
