import SwmLvgl.PmSpec

/-! The states from which runs start: after `lv_pm_init` and `lv_pm_create_page` for some ids. No page
is open, no animation runs, every page created is hidden at the origin, and each lies at an address of
its own, also when an id is created again. -/

namespace SwmLvgl.Pm

variable {ω : Type}

/-- What holds before the first open. -/
structure Started (s : State ω) : Prop where
  ready : s.Ready
  empty : s.lvPmHistoryLen = 0
  slot_lt : ∀ id p, s.slot id = some p → p < s.heap
  slot_inj : ∀ id id' p, s.slot id = some p → s.slot id' = some p → id = id'
  anims : s.ui.anims = ∅
  blocks : s.ui.blocks = []
  calls : s.ui.calls = 0
  done : s.ui.done = []
  trace : s.ui.trace = []
  page : ∀ id p, s.slot id = some p → (s.ui.pages p).page = State.createObj s.ui.disp
  options : ∀ p, (s.ui.pages p).options = default

theorem Started.stack {s : State ω} (h : Started s) : s.stack = [] := by
  simp [State.stack, h.empty]

theorem Started.topPage {s : State ω} (h : Started s) : s.topPage = none := by
  simp [State.topPage, State.top, h.stack]

theorem wf_of_empty {s : State ω} (h : s.lvPmHistoryLen = 0) : s.Wf := by
  constructor
  · simp [h]
  · simp [State.stack, h]

theorem slot_init (s : State ω) (id : UInt8) : s.lvPmInit.slot id = none := by
  unfold State.slot State.lvPmInit CArray.get
  simp only [Int.natCast_nonneg, if_true, Int.toNat_natCast, Vector.getElem?_replicate]
  split <;> rfl

theorem started_boot (disp : Display) (app : ω) : Started (boot disp app).lvPmInit where
  ready := ⟨wf_of_empty rfl, fun id p h => by simp [slot_init] at h⟩
  empty := rfl
  slot_lt id p h := by simp [slot_init] at h
  slot_inj id id' p h := by simp [slot_init] at h
  anims := rfl
  blocks := rfl
  calls := rfl
  done := rfl
  trace := rfl
  page id p h := by simp [slot_init] at h
  options _ := rfl

/-- The state after `lv_pm_create_page` with a successful allocation. -/
def State.created (s : State ω) (id : PageId) (lifecycle : Lifecycle ω) : State ω :=
  { s with
    lvPmRouter := s.lvPmRouter.setIfInBounds id.id.toNat (some s.heap)
    heap := s.heap + 1
    ui := { s.ui with
      pages := Function.update s.ui.pages s.heap
        ⟨State.createObj s.ui.disp, lifecycle, default, false⟩ } }

theorem lvPmCreatePage_eq (s : State ω) (id : PageId) (lifecycle : Lifecycle ω) :
    s.lvPmCreatePage id.id lifecycle true = .ok (some s.heap, s.created id lifecycle) := by
  simp [State.lvPmCreatePage, State.created, CArray.set_of_lt _ id.lt]

theorem createPages_cons (s : State ω) (id : PageId) (lifecycle : Lifecycle ω)
    (rest : List (PageId × Lifecycle ω)) :
    createPages ((id, lifecycle) :: rest) s = createPages rest (s.created id lifecycle) := by
  rw [createPages, lvPmCreatePage_eq]
  rfl

theorem slot_created (s : State ω) (id : PageId) (lifecycle : Lifecycle ω) (x : UInt8) :
    (s.created id lifecycle).slot x = if x = id.id then some s.heap else s.slot x := by
  simp only [State.slot, State.created, CArray.get_natCast, Vector.getElem?_setIfInBounds]
  by_cases hx : x = id.id
  · simp [hx, id.lt]
  · rw [if_neg (fun h => hx (UInt8.toNat_inj.mp h.symm)), if_neg hx]

theorem lifecycles_created (s : State ω) (id : PageId) (lifecycle : Lifecycle ω) :
    (s.created id lifecycle).ui.lifecycles =
      Function.update s.ui.lifecycles s.heap lifecycle := by
  funext p
  simp only [Ui.lifecycles, State.created, Function.update_apply]
  split <;> rfl

/-- Every page of the router has function pointers with the property `Q`. -/
def Lifecycles (Q : Lifecycle ω → Prop) (s : State ω) : Prop :=
  ∀ id p, s.slot id = some p → Q (s.ui.lifecycles p)

theorem Lifecycles.created {Q : Lifecycle ω → Prop} {s : State ω} (hs : Started s) (id : PageId)
    {lifecycle : Lifecycle ω} (hQ : Q lifecycle) (h : Lifecycles Q s) :
    Lifecycles Q (s.created id lifecycle) := by
  intro x p hp
  rw [slot_created] at hp
  rw [lifecycles_created]
  split at hp
  · cases hp
    rwa [Function.update_self]
  · rw [Function.update_of_ne (hs.slot_lt x p hp).ne]
    exact h x p hp

theorem Started.created {s : State ω} (hs : Started s) (id : PageId) {lifecycle : Lifecycle ω}
    (hload : lifecycle.onLoad.isSome) : Started (s.created id lifecycle) := by
  have hold : ∀ x p, s.slot x = some p → p ≠ s.heap := fun x p h => (hs.slot_lt x p h).ne
  refine ⟨⟨wf_of_empty hs.empty, ?_⟩, hs.empty, ?_, ?_, hs.anims, hs.blocks, hs.calls, hs.done,
    hs.trace, ?_, ?_⟩
  · exact Lifecycles.created (Q := fun l => l.onLoad.isSome) hs id hload hs.ready.loads
  · intro x p h
    rw [slot_created] at h
    split at h
    · cases h
      exact Nat.lt_succ_self _
    · exact (hs.slot_lt x p h).trans (Nat.lt_succ_self _)
  · intro x y p hx hy
    rw [slot_created] at hx hy
    split at hx <;> split at hy
    · rw [‹x = _›, ‹y = _›]
    · cases hx
      exact absurd rfl (hold y _ hy)
    · cases hy
      exact absurd rfl (hold x _ hx)
    · exact hs.slot_inj x y p hx hy
  · intro x p h
    rw [slot_created] at h
    split at h
    · cases h
      simp [State.created]
    · simp only [State.created, Function.update_of_ne (hold x p h)]
      exact hs.page x p h
  · intro p
    by_cases hp : p = s.heap
    · simp [State.created, hp]
    · simp only [State.created, Function.update_of_ne hp]
      exact hs.options p

theorem started_createPages {s : State ω} (hs : Started s) (pages : List (PageId × Lifecycle ω))
    (hload : ∀ e ∈ pages, e.2.onLoad.isSome) :
    ∃ t, createPages pages s = .ok t ∧ Started t ∧
      ∀ Q : Lifecycle ω → Prop, (∀ e ∈ pages, Q e.2) → Lifecycles Q s → Lifecycles Q t := by
  induction pages generalizing s with
  | nil => exact ⟨s, rfl, hs, fun _ _ hQ => hQ⟩
  | cons e pages ih =>
      obtain ⟨id, lifecycle⟩ := e
      have hnew := hs.created id (hload _ List.mem_cons_self)
      obtain ⟨t, ht, ht', hQt⟩ := ih hnew fun e he => hload e (List.mem_cons_of_mem _ he)
      refine ⟨t, by rw [createPages_cons, ht], ht', fun Q hQ hQs => ?_⟩
      exact hQt Q (fun e he => hQ e (List.mem_cons_of_mem _ he))
        (hQs.created hs id (hQ _ List.mem_cons_self))

/-- The pages an application creates, each with an `onLoad`, and the display it runs on. -/
structure Setup (ω : Type) where
  disp : Display
  app : ω
  pages : List (PageId × Lifecycle ω)
  onLoad : ∀ e ∈ pages, e.2.onLoad.isSome

/-- `s` is the state after `lv_pm_init` and the creation of the pages. -/
def Setup.Starts (c : Setup ω) (s : State ω) : Prop := start c.disp c.app c.pages = .ok s

theorem Setup.exists_starts (c : Setup ω) : ∃ s, c.Starts s ∧ Started s := by
  obtain ⟨s, hs, hs', -⟩ := started_createPages (started_boot c.disp c.app) c.pages c.onLoad
  exact ⟨s, hs, hs'⟩

theorem Setup.Starts.started {c : Setup ω} {s : State ω} (h : c.Starts s) : Started s :=
  Run.of_exists_ok c.exists_starts h

theorem Setup.Starts.lifecycles {c : Setup ω} {s : State ω} (h : c.Starts s)
    {Q : Lifecycle ω → Prop} (hQ : ∀ e ∈ c.pages, Q e.2) : Lifecycles Q s := by
  obtain ⟨-, hlife⟩ :=
    Run.of_exists_ok (started_createPages (started_boot c.disp c.app) c.pages c.onLoad) h
  exact hlife Q hQ fun id p hp => by simp [slot_init] at hp

/-- Callbacks that do nothing; only `onLoad` and `unLoad` are set. -/
def demoLifecycle : Lifecycle Unit :=
  ⟨some fun _ _ _ a => a, none, none, none, none, some fun _ _ _ a => a⟩

/-- A display of 480 by 272 and three pages. -/
def demo : Setup Unit where
  disp := ⟨480, 272, by decide, by decide⟩
  app := ()
  pages := [(.ofNat 0, demoLifecycle), (.ofNat 1, demoLifecycle),
    (.ofNat 2, demoLifecycle)]
  onLoad e he := by
    simp only [List.mem_cons, List.not_mem_nil, or_false] at he
    rcases he with rfl | rfl | rfl <;> rfl

/-- The state the demonstration starts from. -/
def demoState : State Unit :=
  match start demo.disp demo.app demo.pages with
  | .ok s => s
  | .error _ => boot demo.disp demo.app

theorem demo_starts : demo.Starts demoState := rfl

/-- Runs from a ready state never fault. -/
theorem run_ready {s : State ω} (hs : s.Ready) (w : List Action) :
    ∃ t, Run.run step s w = .ok t ∧ t.Ready := by
  refine Run.run_total (fun s a hs => ?_) hs w
  obtain ⟨r, hr, hstep⟩ := step_total hs a
  exact ⟨r, hr, hstep.ready hs⟩

theorem ready_of_run {s t : State ω} (hs : s.Ready) {w : List Action}
    (h : Run.run step s w = .ok t) : t.Ready :=
  Run.of_exists_ok (run_ready hs w) h

end SwmLvgl.Pm
