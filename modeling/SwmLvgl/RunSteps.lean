import Mathlib.Data.List.Infix
import Mathlib.Tactic.Common

/-! Finite runs of a fallible step function. A run performs a list of actions and stops at the
first fault. `AllSteps` says that every step of a run meets a condition on the state it starts from;
the rules below turn facts about one step into facts about all runs, and a condition that one step
needs and keeps into the exact condition for whole runs. -/

namespace SwmLvgl.Run

variable {σ α ε : Type*} (step : σ → α → Except ε σ)

/-- The state after the actions in order, or the first fault. -/
def run : σ → List α → Except ε σ
  | s, [] => .ok s
  | s, a :: w =>
      match step s a with
      | .ok t => run t w
      | .error e => .error e

/-- Every step taken from `s` along `w` meets `C` in the state it starts from. -/
def AllSteps (C : σ → α → Prop) : σ → List α → Prop
  | _, [] => True
  | s, a :: w => C s a ∧
      match step s a with
      | .ok t => AllSteps C t w
      | .error _ => True

instance allStepsDecidable (C : σ → α → Prop) [∀ s a, Decidable (C s a)] :
    ∀ (s : σ) (w : List α), Decidable (AllSteps step C s w)
  | _, [] => inferInstanceAs (Decidable True)
  | s, a :: w =>
      have : Decidable (match step s a with
          | .ok t => AllSteps step C t w
          | .error _ => True) :=
        match step s a with
        | .ok t => allStepsDecidable C t w
        | .error _ => inferInstanceAs (Decidable True)
      inferInstanceAs (Decidable (_ ∧ _))

/-- Some run leads from `s` to `t`. -/
def Reachable (s t : σ) : Prop := ∃ w, run step s w = .ok t

@[simp] theorem run_nil (s : σ) : run step s [] = .ok s := rfl

variable {step}

/-- What is known of some result holds of the result. -/
theorem of_exists_ok {x : Except ε σ} {Q : σ → Prop} (h : ∃ u, x = .ok u ∧ Q u) {t : σ}
    (ht : x = .ok t) : Q t := by
  obtain ⟨u, hu, hQ⟩ := h
  rw [ht] at hu
  cases hu
  exact hQ

theorem bind_of_ok {τ : Type*} {x : Except ε σ} {s : σ} {f : σ → Except ε τ} (h : x = .ok s) :
    x.bind f = f s := by
  rw [h]
  rfl

theorem run_cons_of_ok {s t : σ} {a : α} {w : List α} (h : step s a = .ok t) :
    run step s (a :: w) = run step t w := by
  simp only [run, h]

theorem run_cons_ok {s u : σ} {a : α} {w : List α} (h : run step s (a :: w) = .ok u) :
    ∃ t, step s a = .ok t ∧ run step t w = .ok u := by
  rw [run] at h
  split at h
  · exact ⟨_, ‹_›, h⟩
  · cases h

theorem run_singleton {s : σ} {a : α} : run step s [a] = step s a := by
  rw [run]
  split <;> simp [*]

theorem run_append_of_ok {s t : σ} {v w : List α} (h : run step s v = .ok t) :
    run step s (v ++ w) = run step t w := by
  induction v generalizing s with
  | nil =>
      cases h
      rfl
  | cons a v ih =>
      obtain ⟨r, hstep, hrun⟩ := run_cons_ok h
      rw [List.cons_append, run_cons_of_ok hstep]
      exact ih hrun

/-- A property every step keeps holds in every state a run reaches. -/
theorem run_invariant {I : σ → Prop} (hstep : ∀ s a t, I s → step s a = .ok t → I t)
    {s t : σ} {w : List α} (hs : I s) (h : run step s w = .ok t) : I t := by
  induction w generalizing s with
  | nil =>
      cases h
      exact hs
  | cons a w ih =>
      obtain ⟨r, hr, hrun⟩ := run_cons_ok h
      exact ih (hstep s a r hs hr) hrun

/-- A property that every step meeting `C` keeps holds wherever a run of such steps leads. -/
theorem AllSteps.invariant {I : σ → Prop} {C : σ → α → Prop}
    (hstep : ∀ s a t, I s → C s a → step s a = .ok t → I t) {s t : σ} {w : List α}
    (hw : AllSteps step C s w) (hs : I s) (h : run step s w = .ok t) : I t := by
  induction w generalizing s with
  | nil =>
      cases h
      exact hs
  | cons a w ih =>
      obtain ⟨r, hr, hrun⟩ := run_cons_ok h
      obtain ⟨hC, hrest⟩ := hw
      rw [hr] at hrest
      exact ih hrest (hstep s a r hs hC hr) hrun

/-- If steps from an invariant succeed and keep it, then so does every run. -/
theorem run_total {I : σ → Prop} (hstep : ∀ s a, I s → ∃ t, step s a = .ok t ∧ I t) {s : σ}
    (hs : I s) (w : List α) : ∃ t, run step s w = .ok t ∧ I t := by
  induction w generalizing s with
  | nil => exact ⟨s, rfl, hs⟩
  | cons a w ih =>
      obtain ⟨r, hr, hI⟩ := hstep s a hs
      obtain ⟨t, ht, ht'⟩ := ih hI
      exact ⟨t, by rw [run_cons_of_ok hr, ht], ht'⟩

/-- The same for steps that meet a condition. -/
theorem AllSteps.total {I : σ → Prop} {C : σ → α → Prop}
    (hstep : ∀ s a, I s → C s a → ∃ t, step s a = .ok t ∧ I t) {s : σ} {w : List α}
    (hw : AllSteps step C s w) (hs : I s) : ∃ t, run step s w = .ok t ∧ I t := by
  induction w generalizing s with
  | nil => exact ⟨s, rfl, hs⟩
  | cons a w ih =>
      obtain ⟨hC, hrest⟩ := hw
      obtain ⟨r, hr, hI⟩ := hstep s a hs hC
      rw [hr] at hrest
      obtain ⟨t, ht, ht'⟩ := ih hrest hI
      exact ⟨t, by rw [run_cons_of_ok hr, ht], ht'⟩

/-- If exactly the steps that meet a condition succeed, a run succeeds exactly if all its steps meet it. -/
theorem run_ok_iff {C : σ → α → Prop} (hstep : ∀ s a, (∃ t, step s a = .ok t) ↔ C s a) {s : σ} {w : List α} :
    (∃ t, run step s w = .ok t) ↔ AllSteps step C s w := by
  induction w generalizing s with
  | nil => exact iff_of_true ⟨s, rfl⟩ trivial
  | cons a w ih =>
      constructor
      · rintro ⟨t, ht⟩
        obtain ⟨r, hr, hrun⟩ := run_cons_ok ht
        refine ⟨(hstep s a).mp ⟨r, hr⟩, ?_⟩
        rw [hr]
        exact ih.mp ⟨t, hrun⟩
      · rintro ⟨hC, hrest⟩
        obtain ⟨r, hr⟩ := (hstep s a).mpr hC
        rw [hr] at hrest
        rw [run_cons_of_ok hr]
        exact ih.mpr hrest

theorem run_idle (s : σ) (w : List α) : run (fun s _ => (.ok s : Except ε σ)) s w = .ok s := by
  induction w with
  | nil => rfl
  | cons a w ih => exact ih

/-- The rule for a counting loop: `I m` holds before the pass for `m`. -/
theorem run_range {step : σ → Nat → Except ε σ} {I : Nat → σ → Prop} {n : Nat}
    (hstep : ∀ m < n, ∀ s, I m s → ∃ t, step s m = .ok t ∧ I (m + 1) t) {s : σ} (hs : I 0 s) :
    ∃ t, run step s (List.range n) = .ok t ∧ I n t := by
  induction n with
  | zero => exact ⟨s, rfl, hs⟩
  | succ n ih =>
      obtain ⟨r, hr, hI⟩ := ih fun m hm => hstep m (hm.trans (Nat.lt_succ_self n))
      obtain ⟨t, ht, ht'⟩ := hstep n (Nat.lt_succ_self n) r hI
      exact ⟨t, by rw [List.range_succ, run_append_of_ok hr, run_singleton, ht], ht'⟩

/-- The same rule for a loop that cannot fail. -/
theorem foldl_range {f : σ → Nat → σ} {I : Nat → σ → Prop} {n : Nat}
    (hstep : ∀ m < n, ∀ s, I m s → I (m + 1) (f s m)) {s : σ} (hs : I 0 s) :
    I n ((List.range n).foldl f s) := by
  induction n with
  | zero => exact hs
  | succ n ih =>
      rw [List.range_succ, List.foldl_append]
      exact hstep n (Nat.lt_succ_self n) _ (ih fun m hm => hstep m (hm.trans (Nat.lt_succ_self n)))

/-- `AllSteps` says the condition of every step after every prefix of the run. -/
theorem allSteps_iff_prefix {C : σ → α → Prop} {s : σ} {w : List α} :
    AllSteps step C s w ↔ ∀ p a t, p ++ [a] <+: w → run step s p = .ok t → C t a := by
  induction w generalizing s with
  | nil =>
      refine ⟨fun _ p a t hp => absurd (List.prefix_nil.mp hp) (by simp), fun _ => trivial⟩
  | cons b w ih =>
      constructor
      · rintro ⟨hC, hrest⟩ p a t hp ht
        cases p with
        | nil =>
            obtain ⟨rfl, -⟩ := List.cons_prefix_cons.mp hp
            cases ht
            exact hC
        | cons c p =>
            obtain ⟨rfl, hp'⟩ := List.cons_prefix_cons.mp hp
            obtain ⟨r, hr, hrun⟩ := run_cons_ok ht
            rw [hr] at hrest
            exact ih.mp hrest p a t hp' hrun
      · intro h
        refine ⟨h [] b s (by simp) rfl, ?_⟩
        cases hr : step s b with
        | error e => trivial
        | ok r =>
            refine ih.mpr fun p a t hp ht => h (b :: p) a t ?_ ?_
            · exact List.cons_prefix_cons.mpr ⟨rfl, hp⟩
            · rw [run_cons_of_ok hr, ht]

theorem AllSteps.of_prefix {C : σ → α → Prop} {s : σ} {p w : List α} (hw : AllSteps step C s w)
    (hp : p <+: w) : AllSteps step C s p :=
  allSteps_iff_prefix.mpr fun q a t hq ht => allSteps_iff_prefix.mp hw q a t (hq.trans hp) ht

/-- A condition that in every state of the run says the same of an action holds of all steps if and
only if that is true of all actions. -/
theorem allSteps_iff_forall {I : σ → Prop} {C : σ → α → Prop} {D : α → Prop}
    (hiff : ∀ s a, I s → (C s a ↔ D a))
    (hok : ∀ s a, I s → C s a → ∃ t, step s a = .ok t ∧ I t) {s : σ} (hs : I s) {w : List α} :
    AllSteps step C s w ↔ ∀ a ∈ w, D a := by
  induction w generalizing s with
  | nil => exact iff_of_true trivial fun a ha => absurd ha List.not_mem_nil
  | cons a w ih =>
      rw [List.forall_mem_cons]
      constructor
      · rintro ⟨hC, hrest⟩
        obtain ⟨t, ht, hI⟩ := hok s a hs hC
        rw [ht] at hrest
        exact ⟨(hiff s a hs).mp hC, (ih hI).mp hrest⟩
      · rintro ⟨hD, hrest⟩
        have hC := (hiff s a hs).mpr hD
        obtain ⟨t, ht, hI⟩ := hok s a hs hC
        refine ⟨hC, ?_⟩
        rw [ht]
        exact (ih hI).mpr hrest

/-- If, in every state of the run, exactly the actions in `D` succeed, then the run succeeds if and only
if all its actions are in `D`; else it ends with one of the faults `E`. -/
theorem run_exact {I : σ → Prop} {D : α → Prop} {E : ε → Prop} {w : List α}
    (hok : ∀ s, ∀ a ∈ w, I s → D a → ∃ t, step s a = .ok t ∧ I t)
    (herr : ∀ s, ∀ a ∈ w, I s → ¬D a → ∃ e, step s a = .error e ∧ E e) {s : σ} (hs : I s) :
    ((∀ a ∈ w, D a) ∧ ∃ t, run step s w = .ok t ∧ I t) ∨
      (¬(∀ a ∈ w, D a) ∧ ∃ e, run step s w = .error e ∧ E e) := by
  induction w generalizing s with
  | nil => exact Or.inl ⟨fun a ha => absurd ha List.not_mem_nil, s, rfl, hs⟩
  | cons a w ih =>
      by_cases ha : D a
      · obtain ⟨r, hr, hI⟩ := hok s a List.mem_cons_self hs ha
        rw [run_cons_of_ok hr, List.forall_mem_cons]
        refine (ih (fun s b hb => hok s b (List.mem_cons_of_mem a hb))
          (fun s b hb => herr s b (List.mem_cons_of_mem a hb)) hI).imp ?_ ?_
        · exact fun h => ⟨⟨ha, h.1⟩, h.2⟩
        · exact fun h => ⟨fun hall => h.1 hall.2, h.2⟩
      · obtain ⟨e, he, hE⟩ := herr s a List.mem_cons_self hs ha
        exact Or.inr ⟨fun hall => ha (hall a List.mem_cons_self), e, by rw [run, he], hE⟩

/-- The exact condition for runs: if `C` keeps the invariant `I`, `I` gives the property `P`, and a
step from `I` after which `P` holds meets `C`, then `P` holds in every state along a run if and only
if every step of the run meets `C`. -/
theorem prefixes_iff_allSteps {I P : σ → Prop} {C : σ → α → Prop} (hIP : ∀ s, I s → P s)
    (hkeep : ∀ s a t, I s → C s a → step s a = .ok t → I t)
    (hneed : ∀ s a, I s → (∀ t, step s a = .ok t → P t) → C s a)
    {s : σ} {w : List α} (hs : I s) :
    (∀ p t, p <+: w → run step s p = .ok t → P t) ↔ AllSteps step C s w := by
  constructor
  · intro h
    induction w generalizing s with
    | nil => trivial
    | cons a w ih =>
        have hC : C s a := by
          refine hneed s a hs fun t ht => h [a] t ?_ ?_
          · exact List.cons_prefix_cons.mpr ⟨rfl, List.nil_prefix⟩
          · rw [run_singleton, ht]
        refine ⟨hC, ?_⟩
        cases hr : step s a with
        | error e => trivial
        | ok r =>
            refine ih (hkeep s a r hs hC hr) fun p t hp ht => h (a :: p) t ?_ ?_
            · exact List.cons_prefix_cons.mpr ⟨rfl, hp⟩
            · rw [run_cons_of_ok hr, ht]
  · intro hw p t hp ht
    exact hIP t ((hw.of_prefix hp).invariant hkeep hs ht)

/-! ### Properties of settled states

Some actions `D` only finish what earlier steps have started, and finishing everything is always
possible. A property `Good` of what the run shows may fail before that; `G` is its value in advance,
which the finishing actions do not change. -/

section Settle

variable {J : σ → Prop} {Good G Q : σ → Prop} {C : σ → α → Prop} {D A : α → Prop}

/-- Finishing actions keep `G`, in both directions. -/
theorem settled_run (hJ : ∀ s a t, A a → J s → step s a = .ok t → J t) (hDA : ∀ a, D a → A a)
    (hG : ∀ s a t, D a → J s → step s a = .ok t → (G t ↔ G s)) {s t : σ} {d : List α}
    (hd : ∀ a ∈ d, D a) (hs : J s) (h : run step s d = .ok t) : J t ∧ (G t ↔ G s) := by
  induction d generalizing s with
  | nil =>
      cases h
      exact ⟨hs, Iff.rfl⟩
  | cons a d ih =>
      obtain ⟨r, hr, hrun⟩ := run_cons_ok h
      have ha := hd a List.mem_cons_self
      obtain ⟨ht, hiff⟩ :=
        ih (fun b hb => hd b (List.mem_cons_of_mem a hb)) (hJ s a r (hDA a ha) hs hr) hrun
      exact ⟨ht, hiff.trans (hG s a r ha hs hr)⟩

/-- `G` holds exactly if `Good` holds whatever is finished next. -/
theorem settled_iff (hJ : ∀ s a t, A a → J s → step s a = .ok t → J t) (hDA : ∀ a, D a → A a)
    (hG : ∀ s a t, D a → J s → step s a = .ok t → (G t ↔ G s))
    (hgood : ∀ s, J s → G s → Good s) (hquiet : ∀ s, J s → Q s → Good s → G s)
    (hdrain : ∀ s, J s → ∃ d t, (∀ a ∈ d, D a) ∧ run step s d = .ok t ∧ Q t) {s : σ} (hs : J s) :
    (∀ d t, (∀ a ∈ d, D a) → run step s d = .ok t → Good t) ↔ G s := by
  constructor
  · intro h
    obtain ⟨d, t, hd, ht, hQ⟩ := hdrain s hs
    obtain ⟨htJ, hiff⟩ := settled_run hJ hDA hG hd hs ht
    exact hiff.mp (hquiet t htJ hQ (h d t hd ht))
  · intro h d t hd ht
    obtain ⟨htJ, hiff⟩ := settled_run hJ hDA hG hd hs ht
    exact hgood t htJ (hiff.mpr h)

/-- The exact condition for what a run shows once it has settled: if a step keeps `G` exactly when it
meets `C`, then `Good` holds along a run, whatever is finished after each of its prefixes, if and only
if every step of the run meets `C`. -/
theorem settled_iff_allSteps (hJ : ∀ s a t, A a → J s → step s a = .ok t → J t)
    (hDA : ∀ a, D a → A a) (hG : ∀ s a t, D a → J s → step s a = .ok t → (G t ↔ G s))
    (hgood : ∀ s, J s → G s → Good s) (hquiet : ∀ s, J s → Q s → Good s → G s)
    (hdrain : ∀ s, J s → ∃ d t, (∀ a ∈ d, D a) ∧ run step s d = .ok t ∧ Q t)
    (hok : ∀ s a, A a → J s → ∃ t, step s a = .ok t)
    (hC : ∀ s a t, A a → J s → G s → step s a = .ok t → (G t ↔ C s a))
    {s : σ} {w : List α} (hw : ∀ a ∈ w, A a) (hs : J s) (hGs : G s) :
    (∀ v d t, v <+: w → (∀ a ∈ d, D a) → run step s (v ++ d) = .ok t → Good t) ↔
      AllSteps step C s w := by
  constructor
  · intro h
    induction w generalizing s with
    | nil => trivial
    | cons a w ih =>
        have ha := hw a List.mem_cons_self
        obtain ⟨r, hr⟩ := hok s a ha hs
        have hrJ := hJ s a r ha hs hr
        have hrG : G r := by
          refine (settled_iff hJ hDA hG hgood hquiet hdrain hrJ).mp fun d t hd ht => h [a] d t ?_ hd ?_
          · exact List.cons_prefix_cons.mpr ⟨rfl, List.nil_prefix⟩
          · rw [List.singleton_append, run_cons_of_ok hr, ht]
        refine ⟨(hC s a r ha hs hGs hr).mp hrG, ?_⟩
        rw [hr]
        refine ih (fun b hb => hw b (List.mem_cons_of_mem a hb)) hrJ hrG fun v d t hv hd ht => ?_
        refine h (a :: v) d t (List.cons_prefix_cons.mpr ⟨rfl, hv⟩) hd ?_
        rw [List.cons_append, run_cons_of_ok hr, ht]
  · intro h v
    induction v generalizing s w with
    | nil =>
        exact fun d t _ hd ht => (settled_iff hJ hDA hG hgood hquiet hdrain hs).mpr hGs d t hd ht
    | cons b v ih =>
        intro d t hv hd ht
        cases w with
        | nil => exact absurd (List.prefix_nil.mp hv) (by simp)
        | cons a w =>
            obtain ⟨rfl, hv'⟩ := List.cons_prefix_cons.mp hv
            obtain ⟨hCb, hrest⟩ := h
            obtain ⟨r, hr, hrun⟩ := run_cons_ok ht
            have hb := hw b List.mem_cons_self
            rw [hr] at hrest
            exact ih (fun a ha => hw a (List.mem_cons_of_mem b ha)) (hJ s b r hb hs hr)
              ((hC s b r hb hs hGs hr).mpr hCb) hrest d t hv' hd hrun

end Settle

end SwmLvgl.Run
