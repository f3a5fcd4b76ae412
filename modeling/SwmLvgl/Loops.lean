import Mathlib.Logic.Relation
import Mathlib.Tactic.Common

/-! Loops that need not end. A loop is a step that either goes on with a new state or leaves with a
result, and it is run with fuel. `exits_of_measure` is the rule for total correctness,
`not_exits_of_invariant` the one for a loop that is never left; together they settle for which states a
loop ends. -/

namespace SwmLvgl.Loop

variable {σ τ : Type*} (step : σ → σ ⊕ τ)

/-- The result of the loop, if it is left within the fuel. -/
def run : Nat → σ → Option τ
  | 0, _ => none
  | n + 1, s =>
      match step s with
      | .inl s' => run n s'
      | .inr t => some t

/-- The loop is left with `t`. -/
def Exits (s : σ) (t : τ) : Prop := ∃ n, run step n s = some t

/-- The loop goes on from `s` to `s'` in some number of steps. -/
def Reaches : σ → σ → Prop := Relation.ReflTransGen fun s s' => step s = .inl s'

variable {step}

theorem run_succ_of_inl {s s' : σ} (h : step s = .inl s') (n : Nat) :
    run step (n + 1) s = run step n s' := by
  simp only [run, h]

theorem run_succ_of_inr {s : σ} {t : τ} (h : step s = .inr t) (n : Nat) :
    run step (n + 1) s = some t := by
  simp only [run, h]

theorem exits_of_inr {s : σ} {t : τ} (h : step s = .inr t) : Exits step s t :=
  ⟨1, run_succ_of_inr h 0⟩

theorem Exits.of_inl {s s' : σ} {t : τ} (h : step s = .inl s') : Exits step s' t → Exits step s t := by
  rintro ⟨n, hn⟩
  exact ⟨n + 1, by rw [run_succ_of_inl h, hn]⟩

/-- More fuel gives the same result. -/
theorem run_add {n : Nat} {s : σ} {t : τ} (h : run step n s = some t) (k : Nat) :
    run step (n + k) s = some t := by
  induction n generalizing s with
  | zero => cases h
  | succ n ih =>
      rw [Nat.succ_add]
      cases hs : step s with
      | inl s' =>
          rw [run_succ_of_inl hs] at h ⊢
          exact ih h
      | inr t' =>
          rw [run_succ_of_inr hs] at h ⊢
          exact h

theorem Exits.unique {s : σ} {t t' : τ} (h : Exits step s t) (h' : Exits step s t') : t = t' := by
  obtain ⟨n, hn⟩ := h
  obtain ⟨k, hk⟩ := h'
  have hadd := run_add hn k
  rw [Nat.add_comm, run_add hk n] at hadd
  exact (Option.some.inj hadd).symm

/-- A property that every step keeps holds wherever the loop goes on to. -/
theorem Reaches.invariant {I : σ → Prop} (hstep : ∀ s s', I s → step s = .inl s' → I s') {s s' : σ}
    (h : Reaches step s s') (hs : I s) : I s' := by
  induction h with
  | refl => exact hs
  | tail _ hlast ih => exact hstep _ _ ih hlast

/-- A loop is left from a state it goes on to. -/
theorem Exits.exists_reaches {s : σ} {t : τ} (h : Exits step s t) :
    ∃ s', Reaches step s s' ∧ step s' = .inr t := by
  obtain ⟨n, hn⟩ := h
  induction n generalizing s with
  | zero => cases hn
  | succ n ih =>
      cases h : step s with
      | inl s₁ =>
          rw [run_succ_of_inl h] at hn
          obtain ⟨s', hreach, hleave⟩ := ih hn
          exact ⟨s', hreach.head h, hleave⟩
      | inr t' =>
          rw [run_succ_of_inr h] at hn
          cases hn
          exact ⟨s, .refl, h⟩

/-- What the last step makes of an invariant holds of the result, if there is one. -/
theorem Exits.of_invariant {I : σ → Prop} {P : τ → Prop}
    (hstep : ∀ s s', I s → step s = .inl s' → I s')
    (hleave : ∀ s t, I s → step s = .inr t → P t) {s : σ} {t : τ} (hs : I s) (h : Exits step s t) :
    P t := by
  obtain ⟨s', hreach, hlast⟩ := h.exists_reaches
  exact hleave s' t (hreach.invariant hstep hs) hlast

/-- A loop whose steps keep an invariant and lower a measure is left, with what its last step gives. -/
theorem exits_of_measure {I : σ → Prop} {P : τ → Prop} (μ : σ → Nat)
    (hstep : ∀ s, I s → (∃ s', step s = .inl s' ∧ I s' ∧ μ s' < μ s) ∨ ∃ t, step s = .inr t ∧ P t)
    {s : σ} (hs : I s) : ∃ t, Exits step s t ∧ P t := by
  induction hn : μ s using Nat.strongRecOn generalizing s with
  | ind n ih =>
      rcases hstep s hs with ⟨s', hs', hI, hlt⟩ | ⟨t, ht, hP⟩
      · obtain ⟨t, hexit, hP⟩ := ih (μ s') (hn ▸ hlt) hI rfl
        exact ⟨t, hexit.of_inl hs', hP⟩
      · exact ⟨t, exits_of_inr ht, hP⟩

/-- With more fuel than the measure the loop is left. -/
theorem run_of_measure {I : σ → Prop} {P : τ → Prop} (μ : σ → Nat)
    (hstep : ∀ s, I s → (∃ s', step s = .inl s' ∧ I s' ∧ μ s' < μ s) ∨ ∃ t, step s = .inr t ∧ P t)
    {n : Nat} {s : σ} (hs : I s) (hn : μ s < n) : ∃ t, run step n s = some t ∧ P t := by
  induction n generalizing s with
  | zero => omega
  | succ n ih =>
      rcases hstep s hs with ⟨s', hs', hI, hlt⟩ | ⟨t, ht, hP⟩
      · rw [run_succ_of_inl hs']
        exact ih hI (by omega)
      · exact ⟨t, run_succ_of_inr ht n, hP⟩

/-- A loop that goes on from every state of an invariant is never left. -/
theorem not_exits_of_invariant {I : σ → Prop} (hstep : ∀ s, I s → ∃ s', step s = .inl s' ∧ I s')
    {s : σ} (hs : I s) (t : τ) : ¬Exits step s t := by
  intro h
  apply h.of_invariant (I := I) (P := fun _ => False) _ _ hs
  · intro s s' hI heq
    obtain ⟨s'', heq', hI'⟩ := hstep s hI
    cases heq.symm.trans heq'
    exact hI'
  · intro s t hI heq
    obtain ⟨s', heq', -⟩ := hstep s hI
    cases heq.symm.trans heq'

end SwmLvgl.Loop
