import Mathlib.Tactic.Common

/-! Programs that change a state and may be undefined, with two judgments. `Triple` is total: the
program has a result, and the postcondition holds of it. `Sim` says that a program follows a more
abstract one wherever that one is defined. Both go through a program bind by bind. -/

namespace SwmLvgl

/-- A program over the states `σ`. It has no result where something it relies on fails, or where its
fuel runs out. -/
abbrev Prog (σ α : Type) := StateT σ Option α

namespace Prog

variable {σ τ υ α β : Type}

/-- From every state in `P` the program has a result, and `Q` holds of it and of the state after. -/
def Triple (P : σ → Prop) (x : Prog σ α) (Q : α → σ → Prop) : Prop :=
  ∀ s, P s → ∃ a s', x.run s = some (a, s') ∧ Q a s'

/-- Wherever `y` has a result, `x` has the same one from a related state, and the states after are
related. -/
def Sim (R : σ → τ → Prop) (x : Prog σ α) (y : Prog τ α) : Prop :=
  ∀ s t, R s t → ∀ a t', y.run t = some (a, t') → ∃ s', x.run s = some (a, s') ∧ R s' t'

theorem run_bind_of_some {x : Prog σ α} {s s' : σ} {a : α} (h : x.run s = some (a, s'))
    (f : α → Prog σ β) : (x >>= f).run s = (f a).run s' := by
  rw [StateT.run_bind, h]
  rfl

theorem exists_of_run_bind {x : Prog σ α} {f : α → Prog σ β} {s s' : σ} {b : β}
    (h : (x >>= f).run s = some (b, s')) :
    ∃ a r, x.run s = some (a, r) ∧ (f a).run r = some (b, s') := by
  rw [StateT.run_bind] at h
  obtain ⟨⟨a, r⟩, hx, hf⟩ := Option.bind_eq_some_iff.mp h
  exact ⟨a, r, hx, hf⟩

section Triple

variable {P P' : σ → Prop} {Q Q' : α → σ → Prop} {x : Prog σ α}

theorem Triple.pure {a : α} (h : ∀ s, P s → Q a s) : Triple P (pure a) Q :=
  fun s hs => ⟨a, s, rfl, h s hs⟩

theorem Triple.bind {f : α → Prog σ β} {S : β → σ → Prop} (hx : Triple P x Q)
    (hf : ∀ a, Triple (Q a) (f a) S) : Triple P (x >>= f) S := by
  intro s hs
  obtain ⟨a, s', hrun, hQ⟩ := hx s hs
  obtain ⟨b, s'', hrun', hS⟩ := hf a s' hQ
  exact ⟨b, s'', by rw [run_bind_of_some hrun, hrun'], hS⟩

theorem Triple.weaken (h : Triple P x Q) (hP : ∀ s, P' s → P s) (hQ : ∀ a s, Q a s → Q' a s) :
    Triple P' x Q' := by
  intro s hs
  obtain ⟨a, s', hrun, hq⟩ := h s (hP s hs)
  exact ⟨a, s', hrun, hQ a s' hq⟩

theorem Triple.ite {c : Prop} [Decidable c] {y : Prog σ α} (hx : c → Triple P x Q)
    (hy : ¬c → Triple P y Q) : Triple P (if c then x else y) Q := by
  by_cases hc : c
  · rw [if_pos hc]
    exact hx hc
  · rw [if_neg hc]
    exact hy hc

/-- A program whose result is fixed goes on with it. -/
theorem Triple.bind_eq {f : α → Prog σ β} {a : α} {I : σ → Prop} {S : β → σ → Prop}
    (hx : Triple P x fun r s => r = a ∧ I s) (hf : Triple I (f a) S) : Triple P (x >>= f) S := by
  refine hx.bind fun r s hs => ?_
  obtain ⟨rfl, hI⟩ := hs
  exact hf s hI

end Triple

/-! ### Simulation -/

section Sim

variable {R : σ → τ → Prop}

theorem Sim.pure (a : α) : Sim R (pure a) (pure a) := by
  intro s t h b t' hrun
  cases hrun
  exact ⟨s, rfl, h⟩

theorem Sim.bind {x : Prog σ α} {y : Prog τ α} {f : α → Prog σ β} {g : α → Prog τ β}
    (hx : Sim R x y) (hf : ∀ a, Sim R (f a) (g a)) : Sim R (x >>= f) (y >>= g) := by
  intro s t h b t' hrun
  obtain ⟨a, r, hy, hg⟩ := exists_of_run_bind hrun
  obtain ⟨s₁, hx₁, h₁⟩ := hx s t h a r hy
  obtain ⟨s₂, hf₂, h₂⟩ := hf a s₁ r h₁ b t' hg
  exact ⟨s₂, by rw [run_bind_of_some hx₁, hf₂], h₂⟩

theorem Sim.ite {c : Prop} [Decidable c] {x x' : Prog σ α} {y y' : Prog τ α} (hx : Sim R x y)
    (hx' : Sim R x' y') : Sim R (if c then x else x') (if c then y else y') := by
  by_cases hc : c
  · rw [if_pos hc, if_pos hc]
    exact hx
  · rw [if_neg hc, if_neg hc]
    exact hx'

theorem Sim.of_triple {x : Prog σ α} {y : Prog τ α}
    (h : ∀ t a t', y.run t = some (a, t') → Triple (fun s => R s t) x fun b s => b = a ∧ R s t') :
    Sim R x y := by
  intro s t hR a t' hrun
  obtain ⟨b, s', hx, rfl, hR'⟩ := h t a t' hrun s hR
  exact ⟨s', hx, hR'⟩

/-- Where the abstract program is never defined there is nothing to follow. -/
theorem Sim.of_undefined {x : Prog σ α} {y : Prog τ α} (h : ∀ t, y.run t = none) : Sim R x y := by
  intro s t _ a t' hrun
  rw [h t] at hrun
  cases hrun

theorem Sim.trans {T : τ → υ → Prop} {x : Prog σ α} {y : Prog τ α} {z : Prog υ α} (hx : Sim R x y)
    (hy : Sim T y z) : Sim (fun s u => ∃ t, R s t ∧ T t u) x z := by
  rintro s u ⟨t, hR, hT⟩ a u' hrun
  obtain ⟨t', hyrun, hT'⟩ := hy t u hT a u' hrun
  obtain ⟨s', hxrun, hR'⟩ := hx s t hR a t' hyrun
  exact ⟨s', hxrun, t', hR', hT'⟩

end Sim

end Prog

end SwmLvgl
