import Mathlib.Data.List.Basic

/-!
# Labelled transition systems

A system of interleaved parties is a relation `Step : σ → ε → σ → Prop`, one
label per kind of step.

* `ReachVia Step C s₀ s`: some run leads from `s₀` to `s`, and every step of it
  meets `C` in the state before it; `Reach` is the case without a condition.
* `ReachVia.invariant`: what `s₀` satisfies and every such step preserves holds
  in `s`.
* `Reach.exists_final`: the rule for runs that come to an end, by a measure.
* `Trace Step s₀ tr s`: the run that `tr` lists, each step with the state before
  it, leads from `s₀` to `s`. It is for properties of the steps themselves.
* `Trace.forall_of_invariant`: in a run whose steps all meet `C`, what follows from
  an invariant of such runs holds of every step.
-/

namespace Mcelog.Common

variable {σ ε : Type*}

/-- The states that runs from `s₀` reach whose steps all meet `C`. -/
inductive ReachVia (Step : σ → ε → σ → Prop) (C : σ → ε → Prop) (s₀ : σ) : σ → Prop
  | refl : ReachVia Step C s₀ s₀
  | step {s s' : σ} : ReachVia Step C s₀ s → (e : ε) → C s e → Step s e s' → ReachVia Step C s₀ s'

/-- The states that runs from `s₀` reach. -/
def Reach (Step : σ → ε → σ → Prop) (s₀ s : σ) : Prop := ReachVia Step (fun _ _ => True) s₀ s

/-- The runs from `s₀`, each step with the state before it. -/
inductive Trace (Step : σ → ε → σ → Prop) (s₀ : σ) : List (σ × ε) → σ → Prop
  | nil : Trace Step s₀ [] s₀
  | snoc {tr : List (σ × ε)} {s s' : σ} (e : ε) : Trace Step s₀ tr s → Step s e s' →
      Trace Step s₀ (tr ++ [(s, e)]) s'

section

variable {Step : σ → ε → σ → Prop} {C : σ → ε → Prop} {s₀ s s' : σ}

/-- The invariant rule for runs whose steps meet `C`. -/
theorem ReachVia.invariant {I : σ → Prop} (h : ReachVia Step C s₀ s) (h0 : I s₀)
    (hstep : ∀ s e s', I s → C s e → Step s e s' → I s') : I s := by
  induction h with
  | refl => exact h0
  | step _ e hC hs ih => exact hstep _ _ _ ih hC hs

/-- One more step of an unconditional run. -/
theorem Reach.step (h : Reach Step s₀ s) (e : ε) (hs : Step s e s') : Reach Step s₀ s' :=
  ReachVia.step h e trivial hs

/-- A run goes on until it is over, if a measure gets smaller with every step. -/
theorem Reach.exists_final {μ : σ → ℕ} {final : σ → Prop}
    (h : ∀ s, Reach Step s₀ s → final s ∨ ∃ e s', Step s e s' ∧ μ s' < μ s) :
    ∃ s, Reach Step s₀ s ∧ final s := by
  suffices haux : ∀ n s, Reach Step s₀ s → μ s = n → ∃ s', Reach Step s₀ s' ∧ final s' from
    haux _ s₀ .refl rfl
  intro n
  induction n using Nat.strongRecOn with
  | ind n ih =>
    intro s hs hn
    rcases h s hs with hfinal | ⟨e, s', hstep, hlt⟩
    · exact ⟨s, hs, hfinal⟩
    · exact ih _ (hn ▸ hlt) s' (hs.step e hstep) rfl

/-- A run from a state that is reached goes on the run that leads there. -/
theorem Reach.trans {s₁ : σ} (h : Reach Step s₀ s₁) (h' : Reach Step s₁ s) : Reach Step s₀ s := by
  induction h' with
  | refl => exact h
  | step _ e _ hs ih => exact ih.step e hs

/-- A run whose steps meet `C` ends in a state that such runs reach. -/
theorem Trace.reachVia {tr : List (σ × ε)} (h : Trace Step s₀ tr s)
    (hC : ∀ p ∈ tr, C p.1 p.2) : ReachVia Step C s₀ s := by
  induction h with
  | nil => exact .refl
  | snoc e _ hs ih =>
    refine (ih fun p hp => hC p (List.mem_append_left _ hp)).step e ?_ hs
    exact hC (_, e) (List.mem_append_right _ (List.mem_singleton_self _))

/-- In a run whose steps all meet `C`, every step is as an invariant of such runs
    makes it. -/
theorem Trace.forall_of_invariant {I : σ → Prop} {P : σ → ε → Prop} {tr : List (σ × ε)}
    (h : Trace Step s₀ tr s) (hC : ∀ p ∈ tr, C p.1 p.2) (h0 : I s₀)
    (hstep : ∀ s e s', I s → C s e → Step s e s' → I s')
    (hP : ∀ s e s', I s → C s e → Step s e s' → P s e) : ∀ p ∈ tr, P p.1 p.2 := by
  induction h with
  | nil => exact fun _ hp => nomatch hp
  | snoc e htr hs ih =>
    have hC' := fun p hp => hC p (List.mem_append_left _ hp)
    intro p hp
    rcases List.mem_append.mp hp with hp | hp
    · exact ih hC' p hp
    · obtain rfl := List.mem_singleton.mp hp
      exact hP _ e _ ((htr.reachVia hC').invariant h0 hstep) (hC _ (by simp)) hs

end

end Mcelog.Common
