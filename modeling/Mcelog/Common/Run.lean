import Mathlib.Data.List.Basic
import Mathlib.Data.List.ReduceOption
import Mathlib.Tactic

/-!
# Runs of a deterministic step

A component that is called again and again is a step function
`step : σ → ι → σ × ω`: from the state before the call and its input to the
state after it and its output. This module has what every development about
such a component needs, over arbitrary types:

* `runState`, `runOut`: the final state and the outputs of a run;
* `Meets C s xs`: every step of the run `xs` from `s` meets `C` in the state
  before it;
* `runState_invariant`, `runOut_invariant`: the induction rules, for the last state and
  for all outputs;
* `forall_runOut_iff_meets`: a property of the outputs as a condition on the steps;
* `runOut_getElem?`: output `i` is the output of one step from the state after
  the first `i` inputs;
* `runOut_reduceOption_of_view`: inputs that leave a view of the state alone can
  be left out of a run;
* `Replaces`: changes that replace a component of the state, or leave it alone, and
  `replaces_foldl` for a run of them.
-/

namespace Mcelog.Common

variable {σ ι ω : Type*}

/-- The state after the inputs `xs`. -/
def runState (step : σ → ι → σ × ω) (s : σ) (xs : List ι) : σ :=
  xs.foldl (fun s x => (step s x).1) s

/-- The outputs of the calls with inputs `xs`, in order. -/
def runOut (step : σ → ι → σ × ω) : σ → List ι → List ω
  | _, [] => []
  | s, x :: xs => (step s x).2 :: runOut step (step s x).1 xs

/-- Every step of the run meets `C` in the state before it. -/
def Meets (step : σ → ι → σ × ω) (C : σ → ι → Prop) : σ → List ι → Prop
  | _, [] => True
  | s, x :: xs => C s x ∧ Meets step C (step s x).1 xs

/-- A run can be checked step by step. -/
instance Meets.decidable (step : σ → ι → σ × ω) (C : σ → ι → Prop) [∀ s x, Decidable (C s x)] :
    ∀ (s : σ) (xs : List ι), Decidable (Meets step C s xs)
  | _, [] => isTrue trivial
  | s, x :: xs =>
    have := Meets.decidable step C (step s x).1 xs
    inferInstanceAs (Decidable (C s x ∧ Meets step C (step s x).1 xs))

section

variable {step : σ → ι → σ × ω}

@[simp] theorem runState_nil (s : σ) : runState step s [] = s := rfl

@[simp] theorem runState_cons (s : σ) (x : ι) (xs : List ι) :
    runState step s (x :: xs) = runState step (step s x).1 xs := rfl

@[simp] theorem runOut_nil (s : σ) : runOut step s [] = [] := rfl

@[simp] theorem runOut_cons (s : σ) (x : ι) (xs : List ι) :
    runOut step s (x :: xs) = (step s x).2 :: runOut step (step s x).1 xs := rfl

@[simp] theorem meets_nil {C : σ → ι → Prop} (s : σ) : Meets step C s [] := trivial

@[simp] theorem meets_cons {C : σ → ι → Prop} {s : σ} {x : ι} {xs : List ι} :
    Meets step C s (x :: xs) ↔ C s x ∧ Meets step C (step s x).1 xs := Iff.rfl

theorem runState_append (s : σ) (xs ys : List ι) :
    runState step s (xs ++ ys) = runState step (runState step s xs) ys := by
  simp [runState, List.foldl_append]

theorem runOut_append (s : σ) (xs ys : List ι) :
    runOut step s (xs ++ ys) = runOut step s xs ++ runOut step (runState step s xs) ys := by
  induction xs generalizing s with
  | nil => rfl
  | cons x xs ih => simp [ih]

@[simp] theorem length_runOut (s : σ) (xs : List ι) : (runOut step s xs).length = xs.length := by
  induction xs generalizing s with
  | nil => rfl
  | cons x xs ih => simp [ih]

theorem meets_append {C : σ → ι → Prop} {s : σ} {xs ys : List ι} :
    Meets step C s (xs ++ ys) ↔ Meets step C s xs ∧ Meets step C (runState step s xs) ys := by
  induction xs generalizing s with
  | nil => simp
  | cons x xs ih => simp [ih, and_assoc]

/-- Output `i` is the output of one step from the state after `i` inputs. -/
theorem runOut_getElem? (s : σ) (xs : List ι) (i : ℕ) :
    (runOut step s xs)[i]? = xs[i]?.map fun x => (step (runState step s (xs.take i)) x).2 := by
  induction xs generalizing s i with
  | nil => simp
  | cons x xs ih =>
    cases i with
    | zero => simp
    | succ i => simp [ih]

/-- Step `i` of the run meets `C` in the state after `i` inputs. -/
theorem Meets.getElem? {C : σ → ι → Prop} {s : σ} {xs : List ι} (h : Meets step C s xs) {i : ℕ}
    {x : ι} (hx : xs[i]? = some x) : C (runState step s (xs.take i)) x := by
  induction xs generalizing s i with
  | nil => cases hx
  | cons y xs ih =>
    cases i with
    | zero =>
      obtain rfl := Option.some.inj hx
      exact h.1
    | succ i => exact ih h.2 hx

/-- What the first state satisfies and every step preserves, the last state
    satisfies. -/
theorem runState_invariant {I : σ → Prop} (hstep : ∀ s x, I s → I (step s x).1) {s : σ}
    (h0 : I s) (xs : List ι) : I (runState step s xs) := by
  induction xs generalizing s with
  | nil => exact h0
  | cons x xs ih => exact ih (hstep s x h0)

/-- What every step from a state of the invariant puts out, every output of a run
    satisfies. -/
theorem runOut_invariant {I : σ → Prop} {Q : ω → Prop} (hstep : ∀ s x, I s → I (step s x).1)
    (hout : ∀ s x, I s → Q (step s x).2) {s : σ} (h0 : I s) (xs : List ι) :
    ∀ o ∈ runOut step s xs, Q o := by
  induction xs generalizing s with
  | nil => exact fun o ho => absurd ho List.not_mem_nil
  | cons x xs ih =>
    intro o ho
    obtain rfl | ho := List.mem_cons.mp ho
    · exact hout s x h0
    · exact ih (hstep s x h0) o ho

/-- If a step puts out what it should exactly when it meets `C`, then a run does so exactly
    when all its steps meet `C`. -/
theorem forall_runOut_iff_meets {Q : ω → Prop} {C : σ → ι → Prop}
    (h : ∀ s x, Q (step s x).2 ↔ C s x) (s : σ) (xs : List ι) :
    (∀ o ∈ runOut step s xs, Q o) ↔ Meets step C s xs := by
  induction xs generalizing s with
  | nil => exact iff_of_true (fun o ho => absurd ho List.not_mem_nil) trivial
  | cons x xs ih => rw [runOut_cons, List.forall_mem_cons, meets_cons, h, ih]

end

/-! ## Quiet inputs -/

section Quiet

variable {κ ν : Type*} {step : σ → ι → σ × Option ω} {step' : σ → κ → σ × ω} {proj : ι → Option κ}
  {C : σ → ι → Prop}

/-- An input that `proj` drops has no output and keeps the view; any other input does
    the same in states of the same view. Then the outputs of a run are those of the
    run without the dropped inputs. -/
theorem runOut_reduceOption_of_view (view : σ → ν)
    (hquiet : ∀ s x, proj x = none → C s x → (step s x).2 = none ∧ view (step s x).1 = view s)
    (hloud : ∀ s s' x y, proj x = some y → view s = view s' →
      (step s x).2 = some (step' s' y).2 ∧ view (step s x).1 = view (step' s' y).1)
    {s s' : σ} {xs : List ι} (hC : Meets step C s xs) (h : view s = view s') :
    (runOut step s xs).reduceOption = runOut step' s' (xs.filterMap proj) := by
  induction xs generalizing s s' with
  | nil => rfl
  | cons x xs ih =>
    rw [runOut_cons]
    cases hx : proj x with
    | none =>
      obtain ⟨hout, hview⟩ := hquiet s x hx hC.1
      rw [hout, List.reduceOption_cons_of_none, List.filterMap_cons_none hx]
      exact ih hC.2 (hview.trans h)
    | some y =>
      obtain ⟨hout, hview⟩ := hloud s s' x y hx h
      rw [hout, List.reduceOption_cons_of_some, List.filterMap_cons_some hx, runOut_cons]
      rw [ih hC.2 hview]

end Quiet

/-! ## Changes that replace a component -/

section Replaces

variable {α β : Type*} {f g : α → α} {p q : Bool}

/-- The change `f` replaces what `set` sets, or leaves it alone. -/
def Replaces (f set : α → α) (replaced : Bool) : Prop :=
  ∀ a, f (set a) = if replaced then f a else set (f a)

theorem replaces_id (set : α → α) : Replaces id set false := fun _ => rfl

theorem Replaces.comp {set : α → α} (hf : Replaces f set p) (hg : Replaces g set q) :
    Replaces (g ∘ f) set (p || q) := by
  intro a
  cases p with
  | true => exact congrArg g (hf a)
  | false =>
    have hf' : f (set a) = set (f a) := hf a
    show g (f (set a)) = _
    rw [hf', hg, Bool.false_or]
    rfl

theorem replaces_foldl {set : α → α} {f : α → ι → α} {p : ι → Bool}
    (h : ∀ x, Replaces (f · x) set (p x)) (xs : List ι) :
    Replaces (fun a => xs.foldl f a) set (xs.any p) := by
  induction xs with
  | nil => exact replaces_id set
  | cons x xs ih => exact (h x).comp ih

variable {set : β → α → α} {x y : β}

/-- A component that is left alone keeps its value. -/
theorem Replaces.get_eq (h : ∀ x, Replaces f (set x) false) (get : α → β)
    (hget : ∀ x a, get (set x a) = x) (hset : ∀ a, set (get a) a = a) (a : α) :
    get (f a) = get a := by
  have hleft : f (set (get a) a) = set (get a) (f a) := h (get a) a
  rw [hset] at hleft
  rw [hleft, hget]

/-- Only a component that is replaced may have another value before. -/
theorem Replaces.eq_of_eq (h : ∀ x, Replaces f (set x) p) (get : α → β)
    (hget : ∀ x a, get (set x a) = x) (hset : ∀ a, set (get a) a = a) {a b : α}
    (heq : f a = f b) : p = true ∨ get a = get b := by
  cases p with
  | true => exact .inl rfl
  | false =>
    have hvalue := congrArg get heq
    rw [Replaces.get_eq h get hget hset, Replaces.get_eq h get hget hset] at hvalue
    exact .inr hvalue

theorem Replaces.congr (h : ∀ x, Replaces f (set x) p) (hxy : p = true ∨ x = y) (a : α) :
    f (set x a) = f (set y a) := by
  rcases hxy with rfl | rfl
  · exact (h x a).trans (h y a).symm
  · rfl

end Replaces

end Mcelog.Common
