import Mathlib.Data.List.Induction

/-!
# Settings that override each other

A list of settings is applied to a record of variables, one after the other. A variable that
every setting either replaces or leaves alone has the value of the last one that replaces it,
whatever the settings do to the other variables.

* `lastSet`: the value of the last setting that writes the variable.
* `foldl_eq_lastSet`: the variable after a run, from what one setting does to it.
* `lastSet_append`: later settings override earlier ones.
-/

namespace Mcelog.Common

variable {σ ι β : Type*} {writes : ι → Option β} {xs ys : List ι} {b : β}

/-- The value that the last setting writes, and `b` if none does. -/
def lastSet (writes : ι → Option β) (b : β) (xs : List ι) : β :=
  (xs.filterMap writes).getLast?.getD b

theorem lastSet_concat (writes : ι → Option β) (b : β) (xs : List ι) (x : ι) :
    lastSet writes b (xs ++ [x]) = (writes x).getD (lastSet writes b xs) := by
  unfold lastSet
  rw [List.filterMap_append]
  cases h : writes x with
  | none => simp [h]
  | some c => simp [h]

/-- Later settings override earlier ones. -/
theorem lastSet_append (writes : ι → Option β) (b : β) (xs ys : List ι) :
    lastSet writes b (xs ++ ys) = lastSet writes (lastSet writes b xs) ys := by
  induction ys using List.reverseRecOn with
  | nil => rw [List.append_nil]; rfl
  | append_singleton ys y ih =>
    rw [← List.append_assoc, lastSet_concat, lastSet_concat, ih]

/-- If a setting writes the variable, it does not matter what it was before. -/
theorem lastSet_of_mem (hx : ∃ x ∈ xs, (writes x).isSome) (b b' : β) :
    lastSet writes b xs = lastSet writes b' xs := by
  obtain ⟨x, hmem, hsome⟩ := hx
  obtain ⟨c, hc⟩ := Option.isSome_iff_exists.mp hsome
  have hne : xs.filterMap writes ≠ [] :=
    List.ne_nil_of_mem (List.mem_filterMap.mpr ⟨x, hmem, hc⟩)
  unfold lastSet
  rw [List.getLast?_eq_some_getLast hne]
  rfl

/-- A switch that is only turned on. -/
theorem lastSet_true (p : ι → Bool) (b : Bool) (xs : List ι) :
    lastSet (fun x => if p x then some true else none) b xs = (b || xs.any p) := by
  induction xs using List.reverseRecOn with
  | nil => simp [lastSet]
  | append_singleton xs x ih =>
    rw [lastSet_concat, ih, List.any_append, List.any_cons, List.any_nil, Bool.or_false,
      ← Bool.or_assoc]
    cases p x with
    | true => simp
    | false => simp

/-- A variable that is `none` until a setting writes it. -/
theorem lastSet_some (get : ι → Option β) (xs : List ι) :
    lastSet (fun x => (get x).map some) none xs = (xs.filterMap get).getLast? := by
  induction xs using List.reverseRecOn with
  | nil => rfl
  | append_singleton xs x ih =>
    rw [lastSet_concat, ih, List.filterMap_append]
    cases h : get x with
    | none => simp [h]
    | some c => simp [h]

/-- **Overriding.** If one setting replaces a variable or leaves it alone, the variable has the
    value of the last setting that writes it. -/
theorem foldl_eq_lastSet {step : σ → ι → σ} (get : σ → β)
    (hstep : ∀ s x, get (step s x) = (writes x).getD (get s)) (s : σ) (xs : List ι) :
    get (xs.foldl step s) = lastSet writes (get s) xs := by
  induction xs using List.reverseRecOn with
  | nil => rfl
  | append_singleton xs x ih =>
    rw [List.foldl_append, List.foldl_cons, List.foldl_nil, hstep, ih, lastSet_concat]

end Mcelog.Common
