import Mathlib.Data.List.Pairwise
import Mathlib.Tactic

/-!
# Sorting with a comparison function

`qsort` gets a function that compares two elements: its result is negative, zero or positive.
A sort is only bound to the order of its output if that function is consistent. It never
compares an element with itself, so that nothing is asked about that.

* `StrictlyOrders`: the comparison is a strict order on the elements of a list.
* `ComparisonSort`: a sort that is correct for every such comparison; `mergeSort` is one.
* `sorts_iff`: the comparison is a strict order and sorts by `lt` exactly when it agrees
  with `lt` on each two elements.
-/

namespace Mcelog.Common

variable {α : Type*}

/-- Of two elements one is smaller, whichever is asked first, and smaller is transitive. -/
structure StrictlyOrders (cmp : α → α → ℤ) (l : List α) : Prop where
  opposite : ∀ a ∈ l, ∀ b ∈ l, a ≠ b → (cmp a b < 0 ∧ 0 < cmp b a) ∨ (0 < cmp a b ∧ cmp b a < 0)
  trans : ∀ a ∈ l, ∀ b ∈ l, ∀ c ∈ l, a ≠ c → cmp a b < 0 → cmp b c < 0 → cmp a c < 0

/-- A sort that uses nothing but a comparison function. -/
structure ComparisonSort (α : Type*) where
  sort : (α → α → ℤ) → List α → List α
  perm : ∀ cmp l, (sort cmp l).Perm l
  ascending : ∀ cmp l, l.Nodup → StrictlyOrders cmp l →
    (sort cmp l).Pairwise fun a b => cmp a b ≤ 0

section

variable {cmp : α → α → ℤ} {lt : α → α → Prop} {l : List α} {a b : α}

theorem StrictlyOrders.lt_of_le (h : StrictlyOrders cmp l) (ha : a ∈ l) (hb : b ∈ l)
    (hne : a ≠ b) (hle : cmp a b ≤ 0) : cmp a b < 0 := by
  rcases h.opposite a ha b hb hne with ⟨hlt, -⟩ | ⟨hgt, -⟩
  · exact hlt
  · exact absurd hle (Int.not_le.mpr hgt)

/-! ## Merge sort -/

/-- The order that a comparison function gives to the elements of a list. -/
def memLe [DecidableEq α] (cmp : α → α → ℤ) (l : List α) (a b : {x // x ∈ l}) : Bool :=
  a = b || cmp a.1 b.1 ≤ 0

theorem memLe_iff [DecidableEq α] {a b : {x // x ∈ l}} :
    memLe cmp l a b = true ↔ a = b ∨ cmp a.1 b.1 ≤ 0 := by
  simp [memLe]

theorem memLe_trans [DecidableEq α] (h : StrictlyOrders cmp l) (a b c : {x // x ∈ l})
    (hab : memLe cmp l a b = true) (hbc : memLe cmp l b c = true) : memLe cmp l a c = true := by
  rw [memLe_iff] at *
  by_cases hac : a = c
  · exact Or.inl hac
  rcases hab with rfl | hab
  · exact hbc
  rcases hbc with rfl | hbc
  · exact Or.inr hab
  by_cases hne : a = b
  · exact Or.inr (hne ▸ hbc)
  by_cases hne' : b = c
  · exact Or.inr (hne' ▸ hab)
  have hlt := h.lt_of_le a.2 b.2 (fun heq => hne (Subtype.ext heq)) hab
  have hlt' := h.lt_of_le b.2 c.2 (fun heq => hne' (Subtype.ext heq)) hbc
  exact Or.inr (Int.le_of_lt
    (h.trans a.1 a.2 b.1 b.2 c.1 c.2 (fun heq => hac (Subtype.ext heq)) hlt hlt'))

theorem memLe_total [DecidableEq α] (h : StrictlyOrders cmp l) (a b : {x // x ∈ l}) :
    (memLe cmp l a b || memLe cmp l b a) = true := by
  rw [Bool.or_eq_true, memLe_iff, memLe_iff]
  by_cases hne : a = b
  · exact Or.inl (Or.inl hne)
  · rcases h.opposite a.1 a.2 b.1 b.2 (fun heq => hne (Subtype.ext heq)) with hlt | hgt
    · exact Or.inl (Or.inr (Int.le_of_lt hlt.1))
    · exact Or.inr (Or.inr (Int.le_of_lt hgt.2))

/-- Merge sort is a comparison sort. -/
def ComparisonSort.mergeSort [DecidableEq α] : ComparisonSort α where
  sort cmp l := l.mergeSort fun a b => a = b || cmp a b ≤ 0
  perm cmp l := List.mergeSort_perm l _
  ascending cmp l hnodup h := by
    have hmap : l.mergeSort (fun a b => a = b || cmp a b ≤ 0) =
        (l.attach.mergeSort (memLe cmp l)).map Subtype.val := by
      rw [List.map_mergeSort (s := fun a b => a = b || cmp a b ≤ 0), List.attach_map_subtype_val]
      intro a _ b _
      simp [memLe, Subtype.ext_iff]
    rw [hmap, List.pairwise_map]
    have hnodup' : (l.attach.mergeSort (memLe cmp l)).Nodup :=
      (List.mergeSort_perm _ _).nodup_iff.mpr (List.nodup_attach.mpr hnodup)
    refine ((List.pairwise_mergeSort (memLe_trans h) (memLe_total h) l.attach).and
      hnodup').imp ?_
    rintro a b ⟨hle, hne⟩
    exact (memLe_iff.mp hle).resolve_left hne

/-! ## Sorting by an order -/

/-- A comparison that agrees with an order is one. -/
theorem strictlyOrders_of_agrees (htrans : ∀ a b c, lt a b → lt b c → lt a c)
    (htotal : ∀ a ∈ l, ∀ b ∈ l, a ≠ b → lt a b ∨ lt b a)
    (hagree : ∀ a ∈ l, ∀ b ∈ l, lt a b → cmp a b < 0 ∧ 0 < cmp b a) : StrictlyOrders cmp l where
  opposite a ha b hb hne := by
    rcases htotal a ha b hb hne with hlt | hlt
    · exact Or.inl (hagree a ha b hb hlt)
    · exact Or.inr (hagree b hb a ha hlt).symm
  trans a ha b hb c hc hac hab hbc := by
    have hlt : ∀ x ∈ l, ∀ y ∈ l, x ≠ y → cmp x y < 0 → lt x y := by
      intro x hx y hy hne hcmp
      refine (htotal x hx y hy hne).resolve_right fun hyx => ?_
      have hpos := (hagree y hy x hx hyx).2
      omega
    by_cases hne : a = b
    · exact hne ▸ hbc
    by_cases hne' : b = c
    · exact hne' ▸ hab
    exact (hagree a ha c hc (htrans a b c (hlt a ha b hb hne hab) (hlt b hb c hc hne' hbc))).1

/-- What a sort leaves behind is in the order of the comparison. -/
theorem ComparisonSort.pairwise_of_agrees (q : ComparisonSort α) (hnodup : l.Nodup)
    (htotal : ∀ a ∈ l, ∀ b ∈ l, a ≠ b → lt a b ∨ lt b a)
    (hagree : ∀ a ∈ l, ∀ b ∈ l, lt a b → cmp a b < 0 ∧ 0 < cmp b a)
    (h : StrictlyOrders cmp l) : (q.sort cmp l).Pairwise lt := by
  have hperm := q.perm cmp l
  refine ((q.ascending cmp l hnodup h).and (hperm.nodup_iff.mpr hnodup)).imp_of_mem ?_
  rintro a b ha hb ⟨hle, hne⟩
  refine (htotal a (hperm.mem_iff.mp ha) b (hperm.mem_iff.mp hb) hne).resolve_right fun hba => ?_
  have hpos := (hagree b (hperm.mem_iff.mp hb) a (hperm.mem_iff.mp ha) hba).2
  omega

/-- Where merge sort leaves the elements in an order, the comparison agrees with it. -/
theorem StrictlyOrders.agrees_of_mergeSort [DecidableEq α] (h : StrictlyOrders cmp l)
    (hasymm : ∀ a b, lt a b → ¬ lt b a) (hnodup : l.Nodup)
    (hsorted : (ComparisonSort.mergeSort.sort cmp l).Pairwise lt) (ha : a ∈ l) (hb : b ∈ l)
    (hlt : lt a b) : cmp a b < 0 ∧ 0 < cmp b a := by
  have hne : a ≠ b := fun heq => hasymm _ _ hlt (heq ▸ heq ▸ hlt)
  refine (h.opposite a ha b hb hne).resolve_right fun hgt => ?_
  have hperm := ComparisonSort.mergeSort.perm cmp l
  -- of `a` and `b` one stands before the other in the sorted list
  have hboth := (ComparisonSort.mergeSort.ascending cmp l hnodup h).and hsorted
  have hsymm : Std.Symm fun x y => (cmp x y ≤ 0 ∧ lt x y) ∨ (cmp y x ≤ 0 ∧ lt y x) :=
    ⟨fun _ _ hor => hor.symm⟩
  rcases (hboth.imp (S := fun x y => (cmp x y ≤ 0 ∧ lt x y) ∨ (cmp y x ≤ 0 ∧ lt y x))
    Or.inl).forall (hperm.mem_iff.mpr ha) (hperm.mem_iff.mpr hb) hne with hab | hba
  · omega
  · exact hasymm _ _ hlt hba.2

/-- **Sorting by an order.** The comparison is a strict order that puts every two elements in
    the order `lt` exactly when it agrees with `lt`. -/
theorem sorts_iff [DecidableEq α] (htrans : ∀ a b c, lt a b → lt b c → lt a c)
    (hasymm : ∀ a b, lt a b → ¬ lt b a) (hnodup : l.Nodup)
    (htotal : ∀ a ∈ l, ∀ b ∈ l, a ≠ b → lt a b ∨ lt b a) :
    (StrictlyOrders cmp l ∧ ∀ q : ComparisonSort α, (q.sort cmp l).Pairwise lt) ↔
      ∀ a ∈ l, ∀ b ∈ l, lt a b → cmp a b < 0 ∧ 0 < cmp b a := by
  constructor
  · rintro ⟨h, hsorted⟩ a ha b hb hlt
    exact h.agrees_of_mergeSort hasymm hnodup (hsorted _) ha hb hlt
  · intro hagree
    have h := strictlyOrders_of_agrees htrans htotal hagree
    exact ⟨h, fun q => q.pairwise_of_agrees hnodup htotal hagree h⟩

end

end Mcelog.Common
