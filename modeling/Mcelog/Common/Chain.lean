import Mathlib.Data.List.Basic
import Mathlib.Data.List.Induction
import Mathlib.Logic.Function.Basic

/-!
# Chains that end in a null pointer

A singly linked list over arbitrary addresses: the memory is the function `next`, a null
pointer is `none`, and the list keeps a pointer to its first and to its last node.

* `IsChain next p l`: from `p`, the pointers run through `l` to null.
* `isChain_singleton`, `IsChain.append`: a node is appended to an empty chain, and behind
  the last node.
* `IsChain.congr`: a store elsewhere leaves a chain alone.
* `findChain`: walk a chain until a node answers; `IsChain.findChain_eq` says what it
  finds.
* `findSome?_keys`: a search through the groups of a list, one after the other.
-/

namespace Mcelog.Common

variable {α β : Type*} {next next' : α → Option α} {p : Option α} {l : List α} {a : α}

/-- From `p`, the pointers `next` run through `l` and end in a null pointer. -/
def IsChain (next : α → Option α) : Option α → List α → Prop
  | p, [] => p = none
  | p, a :: l => p = some a ∧ IsChain next (next a) l

theorem IsChain.congr (h : IsChain next p l) (hsame : ∀ a ∈ l, next' a = next a) :
    IsChain next' p l := by
  induction l generalizing p with
  | nil => exact h
  | cons a l ih =>
    refine ⟨h.1, ?_⟩
    rw [hsame a List.mem_cons_self]
    exact ih h.2 fun b hb => hsame b (List.mem_cons_of_mem _ hb)

theorem isChain_singleton (h : next a = none) : IsChain next (some a) [a] := ⟨rfl, h⟩

section Append

variable [DecidableEq α]

/-- A node is appended behind the last one. -/
theorem IsChain.append {last : α} (h : IsChain next p l) (hlast : l.getLast? = some last)
    (hnew : a ∉ l) (hnodup : l.Nodup) (ha : next a = none) :
    IsChain (Function.update next last (some a)) p (l ++ [a]) := by
  induction l generalizing p with
  | nil => cases hlast
  | cons b l ih =>
    refine ⟨h.1, ?_⟩
    obtain ⟨hb, hnodup⟩ := List.nodup_cons.mp hnodup
    cases l with
    | nil =>
      obtain rfl : b = last := Option.some.inj hlast
      have hne : a ≠ b := fun heq => hnew (heq ▸ List.mem_cons_self)
      rw [Function.update_self]
      refine isChain_singleton ?_
      rwa [Function.update_of_ne hne]
    | cons c l =>
      rw [List.getLast?_cons_cons] at hlast
      have hne : b ≠ last := fun heq => hb (heq ▸ List.mem_of_getLast? hlast)
      rw [Function.update_of_ne hne]
      exact ih h.2 hlast (fun hmem => hnew (List.mem_cons_of_mem _ hmem)) hnodup

end Append

/-! ## Walking a chain -/

/-- `for (o = p; o; o = o->next)` until `f` has an answer, at most `fuel` nodes. -/
def findChain (next : α → Option α) (f : α → Option β) : ℕ → Option α → Option β
  | 0, _ => none
  | _, none => none
  | fuel + 1, some a => (f a).orElse fun _ => findChain next f fuel (next a)

/-- Enough fuel finds the first node of the chain that has an answer. -/
theorem IsChain.findChain_eq {f : α → Option β} {fuel : ℕ} (h : IsChain next p l)
    (hfuel : l.length ≤ fuel) : findChain next f fuel p = l.findSome? f := by
  induction l generalizing p fuel with
  | nil =>
    rw [show p = none from h]
    cases fuel <;> rfl
  | cons a l ih =>
    obtain ⟨rfl, htail⟩ := h
    cases fuel with
    | zero => exact absurd hfuel (by simp)
    | succ fuel =>
      rw [findChain, ih htail (by simpa using hfuel), List.findSome?_cons]
      cases f a <;> rfl

/-! ## Searching lists

A search through the parts of a list, part by part, is a search through the list when the
parts follow each other in it. -/

theorem findSome?_congr {f g : α → Option β} (h : ∀ a ∈ l, f a = g a) :
    l.findSome? f = l.findSome? g := by
  induction l with
  | nil => rfl
  | cons a l ih =>
    rw [List.findSome?_cons, List.findSome?_cons, h a List.mem_cons_self,
      ih fun b hb => h b (List.mem_cons_of_mem _ hb)]

theorem findSome?_filter (q : α → Bool) (f : α → Option β) (l : List α) :
    (l.filter q).findSome? f = l.findSome? fun a => if q a then f a else none := by
  induction l with
  | nil => rfl
  | cons a l ih =>
    cases hq : q a with
    | false => rw [List.filter_cons_of_neg (by simp [hq]), ih, List.findSome?_cons, hq]; rfl
    | true =>
      rw [List.filter_cons_of_pos hq, List.findSome?_cons, List.findSome?_cons, ih, hq]
      rfl

/-- A search through the indices of a list. -/
theorem findSome?_range (f : α → Option β) (l : List α) :
    (List.range l.length).findSome? (fun i => l[i]?.bind f) = l.findSome? f := by
  induction l using List.reverseRecOn with
  | nil => rfl
  | append_singleton l a ih =>
    rw [List.length_append, List.length_singleton, List.range_succ, List.findSome?_append,
      List.findSome?_append, ← ih]
    congr 1
    · refine findSome?_congr fun i hi => ?_
      rw [List.getElem?_append_left (List.mem_range.mp hi)]
    · simp

/-- The parts are the elements with the same key, in a list that is sorted by its keys. -/
theorem findSome?_keys {key : α → ℕ} {k : ℕ} (f : α → Option β)
    (hsorted : l.Pairwise fun a b => key a ≤ key b) (hkey : ∀ a ∈ l, key a < k) :
    (List.range k).findSome? (fun i => l.findSome? fun a => if key a = i then f a else none) =
      l.findSome? f := by
  induction l with
  | nil => simp
  | cons a l ih =>
    obtain ⟨hle, hsorted⟩ := List.pairwise_cons.mp hsorted
    cases ha : f a with
    | none =>
      simp only [List.findSome?_cons, ha, ite_self]
      exact ih hsorted fun b hb => hkey b (List.mem_cons_of_mem _ hb)
    | some v =>
      rw [List.findSome?_cons, ha, List.findSome?_eq_some_iff]
      -- No key is less than the first one.
      refine ⟨List.range (key a), key a, List.range' (key a + 1) (k - key a - 1), ?_, ?_, ?_⟩
      · have hlt := hkey a List.mem_cons_self
        rw [List.range_eq_range', List.range_eq_range', ← List.range'_succ,
          show k - key a - 1 + 1 = k - key a by omega]
        have hsum := List.range'_append_1 (s := 0) (m := key a) (n := k - key a)
        rw [Nat.zero_add, Nat.add_sub_cancel' (Nat.le_of_lt hlt)] at hsum
        exact hsum.symm
      · rw [List.findSome?_cons, if_pos rfl, ha]
      · intro i hi
        rw [List.findSome?_eq_none_iff]
        intro b hb
        have hge : key a ≤ key b := by
          rcases List.mem_cons.mp hb with rfl | hb
          · exact Nat.le_refl _
          · exact hle b hb
        exact if_neg fun heq => absurd (List.mem_range.mp hi) (by omega)

end Mcelog.Common
