import Mathlib.Data.List.Basic
import Mathlib.Tactic

/-!
# Cutting a text into lines

A text over an arbitrary alphabet with a separator `nl`: `lines nl s` are its
`nl`-terminated lines (without the separator) and `rest nl s` is what follows
the last separator.

* `lines_append`, `rest_append`: a text can be read in pieces, keeping only the
  unfinished line between them.
* `total_lines`: no symbol is lost, `total (lines nl s) + (rest nl s).length`
  is the length of `s`.
* `Terminated nl P s`: the text is made of finished lines that meet `P`. Such texts
  can be appended, and `Terminated.induction` takes their lines one by one.
-/

namespace Mcelog.Common

variable {α : Type*}

/-- The length of the lines with their terminators. -/
def total (ls : List (List α)) : ℕ := (ls.map fun l => l.length + 1).sum

@[simp] theorem total_nil : total ([] : List (List α)) = 0 := rfl

@[simp] theorem total_cons (l : List α) (ls : List (List α)) :
    total (l :: ls) = l.length + 1 + total ls := by simp [total]

@[simp] theorem total_append (ls ls' : List (List α)) :
    total (ls ++ ls') = total ls + total ls' := by simp [total]

variable [DecidableEq α] {nl : α}

/-- The `nl`-terminated lines of a text, without their terminators. -/
def lines (nl : α) : List α → List (List α)
  | [] => []
  | x :: xs =>
    if x = nl then [] :: lines nl xs
    else match lines nl xs with
      | [] => []
      | l :: ls => (x :: l) :: ls

/-- What follows the last `nl`. -/
def rest (nl : α) : List α → List α
  | [] => []
  | x :: xs => if nl ∈ xs ∨ x = nl then rest nl xs else x :: xs

theorem lines_of_notMem {s : List α} (h : nl ∉ s) : lines nl s = [] := by
  induction s with
  | nil => rfl
  | cons x xs ih =>
    rw [List.mem_cons, not_or] at h
    rw [lines, if_neg (Ne.symm h.1), ih h.2]

theorem rest_of_notMem {s : List α} (h : nl ∉ s) : rest nl s = s := by
  cases s with
  | nil => rfl
  | cons x xs =>
    rw [List.mem_cons, not_or] at h
    rw [rest, if_neg]
    rintro (h' | h')
    · exact h.2 h'
    · exact h.1 h'.symm

theorem rest_suffix (s : List α) : rest nl s <:+ s := by
  induction s with
  | nil => exact List.suffix_rfl
  | cons x xs ih =>
    rw [rest]
    split_ifs
    · exact ih.trans (List.suffix_cons x xs)
    · exact List.suffix_rfl

theorem notMem_rest (s : List α) : nl ∉ rest nl s := by
  induction s with
  | nil => simp [rest]
  | cons x xs ih =>
    rw [rest]
    split_ifs with h
    · exact ih
    · rw [not_or] at h
      rw [List.mem_cons, not_or]
      exact ⟨Ne.symm h.2, h.1⟩

theorem length_rest_le (s : List α) : (rest nl s).length ≤ s.length :=
  (rest_suffix s).length_le

/-- A complete line in front. -/
theorem lines_line_append {l : List α} (hl : nl ∉ l) (s : List α) :
    lines nl (l ++ nl :: s) = l :: lines nl s := by
  induction l with
  | nil => simp [lines]
  | cons x xs ih =>
    rw [List.mem_cons, not_or] at hl
    rw [List.cons_append, lines, if_neg (Ne.symm hl.1), ih hl.2]

theorem rest_line_append {l : List α} (hl : nl ∉ l) (s : List α) :
    rest nl (l ++ nl :: s) = rest nl s := by
  induction l with
  | nil => simp [rest]
  | cons x xs ih =>
    rw [List.mem_cons, not_or] at hl
    rw [List.cons_append, rest, if_pos (by simp), ih hl.2]

/-- Induction over the lines of a text: its unfinished part, and a first line. -/
theorem lines_induction (nl : α) {P : List α → Prop} (hrest : ∀ s, nl ∉ s → P s)
    (hline : ∀ l s, nl ∉ l → P s → P (l ++ nl :: s)) (s : List α) : P s := by
  induction h : s.length using Nat.strong_induction_on generalizing s with
  | _ n ih =>
    by_cases hs : nl ∈ s
    · obtain ⟨l, t, rfl, hl⟩ := List.eq_append_cons_of_mem hs
      exact hline l t hl (ih t.length (by simp at h; omega) t rfl)
    · exact hrest s hs

theorem lines_append (s t : List α) :
    lines nl (s ++ t) = lines nl s ++ lines nl (rest nl s ++ t) := by
  induction s using lines_induction nl with
  | hrest s hs => rw [lines_of_notMem hs, rest_of_notMem hs, List.nil_append]
  | hline l s hl ih =>
    rw [List.append_assoc, List.cons_append, lines_line_append hl, lines_line_append hl,
      rest_line_append hl, ih, List.cons_append]

theorem rest_append (s t : List α) : rest nl (s ++ t) = rest nl (rest nl s ++ t) := by
  induction s using lines_induction nl with
  | hrest s hs => rw [rest_of_notMem hs]
  | hline l s hl ih =>
    rw [List.append_assoc, List.cons_append, rest_line_append hl, rest_line_append hl, ih]

theorem total_lines (nl : α) (s : List α) : total (lines nl s) + (rest nl s).length = s.length := by
  induction s using lines_induction nl with
  | hrest s hs => simp [lines_of_notMem hs, rest_of_notMem hs]
  | hline l s hl ih =>
    rw [lines_line_append hl, rest_line_append hl, total_cons, List.length_append,
      List.length_cons]
    omega

/-- The lines of a text are no longer than the text without a terminator. -/
theorem length_lt_of_mem_lines {s l : List α} (h : l ∈ lines nl s) : l.length < s.length := by
  induction s using lines_induction nl with
  | hrest s hs => simp [lines_of_notMem hs] at h
  | hline l' s hl ih =>
    rw [lines_line_append hl, List.mem_cons] at h
    rw [List.length_append, List.length_cons]
    rcases h with rfl | h
    · omega
    · have := ih h
      omega

theorem lines_eq_nil_iff {s : List α} : lines nl s = [] ↔ nl ∉ s := by
  refine ⟨fun h hs => ?_, lines_of_notMem⟩
  obtain ⟨l, t, rfl, hl⟩ := List.eq_append_cons_of_mem hs
  rw [lines_line_append hl] at h
  exact List.cons_ne_nil _ _ h

/-- A separator in the second part completes all of the first part. -/
theorem total_lines_append_of_mem (s : List α) {t : List α} (ht : nl ∈ t) :
    total (lines nl (s ++ t)) = s.length + total (lines nl t) := by
  have h1 := total_lines nl (s ++ t)
  have h2 := total_lines nl t
  obtain ⟨l, u, rfl, hl⟩ := List.eq_append_cons_of_mem ht
  have hr : rest nl (s ++ (l ++ nl :: u)) = rest nl (l ++ nl :: u) := by
    have hne : nl ∉ rest nl s ++ l := by simp [notMem_rest s, hl]
    rw [rest_append, ← List.append_assoc, rest_line_append hne, rest_line_append hl]
  rw [hr, List.length_append] at h1
  omega

theorem total_lines_append_of_notMem (s : List α) {t : List α} (ht : nl ∉ t) :
    total (lines nl (s ++ t)) = total (lines nl s) := by
  have hne : nl ∉ rest nl s ++ t := by simp [notMem_rest s, ht]
  rw [lines_append, lines_of_notMem hne, List.append_nil]

theorem total_lines_pos {s : List α} (h : nl ∈ s) : 0 < total (lines nl s) := by
  obtain ⟨l, t, rfl, hl⟩ := List.eq_append_cons_of_mem h
  rw [lines_line_append hl, total_cons]
  omega

/-- A text that ends in a separator has no unfinished line. -/
theorem rest_eq_nil_of_getLast? {s : List α} (h : s.getLast? = some nl) : rest nl s = [] := by
  obtain ⟨t, rfl⟩ := List.getLast?_eq_some_iff.mp h
  rw [rest_append, rest_line_append (notMem_rest t)]
  rfl

/-! ## Texts of finished lines -/

/-- Every line of the text is finished and meets `P`. -/
def Terminated (nl : α) (P : List α → Prop) (s : List α) : Prop :=
  (∀ l ∈ lines nl s, P l) ∧ rest nl s = []

section

variable {P : List α → Prop} {s t : List α}

theorem Terminated.nil : Terminated nl P [] := ⟨fun _ h => (nomatch h), rfl⟩

theorem Terminated.line {l : List α} (hl : nl ∉ l) (hP : P l) : Terminated nl P (l ++ [nl]) := by
  refine ⟨fun l' h => ?_, rest_line_append hl []⟩
  rw [lines_line_append hl, lines, List.mem_singleton] at h
  exact h ▸ hP

theorem Terminated.append (hs : Terminated nl P s) (ht : Terminated nl P t) :
    Terminated nl P (s ++ t) := by
  refine ⟨fun l h => ?_, ?_⟩
  · rw [lines_append, hs.2, List.nil_append, List.mem_append] at h
    exact h.elim (hs.1 l) (ht.1 l)
  · rw [rest_append, hs.2, List.nil_append, ht.2]

theorem Terminated.flatMap {β : Type*} {f : β → List α} {xs : List β}
    (h : ∀ x ∈ xs, Terminated nl P (f x)) : Terminated nl P (xs.flatMap f) := by
  induction xs with
  | nil => exact .nil
  | cons x xs ih =>
    rw [List.flatMap_cons]
    exact (h x List.mem_cons_self).append (ih fun y hy => h y (List.mem_cons_of_mem x hy))

/-- The lines of a text of finished lines, one by one. -/
theorem Terminated.induction {Q : List α → Prop} (h : Terminated nl P s) (hnil : Q [])
    (hline : ∀ l s, nl ∉ l → P l → Q s → Q (l ++ nl :: s)) : Q s := by
  induction s using lines_induction nl with
  | hrest s hs =>
    have hs' := h.2
    rw [rest_of_notMem hs] at hs'
    exact hs' ▸ hnil
  | hline l s hl ih =>
    obtain ⟨hlines, hrest⟩ := h
    rw [lines_line_append hl] at hlines
    rw [rest_line_append hl] at hrest
    refine hline l s hl (hlines l List.mem_cons_self) (ih ⟨fun l' hl' => ?_, hrest⟩)
    exact hlines l' (List.mem_cons_of_mem l hl')

end

end Mcelog.Common
