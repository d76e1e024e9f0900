import Mathlib.Data.List.Nodup
import Mathlib.Logic.Function.Basic

/-!
# Circular doubly linked lists

The intrusive list of the Linux kernel over arbitrary node addresses: a node is
an address, the memory is the pair of functions `next` and `prev`, and every
operation is the sequence of stores that the C code makes.

* `IsList head l h`: from `head`, the `next` pointers run through `l` and back to
  `head`, and the `prev` pointers run through `l` backwards.
* `IsList.listAdd`: adding a node that is not on the list puts it in front.
* `listAdd_next_ne`, `listDel_next_ne`: a ring that no longer leads back to its
  head stays so.
* `listAdd_prev_head`, `listDel_prev_head`: when the head keeps its last entry.
* `not_isList`: such a ring represents no list.
-/

namespace Mcelog.Common

/-- The two pointers of every node. -/
structure ListHeap (α : Type*) where
  next : α → α
  prev : α → α

section Operations

variable {α : Type*} [DecidableEq α]

/-- `__list_add(new, prev, next)` -/
def listInsert (h : ListHeap α) (new prev next : α) : ListHeap α :=
  let h := { h with prev := Function.update h.prev next new }
  let h := { h with next := Function.update h.next new next }
  let h := { h with prev := Function.update h.prev new prev }
  { h with next := Function.update h.next prev new }

/-- `list_add(new, head)` -/
def listAdd (h : ListHeap α) (new head : α) : ListHeap α := listInsert h new head (h.next head)

/-- `list_del(entry)`, with the two poison addresses -/
def listDel (poison₁ poison₂ : α) (h : ListHeap α) (entry : α) : ListHeap α :=
  let prev := h.prev entry
  let next := h.next entry
  let h := { h with prev := Function.update h.prev next prev }
  let h := { h with next := Function.update h.next prev next }
  { next := Function.update h.next entry poison₁, prev := Function.update h.prev entry poison₂ }

/-- `list_is_first(list, head)` -/
def listIsFirst (h : ListHeap α) (entry head : α) : Bool := entry = h.next head

end Operations

/-! ## Represented lists -/

section Represent

variable {α : Type*} {f : α → α} {a b : α} {l : List α}

/-- From `a`, the pointers `f` run through `l` to `b`. -/
def Linked (f : α → α) (a : α) : List α → α → Prop
  | [], b => f a = b
  | x :: xs, b => f a = x ∧ Linked f x xs b

/-- Some node of a linked path points to its end. -/
theorem Linked.exists_eq : ∀ {l : List α} {a : α}, Linked f a l b → ∃ x, f x = b
  | [], a, h => ⟨a, h⟩
  | _ :: _, _, h => h.2.exists_eq

/-- Stores outside the path do not change it. -/
theorem Linked.congr {g : α → α} : ∀ {l : List α} {a : α}, Linked f a l b →
    (∀ x ∈ a :: l, g x = f x) → Linked g a l b
  | [], a, h, hg => (hg a (by simp)).trans h
  | x :: xs, a, h, hg =>
    ⟨(hg a (by simp)).trans h.1, h.2.congr fun y hy => hg y (List.mem_cons_of_mem _ hy)⟩

/-- A path that is extended at its end. -/
theorem linked_append_singleton {c : α} : ∀ {l : List α} {a : α},
    Linked f a (l ++ [c]) b ↔ Linked f a l c ∧ f c = b
  | [], a => Iff.rfl
  | x :: xs, a => by
    simp only [List.cons_append, Linked, linked_append_singleton, and_assoc]

/-- `h` holds the list `l` with the list head `head`. -/
structure IsList (head : α) (l : List α) (h : ListHeap α) : Prop where
  nodup : (head :: l).Nodup
  next : Linked h.next head l head
  prev : Linked h.prev head l.reverse head

theorem isList_nil {head : α} {h : ListHeap α} (hn : h.next head = head)
    (hp : h.prev head = head) : IsList head [] h :=
  ⟨List.nodup_singleton _, hn, hp⟩

/-- No list without a way back to its head. -/
theorem not_isList {head : α} {h : ListHeap α} (hne : ∀ x, h.next x ≠ head) (l : List α) :
    ¬ IsList head l h := by
  intro hl
  obtain ⟨x, hx⟩ := hl.next.exists_eq
  exact hne x hx

end Represent

/-! ## Operations on represented lists -/

section Preserve

variable {α : Type*} [DecidableEq α] {h : ListHeap α} {head new : α}

theorem listAdd_next (h : ListHeap α) (new head : α) :
    (listAdd h new head).next =
      Function.update (Function.update h.next new (h.next head)) head new := rfl

/-- Adding a fresh node puts it in front of the list. -/
theorem IsList.listAdd {l : List α} (hl : IsList head l h) (hnew : new ∉ head :: l) :
    IsList head (new :: l) (Common.listAdd h new head) := by
  rw [List.mem_cons, not_or] at hnew
  obtain ⟨hne, hnl⟩ := hnew
  obtain ⟨hhead, hnd⟩ := List.nodup_cons.mp hl.nodup
  refine ⟨?_, ?_, ?_⟩
  · rw [List.nodup_cons, List.nodup_cons, List.mem_cons]
    exact ⟨fun hmem => hmem.elim (fun he => hne he.symm) hhead, hnl, hnd⟩
  · refine ⟨by simp [listAdd_next], ?_⟩
    have hpath := hl.next
    cases l with
    | nil =>
      have : h.next head = head := hpath
      simp [listAdd_next, Linked, hne, this]
    | cons x xs =>
      obtain ⟨hx, hxs⟩ := hpath
      refine ⟨by simp [listAdd_next, hne, hx], hxs.congr ?_⟩
      intro y hy
      have hy1 : y ≠ head := fun he => hhead (he ▸ hy)
      have hy2 : y ≠ new := fun he => hnl (he ▸ hy)
      simp [listAdd_next, hy1, hy2]
  · have hprev : (Common.listAdd h new head).prev =
        Function.update (Function.update h.prev (h.next head) new) new head := rfl
    have hpath := hl.prev
    rw [List.reverse_cons, linked_append_singleton, hprev]
    refine ⟨?_, by simp⟩
    have hnext := hl.next
    cases l with
    | nil =>
      have : h.next head = head := hnext
      simp [Linked, this, Ne.symm hne]
    | cons x xs =>
      obtain ⟨hx, -⟩ := hnext
      have hxnew : x ≠ new := fun he => hnl (he ▸ List.mem_cons_self ..)
      rw [List.reverse_cons, linked_append_singleton] at hpath ⊢
      refine ⟨hpath.1.congr ?_, by simp [hx, hxnew]⟩
      intro y hy
      have hy1 : y ≠ new := by
        rintro rfl
        rcases List.mem_cons.mp hy with he | hm
        · exact hne he
        · exact hnl (List.mem_cons_of_mem _ (List.mem_reverse.mp hm))
      have hy2 : y ≠ x := by
        rintro rfl
        rcases List.mem_cons.mp hy with he | hm
        · exact hhead (he ▸ List.mem_cons_self ..)
        · exact (List.nodup_cons.mp hnd).1 (List.mem_reverse.mp hm)
      simp [hx, hy1, hy2]

/-- `list_add` closes no ring that was open. -/
theorem listAdd_next_ne (hne : ∀ x, h.next x ≠ head) (hnew : new ≠ head) (x : α) :
    (listAdd h new head).next x ≠ head := by
  rw [listAdd_next]
  by_cases hx : x = head
  · simpa [hx] using hnew
  · by_cases hx' : x = new
    · simpa [hx', hnew] using hne head
    · simpa [hx, hx'] using hne x

/-- `list_del` closes no ring that was open. -/
theorem listDel_next_ne {poison₁ poison₂ : α} (hne : ∀ x, h.next x ≠ head)
    (hp : poison₁ ≠ head) (entry x : α) :
    (listDel poison₁ poison₂ h entry).next x ≠ head := by
  show Function.update (Function.update h.next (h.prev entry) (h.next entry)) entry poison₁ x ≠ head
  by_cases hx : x = entry
  · simpa [hx] using hp
  · by_cases hx' : x = h.prev entry
    · rw [Function.update_of_ne hx, hx', Function.update_self]
      exact hne entry
    · rw [Function.update_of_ne hx, Function.update_of_ne hx']
      exact hne x

/-- The head keeps its last entry when a node is added to a list that is not empty. -/
theorem listAdd_prev_head (hne : h.next head ≠ head) (hnew : new ≠ head) :
    (listAdd h new head).prev head = h.prev head := by
  show Function.update (Function.update h.prev (h.next head) new) new head head = _
  rw [Function.update_of_ne hnew.symm, Function.update_of_ne hne.symm]

/-- The head keeps its last entry when a node is deleted that does not point to it. -/
theorem listDel_prev_head {poison₁ poison₂ entry : α} (hne : h.next entry ≠ head)
    (hentry : entry ≠ head) : (listDel poison₁ poison₂ h entry).prev head = h.prev head := by
  show Function.update (Function.update h.prev (h.next entry) (h.prev entry)) entry poison₂ head = _
  rw [Function.update_of_ne hentry.symm, Function.update_of_ne hne.symm]

/-- Adding the only node of a list once more opens the ring: the node then points
    to itself. -/
theorem listAdd_again_next_ne (hfirst : h.next head = new) (hnew : new ≠ head)
    (hne : ∀ x, x ≠ new → h.next x ≠ head) (x : α) : (listAdd h new head).next x ≠ head := by
  rw [listAdd_next, hfirst]
  by_cases hx : x = head
  · simpa [hx] using hnew
  · by_cases hx' : x = new
    · simp [hx', hnew]
    · simpa [hx, hx'] using hne x hx'

end Preserve

end Mcelog.Common
