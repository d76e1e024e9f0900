import Mcelog.Rbtree.Delete

/-!
# The tree as a sequence

What `rbtree.c` is for: it keeps its nodes in an order that the caller chooses, by
the place of each new node. `RbRun h l`: the heap `h` is reached from an empty tree
by calls of the interface, and `l` is what the calls made of the sequence.

* `RbRun.exists_tree`: the heap holds a red-black tree with these nodes in order.
* `rb_run_refines`: the same, and every legal call of the interface succeeds.
* `rb_run_walk`: loops with `rb_first`, `rb_next` and with `rb_last`, `rb_prev` visit
  the sequence in order and in reverse.

Every loop gets `rounds` rounds, which is enough for `2 ^ 63` nodes.
-/

namespace Mcelog.Rbtree

open Mcelog.Common RbTree

variable {α : Type*} [DecidableEq α] {h h' : RbHeap α} {l : List α} {t : RbTree α} {x y p : α}
  {d : Side} {link : Option (α × Side)}

/-- The rounds that a loop gets. -/
def rounds : ℕ := 128

/-- The tree has fewer nodes than there are addresses. -/
def Fits (l : List α) : Prop := l.length < 2 ^ 63

/-- The new node `x` next to `p`. -/
def insertBeside (d : Side) (p x : α) : List α → List α
  | [] => []
  | y :: ys =>
    if y = p then if d = .left then x :: y :: ys else y :: x :: ys
    else y :: insertBeside d p x ys

/-- The new node at a link of the tree. -/
def insertAt (link : Option (α × Side)) (x : α) (l : List α) : List α :=
  match link with
  | none => [x]
  | some (p, d) => insertBeside d p x l

/-- The link is a NULL pointer of the tree. -/
def FreeLink (h : RbHeap α) (l : List α) : Option (α × Side) → Prop
  | none => l = []
  | some (p, d) => p ∈ l ∧ (h.node p).child d = none

/-- The calls of the interface, from an empty tree on, and the sequence of the nodes
    that they are meant to keep. -/
inductive RbRun : RbHeap α → List α → Prop
  | empty (node : α → RbNode α) : RbRun (.empty node) []
  | insert {h h' : RbHeap α} {l : List α} {x : α} {link : Option (α × Side)} : RbRun h l →
      Fits l → x ∉ l → FreeLink h l link →
      rbInsertColor rounds (rbLinkNode h x link) x = some h' → RbRun h' (insertAt link x l)
  | erase {h h' : RbHeap α} {l : List α} {x : α} : RbRun h l → Fits l → x ∈ l →
      rbErase rounds h x = some h' → RbRun h' (l.erase x)
  | replace {h : RbHeap α} {l : List α} {x y : α} : RbRun h l → x ∈ l → y ∉ l →
      RbRun (rbReplaceNode h x y) (l.replace x y)

/-! ## One call -/

omit [DecidableEq α] in
/-- The rounds are enough for a red-black tree that fits. -/
theorem height_lt_rounds (hrb : t.IsRB) (hfits : Fits t.toList) : t.height < rounds := by
  have hpow : 2 ^ t.height ≤ (2 ^ 63) ^ 2 :=
    hrb.height_le.trans (Nat.pow_le_pow_left (Nat.succ_le_of_lt hfits) 2)
  rw [← Nat.pow_mul] at hpow
  have hle := (Nat.pow_le_pow_iff_right (by omega)).mp hpow
  rw [rounds]
  omega

theorem insertBeside_append {before : List α} (hp : p ∉ before) (after : List α) :
    insertBeside d p x (before ++ after) = before ++ insertBeside d p x after := by
  induction before with
  | nil => rfl
  | cons y before ih =>
    rw [List.mem_cons, not_or] at hp
    rw [List.cons_append, insertBeside, if_neg fun heq => hp.1 heq.symm, ih hp.2, List.cons_append]

/-- A free link is the end of a path. -/
theorem Represents.exists_path (hr : Represents h t) (hlink : FreeLink h t.toList link) :
    ∃ fs : List (Frame α), t = plug fs leaf ∧ linkOf fs = link ∧
      (plug fs (branch .left .red leaf x leaf)).toList = insertAt link x t.toList := by
  match link with
  | none =>
    cases t with
    | leaf => exact ⟨[], rfl, rfl, rfl⟩
    | node c l y r => exact absurd hlink (by simp [FreeLink, toList])
  | some (p, d) =>
    obtain ⟨hp, hchild⟩ := hlink
    obtain ⟨fs, c, l, r, rfl⟩ := exists_plug_of_mem hp
    obtain ⟨c', a, b, hab⟩ := exists_branch (t := node c l p r) d rfl
    rw [hab] at hr hp ⊢
    rw [hr.node_eq, RbNode.child_of, top_eq_none_iff] at hchild
    subst hchild
    refine ⟨⟨d, c', p, b⟩ :: fs, rfl, rfl, ?_⟩
    obtain ⟨before, after, hlist⟩ := exists_toList_plug fs
    have hnodup := hr.nodup
    rw [plug, insertAt, hlist, hlist, Frame.fill]
    rw [hlist] at hnodup
    cases d with
    | left =>
      have hpb : p ∉ before := fun hmem => (List.nodup_append.mp
        (List.nodup_append.mp hnodup).1).2.2 p hmem p (by simp [branch, toList]) rfl
      rw [List.append_assoc before (branch .left c' leaf p b).toList, insertBeside_append hpb]
      simp [branch, toList, insertBeside]
    | right =>
      have hpb : p ∉ before ++ b.toList := by
        simp only [branch, toList, List.append_assoc, List.cons_append, List.nil_append] at hnodup
        rw [← List.append_assoc] at hnodup
        exact fun hmem => (List.nodup_append.mp hnodup).2.2 p hmem p List.mem_cons_self rfl
      simp only [branch, toList, List.append_assoc, List.cons_append, List.nil_append]
      rw [← List.append_assoc before, ← List.append_assoc before, insertBeside_append hpb]
      simp [insertBeside]

/-- `rb_link_node` and `rb_insert_color` at a free link. -/
theorem Represents.insert {fuel : ℕ} (hr : Represents h t) (hrb : t.IsRB)
    (hfuel : t.height < fuel) (hx : x ∉ t.toList) (hlink : FreeLink h t.toList link) :
    ∃ h' t', rbInsertColor fuel (rbLinkNode h x link) x = some h' ∧ Represents h' t' ∧
      t'.IsRB ∧ t'.toList = insertAt link x t.toList := by
  obtain ⟨fs, rfl, rfl, hlist⟩ := hr.exists_path (x := x) hlink
  have hlen := length_add_height_le fs (leaf : RbTree α)
  have hxp : x ∉ pathNodes fs := by
    rw [(toList_plug_perm fs _).mem_iff] at hx
    exact fun hmem => hx (List.mem_append_left _ hmem)
  obtain ⟨h', t', hrun, hr', hlist', hrb'⟩ := hr.insertColor (x := x)
    (lt_of_le_of_lt ((Nat.le_add_right _ _).trans hlen) hfuel) hrb hxp
  exact ⟨h', t', hrun, hr', hrb', hlist'.trans hlist⟩

/-- `rb_replace_node` by a node that is not in the tree. -/
theorem Represents.replace (hr : Represents h t) (hrb : t.IsRB) (hx : x ∈ t.toList)
    (hy : y ∉ t.toList) : ∃ t', Represents (rbReplaceNode h x y) t' ∧ t'.IsRB ∧
      t'.toList = t.toList.replace x y := by
  obtain ⟨fs, c, l, r, rfl⟩ := exists_plug_of_mem hx
  obtain ⟨n, hp, hv, hc⟩ := plug_isRB_iff.mp hrb
  have hv' : (node c l y r).Valid n := by
    cases c with
    | red => exact hv
    | black => cases n <;> exact hv
  refine ⟨_, hr.replaceNode hy, plug_isRB_iff.mpr ⟨n, hp, hv', hc⟩, ?_⟩
  obtain ⟨before, after, hlist⟩ := exists_toList_plug fs
  have hnodup := hr.nodup
  rw [hlist, toList, ← List.append_assoc, List.append_assoc, List.cons_append] at hnodup
  have hxb : x ∉ before ++ l.toList := fun hmem =>
    (List.nodup_append.mp hnodup).2.2 x hmem x List.mem_cons_self rfl
  rw [hlist, hlist, toList, toList, ← List.append_assoc, List.append_assoc, List.cons_append,
    ← List.append_assoc, List.append_assoc _ _ after, List.cons_append,
    List.replace_append_right (by simpa using hxb), List.replace_cons_self]

/-! ## Runs -/

/-- After every run the heap holds a red-black tree with the nodes in order. -/
theorem RbRun.exists_tree (hrun : RbRun h l) : ∃ t, Represents h t ∧ t.IsRB ∧ t.toList = l := by
  induction hrun with
  | empty node => exact ⟨leaf, represents_empty node, ⟨rfl, 0, rfl⟩, rfl⟩
  | insert _ hfits hx hlink hcall ih =>
    obtain ⟨t, hr, hrb, rfl⟩ := ih
    obtain ⟨h₁, t₁, hcall₁, hr₁, hrb₁, hlist⟩ :=
      hr.insert hrb (height_lt_rounds hrb hfits) hx hlink
    obtain rfl := Option.some.inj (hcall.symm.trans hcall₁)
    exact ⟨t₁, hr₁, hrb₁, hlist⟩
  | erase _ hfits hx hcall ih =>
    obtain ⟨t, hr, hrb, rfl⟩ := ih
    obtain ⟨h₁, t₁, hcall₁, hr₁, hlist, hrb₁⟩ :=
      rb_erase_spec hr hrb hx (height_lt_rounds hrb hfits)
    obtain rfl := Option.some.inj (hcall.symm.trans hcall₁)
    exact ⟨t₁, hr₁, hrb₁, hlist⟩
  | replace _ hx hy ih =>
    obtain ⟨t, hr, hrb, rfl⟩ := ih
    exact hr.replace hrb hx hy

/-- **The red-black tree refines a sequence.** After any run of insertions, deletions
    and replacements the heap holds a red-black tree whose nodes in order are those of
    the sequence, no higher than twice the logarithm of their number; and every
    insertion at a free link and every deletion of a node of the tree returns. -/
theorem rb_run_refines (hrun : RbRun h l) :
    (∃ t, Represents h t ∧ t.IsRB ∧ t.toList = l ∧ 2 ^ t.height ≤ (l.length + 1) ^ 2) ∧
      (Fits l → (∀ x link, x ∉ l → FreeLink h l link →
          ∃ h', rbInsertColor rounds (rbLinkNode h x link) x = some h') ∧
        ∀ x ∈ l, ∃ h', rbErase rounds h x = some h') := by
  obtain ⟨t, hr, hrb, rfl⟩ := hrun.exists_tree
  refine ⟨⟨t, hr, hrb, rfl, hrb.height_le⟩, fun hfits => ⟨fun x link hx hlink => ?_,
    fun x hx => ?_⟩⟩
  · obtain ⟨h', -, hcall, -⟩ := hr.insert hrb (height_lt_rounds hrb hfits) hx hlink
    exact ⟨h', hcall⟩
  · obtain ⟨h', -, hcall, -⟩ := rb_erase_spec hr hrb hx (height_lt_rounds hrb hfits)
    exact ⟨h', hcall⟩

/-- Memory before the first call. -/
def blankNode : ℕ → RbNode ℕ := fun _ =>
  { rbRight := none, rbLeft := none, parent := none, color := .red }

/-- Three nodes are linked to the right of each other, which takes a rotation, and the
    first one is erased. -/
theorem exists_run : ∃ h, RbRun h [2, 3] := by
  have hfits : ∀ l : List ℕ, l.length ≤ 3 → Fits l := fun l hl => lt_of_le_of_lt hl (by norm_num)
  have hone : FreeLink (RbHeap.empty blankNode) ([] : List ℕ) none := rfl
  have h₁ := RbRun.insert (x := 1) (.empty blankNode) (hfits _ (by decide)) (by decide) hone rfl
  have h₂ := RbRun.insert (x := 2) h₁ (hfits _ (by decide)) (by decide)
    (show FreeLink _ _ (some (1, Side.right)) from ⟨List.mem_singleton.mpr rfl, rfl⟩) rfl
  have h₃ := RbRun.insert (x := 3) h₂ (hfits _ (by decide)) (by decide)
    (show FreeLink _ _ (some (2, Side.right)) from ⟨by decide, rfl⟩) rfl
  exact ⟨_, .erase (x := 1) h₃ (hfits _ (by decide)) (by decide) rfl⟩

/-- The refinement after that run. -/
theorem rb_run_refines_two_nodes : ∃ h t, RbRun h [2, 3] ∧ Represents h t ∧ t.IsRB ∧
    t.toList = [2, 3] ∧ 2 ^ t.height ≤ (2 + 1) ^ 2 := by
  obtain ⟨h, hrun⟩ := exists_run
  obtain ⟨⟨t, hr, hrb, hlist, hheight⟩, -⟩ := rb_run_refines hrun
  exact ⟨h, t, hrun, hr, hrb, hlist, hheight⟩

/-- **Walking visits the sequence.** After any run, the loop from `rb_first` with
    `rb_next` visits the nodes in order and the loop from `rb_last` with `rb_prev`
    visits them in reverse, each once; `rb_next` and `rb_prev` of a node are its
    neighbours in the sequence. -/
theorem rb_run_walk (hrun : RbRun h l) (hfits : Fits l) :
    (rbFirst rounds h).bind (traverse .left rounds h l.length) = some l ∧
      (rbLast rounds h).bind (traverse .right rounds h l.length) = some l.reverse ∧
      ∀ before x after, l = before ++ x :: after →
        rbNext rounds h x = some after.head? ∧ rbPrev rounds h x = some before.getLast? := by
  obtain ⟨t, hr, hrb, rfl⟩ := hrun.exists_tree
  have hheight := (height_lt_rounds hrb hfits).le
  obtain ⟨hfirst, hlast, hnext⟩ := rb_walk_spec hr hheight
  refine ⟨?_, ?_, hnext⟩
  · rw [hfirst]
    exact traverse_spec (d := .left) [] hr hheight rfl le_rfl
  · rw [hlast, ← List.head?_reverse]
    exact traverse_spec (d := .right) [] hr hheight rfl (List.length_reverse).le

/-- Walking after that run. -/
theorem rb_run_walk_two_nodes : ∃ h, RbRun h [2, 3] ∧
    (rbFirst rounds h).bind (traverse .left rounds h 2) = some [2, 3] ∧
    (rbLast rounds h).bind (traverse .right rounds h 2) = some [3, 2] := by
  obtain ⟨h, hrun⟩ := exists_run
  obtain ⟨hforward, hbackward, -⟩ := rb_run_walk hrun (show 2 < 2 ^ 63 by norm_num)
  exact ⟨h, hrun, hforward, hbackward⟩

end Mcelog.Rbtree
