import Mcelog.Rbtree.Insert

/-!
# Walking through the tree

`rb_first`, `rb_last`, `rb_next` and `rb_prev` follow the pointers of the tree: down
on one side, or up while the node is a child on the other side. One proof covers
both directions: `listFrom d` is the order of the nodes as seen from side `d`.

* `Represents.descend`: the way down on one side ends at the first node.
* `Represents.climb`: the way up ends at the first node after the hole.
* `rb_walk_spec`: the four functions and the order of the nodes.
* `traverse_spec`: a loop from the first node to NULL visits each node once, in order.
-/

namespace Mcelog.Rbtree

open Mcelog.Common RbTree

variable {α : Type*} {h : RbHeap α} {fs : List (Frame α)} {f : Frame α} {t a b : RbTree α}
  {x y : α} {d : Side} {c : Color} {fuel : ℕ}

/-- Going down on side `d` ends at the node without a child there. -/
theorem Represents.descend (hr : Represents h (plug fs t)) (hx : t.top = some x)
    (hfuel : t.height ≤ fuel) :
    ∃ gs c y s, t = plug gs (branch d c leaf y s) ∧ (∀ g ∈ gs, g.side = d) ∧
      Rbtree.descend d h fuel x = some y := by
  induction fuel generalizing fs t x with
  | zero =>
    cases t with
    | leaf => cases hx
    | node c l y r => exact absurd hfuel (by rw [height]; omega)
  | succ fuel ih =>
    obtain ⟨c, a, b, rfl⟩ := exists_branch d hx
    have hchild : (h.node x).child d = a.top := by rw [hr.node_eq, RbNode.child_of]
    cases htop : a.top with
    | none =>
      obtain rfl := top_eq_none_iff.mp htop
      refine ⟨[], c, x, b, rfl, fun g hg => absurd hg List.not_mem_nil, ?_⟩
      rw [Rbtree.descend, hchild, htop]
    | some z =>
      have ha : a.height ≤ fuel := by
        have hlt : a.height + 1 ≤ (branch d c a x b).height := by
          cases d <;> simp only [branch, height] <;> omega
        omega
      have hr' : Represents h (plug (⟨d, c, x, b⟩ :: fs) a) := hr
      obtain ⟨gs, c', y, s, rfl, hside, hrun⟩ := ih hr' htop ha
      refine ⟨gs ++ [⟨d, c, x, b⟩], c', y, s, by rw [plug_append]; rfl, ?_, ?_⟩
      · intro g hg
        rcases List.mem_append.mp hg with hg | hg
        · exact hside g hg
        · rw [List.mem_singleton.mp hg]
      · rw [Rbtree.descend, hchild, htop]
        exact hrun

/-- Going down on side `d` ends at the first node as seen from there. -/
theorem Represents.descend_eq_head (hr : Represents h (plug fs t)) (hx : t.top = some x)
    (hfuel : t.height ≤ fuel) : Rbtree.descend d h fuel x = (t.listFrom d).head? := by
  obtain ⟨gs, c, y, s, rfl, hside, hrun⟩ := hr.descend (d := d) hx hfuel
  obtain ⟨after, heq⟩ := exists_listFrom_spine hside
  rw [hrun, heq, listFrom_branch]
  cases d <;> rfl

/-- `rb_first`, `rb_last`: the first node as seen from side `d`. -/
theorem Represents.extreme (hr : Represents h t) (hfuel : t.height ≤ fuel) :
    Rbtree.extreme d fuel h = some (t.listFrom d).head? := by
  rw [Rbtree.extreme, hr.root]
  cases htop : t.top with
  | none =>
    rw [top_eq_none_iff.mp htop]
    cases d <;> rfl
  | some x =>
    have hr' : Represents h (plug [] t) := hr
    have hdesc := hr'.descend_eq_head (d := d) htop hfuel
    obtain ⟨gs, c, y, s, -, -, hrun⟩ := hr'.descend (d := d) htop hfuel
    rw [← hdesc, hrun]
    simp only [hrun, Option.map_some]

variable [DecidableEq α]

/-- Going up while the node is a child on the far side ends at the first node after
    the hole. -/
theorem Represents.climb (hr : Represents h (plug fs t)) (hx : t.top = some x)
    (hfuel : fs.length < fuel) :
    Rbtree.climb d.other h fuel x = some (nodesAfter d fs).head? := by
  induction fuel generalizing fs t x with
  | zero => omega
  | succ fuel ih =>
    have hparent := (hr.parent_of_top hx).1
    cases fs with
    | nil =>
      rw [Rbtree.climb, hparent]
      rfl
    | cons f fs =>
      rw [Rbtree.climb, hparent]
      dsimp only [parentOf]
      rw [hr.parent_eq, hx, nodesAfter]
      rcases Side.eq_or_eq_other d f.side with hside | hside
      · have hne : ¬ (RbNode.of f.side (some x) f.sibling.top (parentOf fs) f.color).child
            d.other = some x := by
          rw [← hside, RbNode.child_other_of]
          exact hr.sibling_ne hx
        rw [if_neg hne, if_pos hside]
        rfl
      · rw [← hside, if_pos (RbNode.child_of ..), hside, if_neg d.other_ne]
        exact ih hr (top_branch ..) (by rw [List.length_cons] at hfuel; omega)

/-- `rb_next`, `rb_prev`: the next node as seen from side `d`. -/
theorem Represents.neighbour (hr : Represents h (plug fs (branch d c a x b)))
    (hfuel : (plug fs (branch d c a x b)).height ≤ fuel) :
    Rbtree.neighbour d fuel h x = some (b.listFrom d ++ nodesAfter d fs).head? := by
  have hlen := length_add_height_le fs (branch d c a x b)
  have hheight : b.height + 1 ≤ (branch d c a x b).height := by
    cases d <;> simp only [branch, height] <;> omega
  obtain ⟨-, -, -, -, hd⟩ := represents_branch_iff.mp hr
  rw [Rbtree.neighbour, hr.node_eq, RbNode.parent_of, if_neg (parentOf_ne hd.path_top),
    RbNode.child_other_of]
  cases htop : b.top with
  | none =>
    rw [top_eq_none_iff.mp htop]
    dsimp only
    rw [hr.climb (top_branch ..) (by omega)]
    cases d <;> rfl
  | some z =>
    have hr' := hr
    rw [plug_far] at hr'
    have hdesc := hr'.descend_eq_head (d := d) htop (show b.height ≤ fuel by omega)
    obtain ⟨gs, c', y, s, -, -, hrun⟩ := hr'.descend (d := d) htop (show b.height ≤ fuel by omega)
    rw [hrun] at hdesc
    dsimp only
    rw [hrun, List.head?_append, ← hdesc]
    rfl

/-- The next node in the order seen from side `d`. -/
theorem Represents.neighbour_eq {before after : List α} (hr : Represents h t)
    (hfuel : t.height ≤ fuel) (hlist : t.listFrom d = before ++ x :: after) :
    Rbtree.neighbour d fuel h x = some after.head? := by
  have hnodup : (t.listFrom d).Nodup := (listFrom_perm d t).nodup_iff.mpr hr.nodup
  have hx : x ∈ t.toList := (listFrom_perm d t).mem_iff.mp (by rw [hlist]; simp)
  obtain ⟨fs, c, l, r, rfl⟩ := exists_plug_of_mem hx
  obtain ⟨c', a, b, hab⟩ := exists_branch (t := node c l x r) d rfl
  rw [hab] at hr hfuel hlist hnodup
  rw [hr.neighbour hfuel]
  obtain ⟨before', heq⟩ := exists_listFrom_plug d fs (branch d c' a x b)
  rw [listFrom_branch, List.append_assoc, List.append_assoc, List.cons_append,
    ← List.append_assoc] at heq
  -- the node is in the order once
  have hnot : ∀ {u v : List α}, (plug fs (branch d c' a x b)).listFrom d = u ++ x :: v →
      x ∉ u ∧ x ∉ v := by
    intro u v huv
    rw [huv, List.nodup_append, List.nodup_cons] at hnodup
    exact ⟨fun hu => hnodup.2.2 x hu x List.mem_cons_self rfl, hnodup.2.1.1⟩
  have hafter := (List.append_cons_inj_of_notMem (hnot heq).1 (hnot heq).2).mp
    (heq.symm.trans hlist)
  rw [hafter.2.2]

/-- `for (r = first; r; r = next(r))` with at most `rounds` rounds: the nodes
    visited. -/
def traverse (d : Side) (fuel : ℕ) (h : RbHeap α) : ℕ → Option α → Option (List α)
  | _, none => some []
  | 0, some _ => none
  | rounds + 1, some r => do
    let next ← neighbour d fuel h r
    let rest ← traverse d fuel h rounds next
    some (r :: rest)

/-- From a node on, the loop visits the nodes that are left, in order. -/
theorem traverse_spec (before : List α) {rest : List α} {rounds : ℕ} (hr : Represents h t)
    (hfuel : t.height ≤ fuel) (hlist : t.listFrom d = before ++ rest)
    (hrounds : rest.length ≤ rounds) :
    traverse d fuel h rounds rest.head? = some rest := by
  induction rest generalizing before rounds with
  | nil => cases rounds <;> rfl
  | cons x rest ih =>
    cases rounds with
    | zero => exact absurd hrounds (by simp)
    | succ rounds =>
      rw [List.length_cons] at hrounds
      have hrest := ih (before ++ [x]) (by simpa using hlist) (Nat.le_of_succ_le_succ hrounds)
      simp only [List.head?_cons, traverse, hr.neighbour_eq hfuel hlist, Option.bind_eq_bind,
        Option.bind_some, hrest]

/-- The four functions and the order of the nodes. -/
theorem rb_walk_spec (hr : Represents h t) (hfuel : t.height ≤ fuel) :
    rbFirst fuel h = some t.toList.head? ∧ rbLast fuel h = some t.toList.getLast? ∧
      ∀ before x after, t.toList = before ++ x :: after →
        rbNext fuel h x = some after.head? ∧ rbPrev fuel h x = some before.getLast? := by
  refine ⟨hr.extreme hfuel, ?_, fun before x after hlist => ⟨hr.neighbour_eq hfuel hlist, ?_⟩⟩
  · rw [rbLast, hr.extreme hfuel, listFrom, List.head?_reverse]
  · have hrev : t.listFrom .right = after.reverse ++ x :: before.reverse := by
      rw [listFrom, hlist]
      simp
    rw [rbPrev, hr.neighbour_eq hfuel hrev, List.head?_reverse]

end Mcelog.Rbtree
