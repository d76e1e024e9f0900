import Mcelog.Rbtree.Shape

/-!
# Rebalancing after an insertion

`rb_insert_color` is called with a red node that has just been linked. Its loop
keeps a tree that is red-black up to one pair of red nodes, the node and its
parent, and moves that pair two levels up or removes it by rotations.

* `Represents.insertRotate`: the rotations remove the pair.
* `Represents.insertLoop`: the loop, by induction over the levels above the node.
* `rb_insert_color_spec`: from a link on, the call ends in a red-black tree with the
  same nodes in the same order, after no more rounds than the tree has levels.
-/

namespace Mcelog.Rbtree

open Mcelog.Common RbTree

variable {α : Type*} {h : RbHeap α} {fs : List (Frame α)} {f : Frame α} {t u s : RbTree α}
  {x p g : α} {d e : Side} {n : ℕ}

/-- The node in a hole is not the sibling of the hole. -/
theorem Represents.sibling_ne (hr : Represents h (plug (f :: fs) t)) (hx : t.top = some x) :
    f.sibling.top ≠ some x := by
  obtain ⟨-, -, hnodup⟩ := represents_plug_iff.mp hr
  refine top_ne fun hs => ?_
  exact (List.nodup_append.mp hnodup).2.2 x
    (List.mem_cons_of_mem _ (List.mem_append_left _ hs)) x (mem_of_top hx) rfl

/-- The fields of the node above a hole. -/
theorem Represents.parent_eq (hr : Represents h (plug (f :: fs) t)) :
    h.node f.value = .of f.side t.top f.sibling.top (parentOf fs) f.color :=
  (represents_plug_iff.mp hr).1.1

/-- `parent == gparent->rb_left` tells the side. -/
theorem Represents.side_eq [DecidableEq α] (hr : Represents h (plug (f :: fs) t))
    (hne : f.sibling.top ≠ t.top) :
    (if (h.node f.value).rbLeft = t.top then Side.left else Side.right) = f.side := by
  rw [hr.parent_eq]
  cases f.side with
  | left => exact if_pos rfl
  | right => exact if_neg hne

/-- The parent of the node in a hole. -/
theorem Represents.parent_of_top (hr : Represents h (plug fs t)) (hx : t.top = some x) :
    (h.node x).parent = parentOf fs ∧ (h.node x).color = t.color := by
  obtain ⟨c, a, b, rfl⟩ := exists_branch .left hx
  rw [hr.node_eq, RbNode.parent_of, RbNode.color_of, color_branch]
  exact ⟨rfl, rfl⟩

/-- The test for a black node or none reads the colour of the tree there. -/
theorem Represents.blackOrNull_top (hr : Represents h (plug fs t)) :
    h.blackOrNull t.top = decide (t.color = .black) := by
  cases t with
  | leaf => rfl
  | node c l y r =>
    show decide ((h.node y).color = .black) = _
    rw [(hr.parent_of_top rfl).2]

variable [DecidableEq α]

/-- With the red pair on side `d` of the grandparent, both nodes on that side, the
    last rotation puts the parent on top. -/
theorem Represents.insertLast {y : α} (hr : Represents h (plug fs
      (branch d .black (branch d .red t y s) g u))) :
    ∃ h', Rbtree.rotate d.other ((h.setColor y .black).setColor g .red) g = some h' ∧
      Represents h' (plug fs (branch d .black t y (branch d .red s g u))) := by
  have hy : Represents h (plug (⟨d, .black, g, u⟩ :: fs) (branch d .red t y s)) := hr
  have h₁ : Represents (h.setColor y .black)
      (plug fs (branch d .black (branch d .black t y s) g u)) := hy.setColor .black
  exact (h₁.setColor .red).rotate_other

/-- The rotations remove the red pair; the tree below the grandparent's place keeps
    its nodes in order. -/
theorem Represents.insertRotate
    (hr : Represents h (plug fs (branch d .black (branch e .red t p s) g u)))
    (ht : t.Valid n) (hc : t.color = .red) (hx : t.top = some x) (hs : s.Valid n)
    (hsc : s.color = .black) :
    ∃ h' z t₁ y s₁, Rbtree.insertRotate d h x p g = some (h', z) ∧
      Represents h' (plug fs (branch d .black t₁ y (branch d .red s₁ g u))) ∧
      (branch d .black t₁ y (branch d .red s₁ g u)).toList =
        (branch d .black (branch e .red t p s) g u).toList ∧
      t₁.Valid n ∧ t₁.top = some z ∧ s₁.Valid n ∧ s₁.color = .black := by
  rcases Side.eq_or_eq_other d e with rfl | rfl
  · -- the node is on the outer side already
    have hchild : (h.node p).child e.other ≠ some x := by
      have hr' : Represents h (plug (⟨e, .red, p, s⟩ :: ⟨e, .black, g, u⟩ :: fs) t) := hr
      rw [hr'.parent_eq, RbNode.child_other_of]
      exact hr'.sibling_ne hx
    obtain ⟨h', hrun, hr'⟩ := hr.insertLast
    refine ⟨h', x, t, p, s, ?_, hr', (toList_rotate ..).symm, ht, hx, hs, hsc⟩
    unfold Rbtree.insertRotate
    rw [if_neg hchild]
    simp only [Option.bind_eq_bind, Option.bind_some, hrun]
  · -- the parent is rotated below the node first
    obtain ⟨a, y, b, rfl, ha, hb, hva, hvb⟩ := ht.exists_branch_red d hc
    obtain rfl := Option.some.inj ((top_branch ..).symm.trans hx)
    rw [branch_other] at hr ⊢
    have hr' : Represents h
        (plug (⟨d, .black, g, u⟩ :: fs) (branch d .red s p (branch d .red a y b))) := hr
    have hchild : (h.node p).child d.other = some y := by
      rw [hr'.node_eq, RbNode.child_other_of, top_branch]
    obtain ⟨h₁, hrun₁, hr₁⟩ := hr'.rotate
    have hg : Represents h₁ (plug fs (branch d .black
        (branch d .red (branch d .red s p a) y b) g u)) := hr₁
    obtain ⟨h₂, hrun₂, hr₂⟩ := hg.insertLast
    refine ⟨h₂, p, branch d .red s p a, y, b, ?_, hr₂, ?_, ?_, top_branch .., hvb, hb⟩
    · unfold Rbtree.insertRotate
      rw [if_pos hchild]
      simp only [Option.bind_eq_bind, Option.bind_some, hrun₁, hrun₂]
    · rw [← toList_rotate d .black _ b y .red .black .red u g]
      exact toList_branch_congr _ _ _ _ _ _ (toList_rotate ..) rfl
    · exact valid_branch_red.mpr ⟨hsc, ha, hs, hva⟩

section Step

variable {fuel : ℕ} (hparent : (h.node x).parent = some p) (hred : (h.node p).color = .red)
  (hgparent : (h.node p).parent = some g)
  (hside : (if (h.node g).rbLeft = some p then Side.left else Side.right) = d)
include hparent hred hgparent hside

/-- With a red uncle the loop paints three nodes and goes on with the grandparent. -/
theorem insertLoop_of_red_uncle {y : α} (huncle : (h.node g).child d.other = some y)
    (hy : (h.node y).color = .red) : insertLoop (fuel + 1) h x =
      insertLoop fuel (((h.setColor y .black).setColor p .black).setColor g .red) g := by
  rw [insertLoop, hparent]
  dsimp only
  rw [if_pos hred, hgparent]
  simp only [Option.bind_eq_bind, Option.bind_some, hside, huncle]
  rw [if_pos hy]

/-- With a black uncle, or none, the loop rotates. -/
theorem insertLoop_of_black_uncle (huncle : h.blackOrNull ((h.node g).child d.other) = true) :
    insertLoop (fuel + 1) h x =
      (insertRotate d h x p g).bind fun r => insertLoop fuel r.1 r.2 := by
  rw [insertLoop, hparent]
  dsimp only
  rw [if_pos hred, hgparent]
  simp only [Option.bind_eq_bind, Option.bind_some, hside]
  cases hu : (h.node g).child d.other with
  | none => rfl
  | some y =>
    rw [hu, RbHeap.blackOrNull, decide_eq_true_eq] at huncle
    dsimp only
    rw [if_neg (by rw [huncle]; exact fun heq => nomatch heq)]

omit hred hgparent hside in
/-- Below a black node there is nothing to do. -/
theorem insertLoop_of_black_parent (hblack : (h.node p).color = .black) :
    insertLoop (fuel + 1) h x = some h := by
  rw [insertLoop, hparent]
  dsimp only
  rw [if_neg (by rw [hblack]; exact fun heq => nomatch heq)]

end Step

/-- The loop of `rb_insert_color` ends in a tree that is red-black once its root is
    painted black, with the same nodes in the same order. -/
theorem Represents.insertLoop {fuel : ℕ} (hfuel : fs.length < fuel)
    (hr : Represents h (plug fs t)) (hp : PathValid fs n) (ht : t.Valid n) (hc : t.color = .red)
    (hx : t.top = some x) :
    ∃ h' t', Rbtree.insertLoop fuel h x = some h' ∧ Represents h' t' ∧
      t'.toList = (plug fs t).toList ∧ t'.blacken.IsRB := by
  induction fuel generalizing h fs t x n with
  | zero => omega
  | succ fuel ih =>
    have hparent := (hr.parent_of_top hx).1
    match fs with
    | [] =>
      refine ⟨h, t, ?_, hr, rfl, ht.isRB_blacken⟩
      rw [Rbtree.insertLoop, hparent]
      rfl
    | ⟨e, .black, p, s⟩ :: fs =>
      have hrb := plug_isRB_iff.mpr ⟨n, hp, ht, fun _ => rfl⟩
      refine ⟨h, _, insertLoop_of_black_parent hparent (by rw [hr.parent_eq, RbNode.color_of]),
        hr, rfl, ?_⟩
      rw [blacken_of_black hrb.1]
      exact hrb
    | ⟨e, .red, p, s⟩ :: fs =>
      obtain ⟨hs, hsc, hallow, hp⟩ := hp
      -- a red node is not the root, and its parent is black
      match fs with
      | [] => exact absurd hallow id
      | ⟨d, cg, g, u⟩ :: fs =>
        obtain rfl : cg = .black := hallow
        obtain ⟨hu, hp⟩ := hp
        have hpn := hr.parent_eq
        have hr₁ : Represents h (plug (⟨d, .black, g, u⟩ :: fs) (branch e .red t p s)) := hr
        have hgn := hr₁.parent_eq
        have hside := hr₁.side_eq (by rw [top_branch]; exact hr₁.sibling_ne (top_branch ..))
        rw [top_branch] at hside hgn
        have hred : (h.node p).color = .red := by rw [hpn, RbNode.color_of]
        have hgparent : (h.node p).parent = some g := by rw [hpn, RbNode.parent_of, parentOf]
        have huncle : (h.node g).child d.other = u.top := by rw [hgn, RbNode.child_other_of]
        have hlen : fs.length < fuel := by
          simp only [List.length_cons] at hfuel
          omega
        cases huc : u.color with
        | red =>
          obtain ⟨a, y, b, rfl, ha, hb, hva, hvb⟩ := hu.exists_branch_red d huc
          rw [top_branch] at huncle
          have hr₂ : Represents h (plug (⟨d.other, .black, g, branch e .red t p s⟩ :: fs)
              (branch d .red a y b)) := by
            rw [← plug_far]
            exact hr
          have hy : (h.node y).color = .red := by rw [hr₂.node_eq, RbNode.color_of]
          have hr₃ := hr₂.setColor .black
          rw [← plug_far] at hr₃
          have hpar : Represents _ (plug (⟨d, .black, g, branch d .black a y b⟩ :: fs)
              (branch e .red t p s)) := hr₃
          have hr₄ : Represents _ (plug fs (branch d .black (branch e .black t p s) g
              (branch d .black a y b))) := hpar.setColor .black
          obtain ⟨h', t', hrun, hr', hlist, hrb⟩ := ih hlen (hr₄.setColor .red) hp
            (valid_branch_red.mpr ⟨color_branch .., color_branch ..,
              valid_branch_black.mpr ⟨ht, hs⟩, valid_branch_black.mpr ⟨hva, hvb⟩⟩)
            (color_branch ..) (top_branch ..)
          refine ⟨h', t', ?_, hr', ?_, hrb⟩
          · rw [insertLoop_of_red_uncle hparent hred hgparent hside huncle hy, hrun]
          · rw [hlist]
            exact toList_plug_congr fs (toList_branch_congr _ _ _ _ _ _
              (toList_branch_congr _ _ _ _ _ _ rfl rfl) (toList_branch_congr _ _ _ _ _ _ rfl rfl))
        | black =>
          have hrot : Represents h (plug fs (branch d .black (branch e .red t p s) g u)) := hr
          obtain ⟨h', z, t₁, y, s₁, hrun, hr', hlist, ht₁, hz, hs₁, hsc₁⟩ :=
            hrot.insertRotate ht hc hx hs hsc
          have hnull : h.blackOrNull ((h.node g).child d.other) = true := by
            have hr₂ : Represents h (plug (⟨d.other, .black, g, branch e .red t p s⟩ :: fs) u) := by
              rw [← plug_far]
              exact hr
            rw [huncle, hr₂.blackOrNull_top, huc]
            rfl
          have hr₃ : Represents h' (plug (⟨d, .black, y, branch d .red s₁ g u⟩ :: fs) t₁) := hr'
          have hrb : (plug fs (branch d .black t₁ y (branch d .red s₁ g u))).IsRB :=
            plug_isRB_of_black hp (valid_branch_black.mpr ⟨ht₁,
              valid_branch_red.mpr ⟨hsc₁, huc, hs₁, hu⟩⟩) (color_branch ..)
          refine ⟨h', _, ?_, hr', toList_plug_congr fs hlist, ?_⟩
          · rw [insertLoop_of_black_uncle hparent hred hgparent hside hnull, hrun]
            obtain ⟨m, rfl⟩ := Nat.exists_eq_add_of_lt hlen
            exact insertLoop_of_black_parent (hr₃.parent_of_top hz).1
              (by rw [hr₃.parent_eq, RbNode.color_of])
          · rw [blacken_of_black hrb.1]
            exact hrb

/-- The place of a new node and the tree around it: after `rb_link_node` with a node
    that is not in the tree, `rb_insert_color` ends in a red-black tree with the nodes
    in the order of the linked one. The fuel is the number of levels above the node
    and one round more. -/
theorem Represents.insertColor {fuel : ℕ} (hfuel : fs.length < fuel)
    (hr : Represents h (plug fs leaf)) (hrb : (plug fs (leaf : RbTree α)).IsRB)
    (hx : x ∉ pathNodes fs) :
    ∃ h' t', rbInsertColor fuel (rbLinkNode h x (linkOf fs)) x = some h' ∧ Represents h' t' ∧
      t'.toList = (plug fs (branch .left .red leaf x leaf)).toList ∧ t'.IsRB := by
  obtain ⟨n, hp, hn, -⟩ := plug_isRB_iff.mp hrb
  obtain ⟨h', t', hrun, hr', hlist, hb⟩ := (hr.linkNode (d := .left) hx).insertLoop hfuel hp
    (valid_branch_red.mpr ⟨rfl, rfl, hn, hn⟩) (color_branch ..) (top_branch ..)
  cases t' with
  | leaf =>
    have hmem : x ∈ (plug fs (branch .left .red leaf x leaf)).toList :=
      (toList_plug_perm fs _).mem_iff.mpr (List.mem_append_right _ (mem_of_top (top_branch ..)))
    rw [← hlist] at hmem
    exact absurd hmem List.not_mem_nil
  | node c l y r =>
    refine ⟨h'.setColor y .black, node .black l y r, ?_, ?_, hlist, hb⟩
    · rw [rbInsertColor, hrun]
      simp only [Option.bind_eq_bind, Option.bind_some, hr'.root, top]
    · have hroot : Represents h' (plug [] (branch .left c l y r)) := hr'
      exact hroot.setColor .black

end Mcelog.Rbtree
