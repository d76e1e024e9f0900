import Mcelog.Rbtree.Insert

/-!
# Rebalancing after a deletion

`__rb_erase_color` is called with a place whose tree is one black node short. Its
loop rotates a red sibling away, and then either moves the shortage one level up
or removes it by one or two rotations.

* `Represents.blackSibling`: the sibling becomes black.
* `Represents.eraseRotate`: with a red node below the sibling the shortage is removed.
* `Represents.eraseColor`: the call, by induction over the levels above the place.
-/

namespace Mcelog.Rbtree

open Mcelog.Common RbTree

variable {α : Type*} {h : RbHeap α} {fs : List (Frame α)} {f : Frame α} {t u s a b : RbTree α}
  {x y p : α} {d : Side} {c : Color} {n : ℕ}

/-- The root is not in a hole below it. -/
theorem Represents.root_ne (hr : Represents h (plug (f :: fs) t)) : t.top ≠ h.rbNode := by
  have htop : ∀ (fs : List (Frame α)) (f : Frame α) (t : RbTree α),
      ∃ z ∈ pathNodes (f :: fs), (plug (f :: fs) t).top = some z := by
    intro fs
    induction fs with
    | nil => exact fun f t => ⟨f.value, List.mem_cons_self, top_branch ..⟩
    | cons g fs ih =>
      intro f t
      obtain ⟨z, hz, heq⟩ := ih g (f.fill t)
      exact ⟨z, List.mem_cons_of_mem _ (List.mem_append_right _ hz), heq⟩
  obtain ⟨z, hz, heq⟩ := htop fs f t
  obtain ⟨-, -, hnodup⟩ := represents_plug_iff.mp hr
  intro ht
  rw [hr.root, heq] at ht
  exact (List.nodup_append.mp hnodup).2.2 z hz z (mem_of_top ht) rfl

variable [DecidableEq α]

/-! ## The parts of the loop -/

/-- `if (node) rb_set_black(node)` -/
def paintBlack (h : RbHeap α) (node : Option α) : RbHeap α :=
  match node with
  | none => h
  | some x => h.setColor x .black

theorem Represents.paintBlack (hr : Represents h (plug fs t)) :
    Represents (Rbtree.paintBlack h t.top) (plug fs t.blacken) := by
  cases t with
  | leaf => exact hr
  | node c l x r => exact Represents.setColor (d := .left) hr .black

section Step

variable {fuel : ℕ} {node : Option α}

/-- At the root or at a red node the loop ends. -/
theorem rbEraseColor_exit {parent : Option α}
    (hexit : ¬ (h.blackOrNull node = true ∧ node ≠ h.rbNode)) :
    rbEraseColor (fuel + 1) h node parent = some (paintBlack h node) := by
  rw [rbEraseColor, eraseLoop, if_neg hexit]
  cases node <;> rfl

variable {h₁ : RbHeap α} (hloop : h.blackOrNull node = true ∧ node ≠ h.rbNode)
  (hside : (if (h.node p).rbLeft = node then Side.left else Side.right) = d)
  (hsib : blackSibling d h p = some (h₁, y))
include hloop hside hsib

/-- A sibling without a red child is painted red and the loop goes on one level up. -/
theorem rbEraseColor_up
    (hblack : h₁.blackOrNull (h₁.node y).rbLeft && h₁.blackOrNull (h₁.node y).rbRight) :
    rbEraseColor (fuel + 1) h node (some p) =
      rbEraseColor fuel (h₁.setColor y .red) (some p) ((h₁.setColor y .red).node p).parent := by
  rw [rbEraseColor, rbEraseColor, eraseLoop, if_pos hloop]
  simp only [Option.bind_eq_bind, Option.bind_some, hside, hsib]
  rw [if_pos hblack]

/-- With a red node below the sibling the loop ends after the rotations. -/
theorem rbEraseColor_last {h₂ : RbHeap α}
    (hred : ¬ (h₁.blackOrNull (h₁.node y).rbLeft && h₁.blackOrNull (h₁.node y).rbRight))
    (hrot : eraseRotate d h₁ p y = some h₂) :
    rbEraseColor (fuel + 1) h node (some p) = some (paintBlack h₂ h₂.rbNode) := by
  rw [rbEraseColor, eraseLoop, if_pos hloop]
  simp only [Option.bind_eq_bind, Option.bind_some, hside, hsib]
  rw [if_neg hred]
  simp only [hrot, Option.bind_some]
  cases h₂.rbNode <;> rfl

end Step

/-- After the first rotation the sibling is black, of the black height that the
    place lacks; the path above stays or has gained the former sibling. -/
theorem Represents.blackSibling (hr : Represents h (plug fs (branch d c t p s)))
    (hp : PathValid (⟨d, c, p, s⟩ :: fs) (n + 1)) :
    ∃ h' fs' c' s' y, Rbtree.blackSibling d h p = some (h', y) ∧
      Represents h' (plug fs' (branch d c' t p s')) ∧
      (plug fs' (branch d c' t p s')).toList = (plug fs (branch d c t p s)).toList ∧
      s'.top = some y ∧ s'.color = .black ∧ PathValid (⟨d, c', p, s'⟩ :: fs') (n + 1) ∧
      (c' = .black → fs' = fs) ∧ fs'.length ≤ fs.length + 1 := by
  have hs : s.Valid (n + 1) := hp.1
  have hchild : (h.node p).child d.other = s.top := by rw [hr.node_eq, RbNode.child_other_of]
  cases hsc : s.color with
  | black =>
    obtain ⟨a, y, b, rfl, -, -⟩ := hs.exists_branch_black d hsc
    rw [plug_far] at hr
    have hy : ¬ (h.node y).color = .red := by
      rw [hr.node_eq, RbNode.color_of]
      exact fun heq => nomatch heq
    rw [← plug_far] at hr
    refine ⟨h, fs, c, _, y, ?_, hr, rfl, top_branch .., hsc, hp, fun _ => rfl, Nat.le_succ _⟩
    rw [Rbtree.blackSibling, hchild, top_branch]
    simp only [Option.bind_eq_bind, Option.bind_some]
    rw [if_neg hy]
  | red =>
    obtain ⟨a, y, b, rfl, hac, hbc, ha, hb⟩ := hs.exists_branch_red d hsc
    -- the parent of a red node is black
    obtain ⟨rfl, hpath⟩ : c = .black ∧ PathValid fs (n + 2) := by
      cases c with
      | red => exact absurd (hp.2.1.symm.trans (color_branch ..)) (by decide)
      | black => exact ⟨rfl, hp.2⟩
    rw [plug_far] at hr
    have hy : (h.node y).color = .red := by rw [hr.node_eq, RbNode.color_of]
    have hr₁ := hr.setColor .black
    rw [← plug_far] at hr₁
    have hr₂ := hr₁.setColor .red
    obtain ⟨h', hrun, hr'⟩ := hr₂.rotate
    have hr'' : Represents h' (plug (⟨d, .black, y, b⟩ :: fs) (branch d .red t p a)) := hr'
    obtain ⟨a₁, z, a₂, rfl, -, -⟩ := ha.exists_branch_black d hac
    refine ⟨h', ⟨d, .black, y, b⟩ :: fs, .red, branch d .black a₁ z a₂, z, ?_, hr'', ?_,
      top_branch .., color_branch .., ⟨ha, color_branch .., rfl, hb, hpath⟩,
      fun heq => absurd heq (by decide), le_rfl⟩
    · rw [Rbtree.blackSibling, hchild, top_branch]
      simp only [Option.bind_eq_bind, Option.bind_some]
      rw [if_pos hy]
      simp only [hrun, Option.bind_some, hr''.node_eq, RbNode.child_other_of, top_branch]
    · exact toList_plug_congr fs (toList_rotate ..)

/-- With the far child of the sibling red the rotation puts the sibling on top. -/
theorem Represents.eraseLast (hr : Represents h (plug fs
      (branch d c t p (branch d .black a y b)))) {w : α} (hb : b.top = some w) :
    ∃ h', Rbtree.rotate d (((h.setColor y c).setColor p .black).setColor w .black) p = some h' ∧
      Represents h' (plug fs (branch d c (branch d .black t p a) y b.blacken)) := by
  rw [plug_far] at hr
  have hr₁ := hr.setColor c
  rw [← plug_far] at hr₁
  have hr₂ := hr₁.setColor .black
  rw [plug_far, plug_far] at hr₂
  have hr₃ := hr₂.paintBlack
  rw [hb, ← plug_far, ← plug_far] at hr₃
  exact hr₃.rotate

@[simp] theorem setColor_child (h : RbHeap α) (x z : α) (c : Color) (d : Side) :
    ((h.setColor x c).node z).child d = (h.node z).child d := by
  rcases eq_or_ne z x with rfl | hne
  · rw [RbHeap.setColor, modify_node_self]
    cases d <;> rfl
  · rw [RbHeap.setColor, modify_node_of_ne _ _ _ hne]

/-- A red far child takes part in the last rotation as it is. -/
theorem eraseRotate_of_red_far {w : α} (hw : (h.node y).child d.other = some w)
    (hred : h.blackOrNull (some w) = false) : eraseRotate d h p y =
      rotate d (((h.setColor y (h.node p).color).setColor p .black).setColor w .black) p := by
  unfold eraseRotate
  rw [if_neg (by rw [hw, hred]; exact Bool.false_ne_true)]
  simp only [Option.bind_eq_bind, Option.bind_some, setColor_child, hw]

/-- With a black far child the near one is rotated up first. -/
theorem eraseRotate_of_black_far {z w : α} {h₁ : RbHeap α}
    (hblack : h.blackOrNull ((h.node y).child d.other) = true)
    (hz : (h.node y).child d = some z)
    (hrun : rotate d.other ((h.setColor z .black).setColor y .red) y = some h₁)
    (hother : (h₁.node p).child d.other = some z) (hw : (h₁.node z).child d.other = some w) :
    eraseRotate d h p y =
      rotate d (((h₁.setColor z (h₁.node p).color).setColor p .black).setColor w .black) p := by
  unfold eraseRotate
  rw [if_pos hblack]
  simp only [Option.bind_eq_bind, Option.bind_some, hz, hrun, hother, setColor_child, hw]

/-- The rotations add the black node that the place lacks. -/
theorem Represents.eraseRotate
    (hr : Represents h (plug fs (branch d c t p (branch d .black a y b))))
    (ha : a.Valid n) (hb : b.Valid n) (hred : ¬ (a.color = .black ∧ b.color = .black)) :
    ∃ h' a' z b', Rbtree.eraseRotate d h p y = some h' ∧
      Represents h' (plug fs (branch d c (branch d .black t p a') z b')) ∧
      (branch d c (branch d .black t p a') z b').toList =
        (branch d c t p (branch d .black a y b)).toList ∧
      a'.Valid n ∧ b'.Valid (n + 1) ∧ b'.color = .black := by
  have hpc : ∀ {h : RbHeap α} {s}, Represents h (plug fs (branch d c t p s)) →
      (h.node p).color = c := fun hr => by rw [hr.node_eq, RbNode.color_of]
  have hr' := hr
  rw [plug_far] at hr'
  have hfar : (h.node y).child d.other = b.top := by rw [hr'.node_eq, RbNode.child_other_of]
  have hnear : (h.node y).child d = a.top := by rw [hr'.node_eq, RbNode.child_of]
  have hfarc : h.blackOrNull b.top = decide (b.color = .black) := by
    rw [plug_far] at hr'
    exact hr'.blackOrNull_top
  cases hbc : b.color with
  | red =>
    obtain ⟨b₁, w, b₂, rfl, h1, h2, hb₁, hb₂⟩ := hb.exists_branch_red d hbc
    rw [hbc, top_branch] at hfarc
    rw [top_branch] at hfar
    obtain ⟨h', hrun, hr₁⟩ := hr.eraseLast (top_branch ..)
    rw [blacken_branch] at hr₁
    refine ⟨h', a, y, _, ?_, hr₁, ?_, ha, valid_branch_black.mpr ⟨hb₁, hb₂⟩, color_branch ..⟩
    · rw [eraseRotate_of_red_far hfar hfarc, hpc hr, hrun]
    · rw [toList_rotate d c t a p .black c .black _ y]
      exact toList_branch_congr _ _ _ _ _ _ rfl (toList_branch_congr _ _ _ _ _ _ rfl
        (toList_branch_congr _ _ _ _ _ _ rfl rfl))
  | black =>
    have hac : a.color = .red := by
      cases hac : a.color with
      | red => rfl
      | black => exact absurd ⟨hac, hbc⟩ hred
    obtain ⟨a₁, z, a₂, rfl, h1, h2, ha₁, ha₂⟩ := ha.exists_branch_red d hac
    rw [top_branch] at hnear
    have hz₀ : Represents h (plug (⟨d, .black, y, b⟩ :: ⟨d.other, c, p, t⟩ :: fs)
        (branch d .red a₁ z a₂)) := hr'
    have hr₁ : Represents (h.setColor z .black) (plug (⟨d.other, c, p, t⟩ :: fs)
        (branch d .black (branch d .black a₁ z a₂) y b)) := hz₀.setColor .black
    obtain ⟨h₁, hrun₁, hr₂⟩ := (hr₁.setColor .red).rotate_other
    have hz : (h₁.node z).child d.other = some y := by
      rw [hr₂.node_eq, RbNode.child_other_of, top_branch]
    rw [← plug_far] at hr₂
    have hother : (h₁.node p).child d.other = some z := by
      rw [hr₂.node_eq, RbNode.child_other_of, top_branch]
    obtain ⟨h', hrun, hr₃⟩ := hr₂.eraseLast (top_branch ..)
    rw [blacken_branch] at hr₃
    refine ⟨h', a₁, z, _, ?_, hr₃, ?_, ha₁, valid_branch_black.mpr ⟨ha₂, hb⟩, color_branch ..⟩
    · rw [eraseRotate_of_black_far (by rw [hfar, hfarc, hbc]; rfl) hnear hrun₁ hother hz, hpc hr₂,
        hrun]
    · rw [toList_rotate d c t a₁ p .black c .black _ z]
      exact toList_branch_congr _ _ _ _ _ _ rfl (toList_rotate d .black a₁ a₂ z .black .black .red
        b y).symm

/-! ## The call -/

/-- A red node is painted black at once. -/
theorem Represents.eraseColor_red (fuel : ℕ) (parent : Option α) (hr : Represents h (plug fs t))
    (hc : t.color = .red) (hp : PathValid fs n) (ht : t.blacken.Valid n) :
    ∃ h', rbEraseColor (fuel + 1) h t.top parent = some h' ∧
      Represents h' (plug fs t.blacken) ∧ (plug fs t.blacken).IsRB := by
  refine ⟨_, rbEraseColor_exit ?_, hr.paintBlack, plug_isRB_of_black hp ht (color_blacken t)⟩
  rw [hr.blackOrNull_top, hc]
  exact fun hloop => absurd hloop.1 (by decide)

omit [DecidableEq α] in
/-- The test of both children does not depend on the side. -/
theorem blackOrNull_children (h : RbHeap α) (d : Side) (p q r : Option α) (c : Color) :
    (h.blackOrNull (RbNode.of d p q r c).rbLeft && h.blackOrNull (RbNode.of d p q r c).rbRight) =
      (h.blackOrNull p && h.blackOrNull q) := by
  cases d with
  | left => rfl
  | right => exact Bool.and_comm _ _

/-- A place that is one black node short is filled up: `__rb_erase_color` ends in a
    red-black tree with the same nodes in the same order. The fuel is the number of
    levels above the place and two rounds more. -/
theorem Represents.eraseColor {fuel : ℕ} (hfuel : fs.length + 2 ≤ fuel)
    (hr : Represents h (plug fs t)) (hp : PathValid fs (n + 1))
    (ht : t.Valid n) (hc : t.color = .black) :
    ∃ h' t', rbEraseColor fuel h t.top (parentOf fs) = some h' ∧ Represents h' t' ∧
      t'.toList = (plug fs t).toList ∧ t'.IsRB := by
  induction fuel generalizing h fs t n with
  | zero => omega
  | succ fuel ih =>
    match fs with
    | [] =>
      have hpaint := hr.paintBlack
      rw [blacken_of_black hc] at hpaint
      exact ⟨_, t, rbEraseColor_exit fun hloop => hloop.2 hr.root.symm, hpaint, rfl, hc, n, ht⟩
    | ⟨d, c, p, s⟩ :: fs =>
      rw [List.length_cons] at hfuel
      have hloop : h.blackOrNull t.top = true ∧ t.top ≠ h.rbNode :=
        ⟨by rw [hr.blackOrNull_top, hc]; rfl, hr.root_ne⟩
      have hside : (if (h.node p).rbLeft = t.top then Side.left else Side.right) = d :=
        hr.side_eq (by
          cases htop : t.top with
          | some z => exact hr.sibling_ne htop
          | none =>
            intro hs
            have hv := hp.1
            rw [top_eq_none_iff.mp hs] at hv
            cases hv)
      have hrp : Represents h (plug fs (branch d c t p s)) := hr
      obtain ⟨h₁, fs', c', s', y, hsib, hr₁, hlist, hy, hsc, hp', hsame, -⟩ :=
        hrp.blackSibling hp
      obtain ⟨a, y', b, rfl, ha, hb⟩ := hp'.1.exists_branch_black d hsc
      obtain rfl := Option.some.inj ((top_branch ..).symm.trans hy)
      have hr₂ := hr₁
      rw [plug_far] at hr₂
      have hchildren : (h₁.blackOrNull (h₁.node y').rbLeft && h₁.blackOrNull (h₁.node y').rbRight) =
          (decide (a.color = .black) && decide (b.color = .black)) := by
        have hra : Represents h₁ (plug (⟨d, .black, y', b⟩ :: ⟨d.other, c', p, t⟩ :: fs') a) := hr₂
        have hrb := hr₂
        rw [plug_far] at hrb
        rw [hr₂.node_eq, blackOrNull_children, hra.blackOrNull_top, hrb.blackOrNull_top]
      by_cases hab : a.color = .black ∧ b.color = .black
      · -- the shortage moves one level up, or a red parent takes it
        have hr₃ := hr₂.setColor .red
        rw [← plug_far] at hr₃
        have hp₃ : ((h₁.setColor y' .red).node p).parent = parentOf fs' := by
          rw [hr₃.node_eq, RbNode.parent_of]
        have hred : (branch d .red a y' b).Valid n := valid_branch_red.mpr ⟨hab.1, hab.2, ha, hb⟩
        have hlist₃ : (plug fs' (branch d c' t p (branch d .red a y' b))).toList =
            (plug fs (branch d c t p s)).toList := by
          rw [← hlist]
          exact toList_plug_congr _ (toList_branch_congr _ _ _ _ _ _ rfl
            (toList_branch_congr _ _ _ _ _ _ rfl rfl))
        have hup : rbEraseColor (fuel + 1) h t.top (some p) =
            rbEraseColor fuel (h₁.setColor y' .red) (some p) (parentOf fs') := by
          rw [rbEraseColor_up hloop hside hsib (by rw [hchildren, hab.1, hab.2]; rfl), hp₃]
        rw [parentOf, hup, ← top_branch d c' t (branch d .red a y' b) p]
        cases c' with
        | red =>
          obtain ⟨fuel, rfl⟩ : ∃ m, fuel = m + 1 := ⟨fuel - 1, by omega⟩
          obtain ⟨h', hrun, hr', hrb⟩ := hr₃.eraseColor_red fuel (parentOf fs')
            (color_branch ..) hp'.2.2.2
            (by rw [blacken_branch]; exact valid_branch_black.mpr ⟨ht, hred⟩)
          refine ⟨h', _, hrun, hr', hlist₃ ▸ ?_, hrb⟩
          exact toList_plug_congr _ (toList_blacken _)
        | black =>
          obtain rfl := hsame rfl
          obtain ⟨h', t', hrun, hr', hl, hrb⟩ := ih (by omega) hr₃ hp'.2
            (valid_branch_black.mpr ⟨ht, hred⟩) (color_branch ..)
          exact ⟨h', t', hrun, hr', hl.trans hlist₃, hrb⟩
      · obtain ⟨h₂, a', z, b', hrun, hr₃, hl, ha', hb', hbc⟩ := hr₁.eraseRotate ha hb hab
        have hrb : (plug fs' (branch d c' (branch d .black t p a') z b')).IsRB := by
          have hva : (branch d .black t p a').Valid (n + 1) := valid_branch_black.mpr ⟨ht, ha'⟩
          cases c' with
          | red =>
            exact plug_isRB_iff.mpr ⟨n + 1, hp'.2.2.2,
              valid_branch_red.mpr ⟨color_branch .., hbc, hva, hb'⟩, fun _ => hp'.2.2.1⟩
          | black =>
            exact plug_isRB_of_black hp'.2 (valid_branch_black.mpr ⟨hva, hb'⟩) (color_branch ..)
        have hroot : Represents h₂ (plug []
            (plug fs' (branch d c' (branch d .black t p a') z b'))) := hr₃
        have hpaint := hroot.paintBlack
        rw [plug, blacken_of_black hrb.1, ← hr₃.root] at hpaint
        refine ⟨_, _, rbEraseColor_last hloop hside hsib ?_ hrun, hpaint, ?_, hrb⟩
        · rw [hchildren, Bool.and_eq_true, decide_eq_true_eq, decide_eq_true_eq]
          exact hab
        · exact (toList_plug_congr _ hl).trans hlist

end Mcelog.Rbtree
