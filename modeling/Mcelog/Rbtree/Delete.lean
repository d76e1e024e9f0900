import Mcelog.Rbtree.Erase
import Mcelog.Rbtree.Walk

/-!
# Deletion

`rb_erase` takes a node out of the tree. A node with two children changes places
with the next node in order, which has no left child; the tree may then be one
black node short at the place that was emptied.

* `Represents.unlinkNext`: the exchange with the next node.
* `rb_erase_spec`: `rb_erase` of a node of a red-black tree ends in a red-black
  tree with the other nodes in order.
-/

namespace Mcelog.Rbtree

open Mcelog.Common RbTree

variable {α : Type*} [DecidableEq α] {h : RbHeap α} {fs gs : List (Frame α)} {l r t : RbTree α}
  {x y z : α} {c cy : Color} {fuel : ℕ}

/-- The pointer to the next node is in the right child of the erased node itself or
    in a left child below it. -/
theorem Represents.link_next {q : α}
    (hr : Represents h (plug (gs ++ ⟨.right, c, x, l⟩ :: fs) (branch .left cy leaf y r)))
    (hgs : ∀ g ∈ gs, g.side = .left)
    (hq : parentOf (gs ++ ⟨.right, c, x, l⟩ :: fs) = some q) :
    ∃ q', parentOf (gs ++ ⟨.right, c, y, l⟩ :: fs) = some q' ∧
      (if q = x then ((h.adopt r.top (some q)).modify q (·.setChild .right r.top), y)
        else ((h.adopt r.top (some q)).modify q (·.setChild .left r.top), q)) =
      ((h.adopt r.top (some q)).relink .left (some q) y r.top, q') := by
  obtain ⟨hpath, -, -, -, hd⟩ := represents_branch_iff.mp hr
  have hadopt : ∀ w ∈ pathNodes (gs ++ ⟨.right, c, x, l⟩ :: fs),
      (h.adopt r.top (some q)).node w = h.node w := fun w hw =>
    adopt_node_of_ne h _ _ (top_ne fun hwr => hd.path_far w hwr hw)
  cases gs with
  | nil =>
    obtain rfl : x = q := Option.some.inj hq
    have hx := (hadopt x List.mem_cons_self).trans hpath.1
    refine ⟨y, rfl, ?_⟩
    rw [if_pos rfl, RbHeap.relink, hx, if_neg]
    · rfl
    · exact top_ne fun hyl =>
        hd.path_top (List.mem_cons_of_mem _ (List.mem_append_left _ hyl))
  | cons g gs =>
    obtain rfl : g.value = q := Option.some.inj hq
    have hside := hgs g List.mem_cons_self
    have hg := (hadopt g.value List.mem_cons_self).trans hpath.1
    have hne : g.value ≠ x := by
      intro heq
      refine (List.nodup_cons.mp hd.path).1 (List.mem_append_right _ ?_)
      rw [heq]
      show x ∈ pathNodes (gs ++ ⟨.right, c, x, l⟩ :: fs)
      rw [pathNodes_append]
      exact List.mem_append_right _ List.mem_cons_self
    refine ⟨g.value, rfl, ?_⟩
    rw [if_neg hne, RbHeap.relink, hg, hside, RbNode.child_of, if_pos rfl]

/-- The assignments that copy the fields of the erased node one by one. -/
theorem copy_fields (h : RbHeap α) (x y : α) :
    (((h.modify y fun n => { n with parent := (h.node x).parent, color := (h.node x).color }).modify
      y fun n => { n with rbRight := (h.node x).rbRight }).modify
      y fun n => { n with rbLeft := (h.node x).rbLeft }) = h.modify y fun _ => h.node x := by
  unfold RbHeap.modify
  simp only [Function.update_self, Function.update_idem]

/-- The next node `y` is unlinked and takes the place of `x`. -/
theorem Represents.unlinkNext {right : α}
    (hr : Represents h (plug fs (node c l x (plug gs (node cy leaf y r)))))
    (hgs : ∀ g ∈ gs, g.side = .left) (hl : l.top = some z)
    (hdesc : Rbtree.descend .left h fuel right = some y) :
    ∃ h', Rbtree.unlinkNext fuel h x right =
        some ⟨h', r.top, parentOf (gs ++ ⟨.right, c, y, l⟩ :: fs), cy⟩ ∧
      Represents h' (plug (gs ++ ⟨.right, c, y, l⟩ :: fs) r) := by
  have hplug : ∀ (v : α) (t : RbTree α),
      plug (gs ++ ⟨.right, c, v, l⟩ :: fs) t = plug fs (node c l v (plug gs t)) := fun v t => by
    rw [plug_append]
    rfl
  rw [← hplug] at hr
  obtain ⟨q, hq⟩ : ∃ q, parentOf (gs ++ ⟨.right, c, x, l⟩ :: fs) = some q := by
    cases gs <;> exact ⟨_, rfl⟩
  obtain ⟨q', hq', hlink⟩ := Represents.link_next hr hgs hq
  obtain ⟨-, hy, -, -, hd⟩ := represents_branch_iff (d := .left).mp hr
  rw [hq] at hy
  -- the next node is unlinked
  obtain ⟨h₁, hunlink, hr₁⟩ := Represents.unlink (d := .right) hr
  have hh₁ : (h.adopt r.top (some q)).relink .left (some q) y r.top = h₁ := by
    have hheap := congrArg Unlinked.heap hunlink
    rw [Rbtree.unlink, hy] at hheap
    exact hheap
  rw [hh₁] at hlink
  have hyt : y ∉ (plug (gs ++ ⟨.right, c, x, l⟩ :: fs) r).toList := by
    rw [(toList_plug_perm _ _).mem_iff, List.mem_append]
    exact fun hmem => hmem.elim hd.path_top hd.top_far
  have hxt : x ∈ (plug (gs ++ ⟨.right, c, x, l⟩ :: fs) r).toList := by
    rw [hplug, (toList_plug_perm _ _).mem_iff]
    exact List.mem_append_right _ (mem_of_top rfl)
  have hxy : x ≠ y := fun heq => hyt (heq ▸ hxt)
  -- it gets the fields of the erased node
  obtain ⟨h₂, hh₂⟩ : ∃ h₂, h₂ = h₁.modify y fun _ => h₁.node x := ⟨_, rfl⟩
  have hr₂ : Represents h₂ (plug fs (node c l x (plug gs r))) := by
    rw [← hplug]
    refine hr₁.frame (hh₂ ▸ rfl) fun w hw => ?_
    rw [hh₂]
    exact modify_node_of_ne h₁ y _ fun heq => hyt (heq ▸ hw)
  rw [hplug] at hyt
  have hx₂ : h₂.node x = .of .left l.top (plug gs r).top (parentOf fs) c :=
    Represents.node_eq (d := .left) hr₂
  obtain ⟨-, -, -, -, hd₂⟩ := represents_branch_iff (d := .left).mp hr₂
  obtain ⟨hrel, hadopt, -⟩ := hr₂.substitute_frame hd₂.path_top hd₂.top_near hd₂.top_far y
  have hyn : y ∉ pathNodes fs ∧ y ∉ l.toList ∧ y ∉ (plug gs r).toList := by
    rw [(toList_plug_perm fs _).mem_iff, List.mem_append, toList, List.mem_append,
      List.mem_cons] at hyt
    tauto
  obtain ⟨-, -, hsub⟩ := hr₂.substitute_frame hyn.1 hyn.2.1 hyn.2.2 y
  have hy₂ : h₂.node y = h₂.node x := by
    rw [hh₂, modify_node_self, modify_node_of_ne _ _ _ hxy]
  refine ⟨h₂.substitute x y, ?_, ?_⟩
  · have hright : (h.node y).rbRight = r.top := by rw [hy]; rfl
    have hparent : (h.node y).parent = some q := by rw [hy]; rfl
    have hcolor : (h.node y).color = cy := by rw [hy]; rfl
    have hx₁ : h₁.node x = h₂.node x := by rw [hh₂, modify_node_of_ne _ _ _ hxy]
    have hleft : (h₂.node x).rbLeft = some z := by rw [hx₂, ← hl]; rfl
    have hh₂' : (h₁.modify y fun _ => h₂.node x) = h₂ := by rw [← hx₁, ← hh₂]
    rw [hleft] at hadopt
    have hadopt' : ((h₂.relink .left (h₂.node x).parent x (some y)).setParent z (some y)).node x =
        h₂.node x := hadopt
    rw [Rbtree.unlinkNext, hdesc]
    simp only [Option.bind_eq_bind, Option.bind_some, hright, hparent, hcolor, hlink,
      modify_node_of_ne _ _ _ hxy, copy_fields, hx₁]
    rw [hh₂', hrel, hleft, Option.bind_some, hadopt', hq', RbHeap.substitute, hleft]
    rfl
  · rw [hplug]
    exact hr₂.substitute hyt (hsub.trans hy₂) rfl fun w _ => rfl

/-- What `rb_erase` does after the unlinking, when the node that left the place had
    one child at most. -/
theorem Represents.eraseFinish {d : Side} {n : ℕ} (hfuel : fs.length + 2 ≤ fuel)
    (hr : Represents h (plug fs t)) (hp : PathValid fs n)
    (ht : (branch d c t x (leaf : RbTree α)).Valid n) :
    ∃ h' t', (if c = .black then rbEraseColor fuel h t.top (parentOf fs) else some h) = some h' ∧
      Represents h' t' ∧ t'.toList = (plug fs t).toList ∧ t'.IsRB := by
  cases c with
  | red =>
    obtain ⟨htc, -, hv, -⟩ := valid_branch_red.mp ht
    exact ⟨h, _, if_neg (by decide), hr, rfl, plug_isRB_of_black hp hv htc⟩
  | black =>
    obtain ⟨m, rfl⟩ : ∃ m, n = m + 1 := by
      cases n with
      | zero => cases d <;> exact absurd ht id
      | succ m => exact ⟨m, rfl⟩
    obtain ⟨hv, -⟩ := valid_branch_black.mp ht
    rw [if_pos rfl]
    cases htc : t.color with
    | black => exact hr.eraseColor hfuel hp hv htc
    | red =>
      obtain ⟨fuel, rfl⟩ : ∃ k, fuel = k + 1 := ⟨fuel - 1, by omega⟩
      obtain ⟨a, y, b, rfl, -, -, ha, hb⟩ := hv.exists_branch_red d htc
      obtain ⟨h', hrun, hr', hrb⟩ := hr.eraseColor_red fuel (parentOf fs) htc hp
        (by rw [blacken_branch]; exact valid_branch_black.mpr ⟨ha, hb⟩)
      exact ⟨h', _, hrun, hr', toList_plug_congr fs (toList_blacken _), hrb⟩

theorem erase_middle {u v : List α} (h : (u ++ x :: v).Nodup) :
    (u ++ x :: v).erase x = u ++ v := by
  have hu : x ∉ u := fun hu => (List.nodup_append.mp h).2.2 x hu x List.mem_cons_self rfl
  rw [List.erase_append_right _ hu, List.erase_cons_head]

/-- `rb_erase` of a node of a red-black tree ends in a red-black tree that holds the
    other nodes in order. No loop takes more rounds than the tree has levels and one. -/
theorem rb_erase_spec (hr : Represents h t) (hrb : t.IsRB) (hx : x ∈ t.toList)
    (hfuel : t.height < fuel) :
    ∃ h' t', rbErase fuel h x = some h' ∧ Represents h' t' ∧
      t'.toList = t.toList.erase x ∧ t'.IsRB := by
  obtain ⟨fs, c, l, r, rfl⟩ := exists_plug_of_mem hx
  obtain ⟨n, hp, hv, -⟩ := plug_isRB_iff.mp hrb
  obtain ⟨before, after, hlist⟩ := exists_toList_plug fs
  have herase : (plug fs (node c l x r)).toList.erase x =
      before ++ (l.toList ++ r.toList) ++ after := by
    have hnodup := hr.nodup
    rw [hlist, toList, ← List.append_assoc, List.append_assoc, List.cons_append] at hnodup ⊢
    rw [erase_middle hnodup]
    simp
  have hlen := length_add_height_le fs (node c l x r)
  have hroom : fs.length + 2 ≤ fuel := by
    rw [height] at hlen
    omega
  have hxn : h.node x = .of .left l.top r.top (parentOf fs) c :=
    Represents.node_eq (d := .left) hr
  have hl : (h.node x).rbLeft = l.top := by rw [hxn]; rfl
  have hrr : (h.node x).rbRight = r.top := by rw [hxn]; rfl
  -- one child at most: the child takes the place
  have hone : ∀ (d : Side) (t : RbTree α), node c l x r = branch d c t x leaf →
      l.toList ++ r.toList = t.toList →
      ∃ h' t', (if (unlink h x t.top).color = .black then
          rbEraseColor fuel (unlink h x t.top).heap (unlink h x t.top).child
            (unlink h x t.top).parent
        else some (unlink h x t.top).heap) = some h' ∧ Represents h' t' ∧
        t'.toList = (plug fs (node c l x r)).toList.erase x ∧ t'.IsRB := by
    intro d t hnode hnodes
    rw [hnode] at hr hv
    obtain ⟨h₁, hunlink, hr₁⟩ := hr.unlink
    obtain ⟨h', t', hrun, hr', hl', hrb'⟩ := hr₁.eraseFinish (c := c) (d := d) hroom hp hv
    refine ⟨h', t', ?_, hr', ?_, hrb'⟩
    · rw [hunlink]
      exact hrun
    · rw [hl', herase, hlist, hnodes]
  rw [rbErase, hl, hrr]
  cases hltop : l.top with
  | none =>
    obtain rfl := top_eq_none_iff.mp hltop
    exact hone .right r rfl (List.nil_append _)
  | some z =>
    cases hrtop : r.top with
    | none =>
      obtain rfl := top_eq_none_iff.mp hrtop
      have hleft := hone .left l rfl (List.append_nil _)
      rw [hltop] at hleft
      exact hleft
    | some w =>
      have hr₁ : Represents h (plug (⟨.right, c, x, l⟩ :: fs) r) := hr
      have hheight : r.height ≤ fuel := by
        rw [height] at hlen
        omega
      obtain ⟨gs, cy, y, s, rfl, hgs, hdesc⟩ := hr₁.descend (d := .left) hrtop hheight
      obtain ⟨h₁, hunlink, hr₂⟩ := Represents.unlinkNext hr hgs hltop hdesc
      have hplug : plug fs (node c l x (plug gs (branch .left cy leaf y s))) =
          plug (gs ++ ⟨.right, c, x, l⟩ :: fs) (branch .right cy s y leaf) := by
        rw [plug_append]
        rfl
      obtain ⟨m, hp₂, hv₂, -⟩ := plug_isRB_iff.mp (hplug ▸ hrb)
      have hlen₂ := length_add_height_le (gs ++ ⟨.right, c, x, l⟩ :: fs)
        (branch .right cy s y leaf)
      have hpos : 1 ≤ (branch .right cy s y leaf).height := Nat.succ_le_succ (Nat.zero_le _)
      rw [← hplug, List.length_append, List.length_cons] at hlen₂
      have hroom₂ : (gs ++ ⟨.right, c, y, l⟩ :: fs).length + 2 ≤ fuel := by
        rw [List.length_append, List.length_cons]
        omega
      obtain ⟨h', t', hrun, hr', hl', hrb'⟩ := hr₂.eraseFinish (c := cy) (d := .right) hroom₂
        (hp₂.congr_value x y) hv₂
      refine ⟨h', t', ?_, hr', ?_, hrb'⟩
      · simp only [hunlink, Option.bind_eq_bind, Option.bind_some]
        exact hrun
      · obtain ⟨rest, hspine⟩ := exists_listFrom_spine hgs
        have h1 : (plug gs (branch .left cy leaf y s)).toList = y :: (s.toList ++ rest) :=
          hspine (branch .left cy leaf y s)
        have h2 : (plug gs s).toList = s.toList ++ rest := hspine s
        rw [hl', herase, h1, plug_append, ← h2]
        show (plug fs (node c l y (plug gs s))).toList = _
        rw [hlist]
        rfl

end Mcelog.Rbtree
