import Mcelog.Rbtree.Node

/-!
# The tree that a heap holds

`Represents h t`: the nodes that the root pointer of the heap `h` reaches form the
coloured tree `t`, with every parent pointer in place. A tree with a hole is
represented by its two parts, so that what an operation of the heap does is
stated at the place where it works, on a tree `plug fs t`.

* `represents_plug_iff`: the representation of a tree with a hole.
* `Represents.node_eq`: the fields of a node of the tree.
* `Represents.setColor`: a node is painted.
* `Represents.rotate`: a rotation succeeds and turns the tree around one edge.
* `Represents.linkNode`: a new red leaf.
* `Represents.unlink`, `Represents.replaceNode`: a node is taken out, or another
  one takes its place.
-/

namespace Mcelog.Rbtree

open Mcelog.Common RbTree

variable {α : Type*}

/-! ## Heap updates -/

section Update

variable [DecidableEq α] (h : RbHeap α) (x : α) {z : α}

@[simp] theorem modify_node_self (f : RbNode α → RbNode α) :
    (h.modify x f).node x = f (h.node x) := by
  simp [RbHeap.modify]

theorem modify_node_of_ne (f : RbNode α → RbNode α) (hz : z ≠ x) :
    (h.modify x f).node z = h.node z := by
  simp [RbHeap.modify, hz]

@[simp] theorem modify_rbNode (f : RbNode α → RbNode α) : (h.modify x f).rbNode = h.rbNode := rfl

theorem adopt_node_of_ne (p q : Option α) (hz : p ≠ some z) : (h.adopt p q).node z = h.node z := by
  cases p with
  | none => rfl
  | some x =>
    show (h.setParent x q).node z = h.node z
    exact modify_node_of_ne h x _ fun heq => hz (congrArg some heq.symm)

@[simp] theorem adopt_rbNode (p q : Option α) : (h.adopt p q).rbNode = h.rbNode := by
  cases p <;> rfl

/-- Relinking changes the node above only. -/
theorem relink_node_of_ne (d : Side) (parent : Option α) (old : α) (new : Option α)
    (hz : parent ≠ some z) : (h.relink d parent old new).node z = h.node z := by
  cases parent with
  | none => rfl
  | some p =>
    have hne : z ≠ p := fun heq => hz (congrArg some heq.symm)
    unfold RbHeap.relink
    dsimp only
    split
    · exact modify_node_of_ne h p _ hne
    · exact modify_node_of_ne h p _ hne

end Update

/-! ## Representation -/

/-- The nodes of the tree have the fields that the tree says; the node above the
    tree is `p`. -/
def Rep (h : RbHeap α) : Option α → RbTree α → Prop
  | _, .leaf => True
  | p, .node c l x r => h.node x = .of .left l.top r.top p c ∧ Rep h (some x) l ∧ Rep h (some x) r

/-- The fields of the nodes around a hole in which the pointer is `ptr`. -/
def RepPath (h : RbHeap α) : Option α → List (Frame α) → Prop
  | ptr, [] => h.rbNode = ptr
  | ptr, f :: fs =>
    h.node f.value = .of f.side ptr f.sibling.top (parentOf fs) f.color ∧
      Rep h (some f.value) f.sibling ∧ RepPath h (some f.value) fs

/-- The heap holds the tree. -/
structure Represents (h : RbHeap α) (t : RbTree α) : Prop where
  root : h.rbNode = t.top
  rep : Rep h none t
  nodup : t.toList.Nodup

variable {h h' : RbHeap α} {fs : List (Frame α)} {t : RbTree α} {x y z : α} {d : Side}
  {a b : RbTree α} {c : Color} {p q ptr : Option α}

theorem rep_branch_iff : Rep h p (branch d c a x b) ↔
    h.node x = .of d a.top b.top p c ∧ Rep h (some x) a ∧ Rep h (some x) b := by
  cases d with
  | left => exact Iff.rfl
  | right =>
    show (_ ∧ Rep h (some x) b ∧ Rep h (some x) a) ↔ _
    rw [and_comm (a := Rep h (some x) b)]
    exact Iff.rfl

theorem Rep.frame (hr : Rep h p t) (heq : ∀ z ∈ t.toList, h'.node z = h.node z) : Rep h' p t := by
  induction t generalizing p with
  | leaf => trivial
  | node c l x r ihl ihr =>
    simp only [toList, List.mem_append, List.mem_cons] at heq
    obtain ⟨hx, hl, hrr⟩ := hr
    exact ⟨(heq x (Or.inr (Or.inl rfl))).trans hx, ihl hl fun z hz => heq z (Or.inl hz),
      ihr hrr fun z hz => heq z (Or.inr (Or.inr hz))⟩

theorem RepPath.frame (hr : RepPath h ptr fs) (hroot : h'.rbNode = h.rbNode)
    (heq : ∀ z ∈ pathNodes fs, h'.node z = h.node z) : RepPath h' ptr fs := by
  induction fs generalizing ptr with
  | nil => exact hroot.trans hr
  | cons f fs ih =>
    simp only [pathNodes, List.mem_cons, List.mem_append] at heq
    obtain ⟨hf, hs, hp⟩ := hr
    exact ⟨(heq _ (Or.inl rfl)).trans hf, hs.frame fun z hz => heq z (Or.inr (Or.inl hz)),
      ih hp fun z hz => heq z (Or.inr (Or.inr hz))⟩

/-- `if (t) rb_set_parent(t, q)` puts the tree `t` below `q`. -/
theorem Rep.adopt [DecidableEq α] (hr : Rep h p t) (hnodup : t.toList.Nodup) (q : Option α) :
    Rep (h.adopt t.top q) q t := by
  cases t with
  | leaf => trivial
  | node c l x r =>
    obtain ⟨hx, hl, hrr⟩ := hr
    have hperm : (l.toList ++ x :: r.toList).Perm (x :: (l.toList ++ r.toList)) := List.perm_middle
    have hmem := hperm.nodup_iff.mp hnodup
    have hne : ∀ z ∈ l.toList ++ r.toList, (h.adopt (some x) q).node z = h.node z := by
      intro z hz
      refine adopt_node_of_ne h _ _ fun heq => ?_
      rw [Option.some.inj heq] at hmem
      exact (List.nodup_cons.mp hmem).1 hz
    refine ⟨?_, hl.frame fun z hz => hne z (List.mem_append_left _ hz),
      hrr.frame fun z hz => hne z (List.mem_append_right _ hz)⟩
    show (h.setParent x q).node x = _
    rw [RbHeap.setParent, modify_node_self, hx, RbNode.of_with_parent]

theorem rep_plug_iff : h.rbNode = (plug fs t).top ∧ Rep h none (plug fs t) ↔
    RepPath h t.top fs ∧ Rep h (parentOf fs) t := by
  induction fs generalizing t with
  | nil => exact Iff.rfl
  | cons f fs ih =>
    rw [plug, ih, Frame.fill, top_branch, rep_branch_iff, RepPath]
    tauto

/-- The representation of a tree with a hole: the path and the tree in the hole. -/
theorem represents_plug_iff : Represents h (plug fs t) ↔
    RepPath h t.top fs ∧ Rep h (parentOf fs) t ∧ (pathNodes fs ++ t.toList).Nodup := by
  rw [← and_assoc, ← rep_plug_iff, ← (toList_plug_perm fs t).nodup_iff]
  exact ⟨fun hr => ⟨⟨hr.root, hr.rep⟩, hr.nodup⟩, fun ⟨⟨hroot, hrep⟩, hnodup⟩ =>
    ⟨hroot, hrep, hnodup⟩⟩

theorem represents_empty (node : α → RbNode α) : Represents (.empty node) .leaf :=
  ⟨rfl, trivial, List.nodup_nil⟩

/-- The fields of a node of the tree. -/
theorem Represents.node_eq (hr : Represents h (plug fs (branch d c a x b))) :
    h.node x = .of d a.top b.top (parentOf fs) c :=
  (rep_branch_iff.mp (represents_plug_iff.mp hr).2.1).1

/-- The parts of a represented tree around one of its nodes. -/
theorem represents_branch_iff : Represents h (plug fs (branch d c a x b)) ↔
    RepPath h (some x) fs ∧ h.node x = .of d a.top b.top (parentOf fs) c ∧
      Rep h (some x) a ∧ Rep h (some x) b ∧ Apart fs x a b := by
  rw [represents_plug_iff, rep_branch_iff, nodup_branch_iff, top_branch]
  tauto

/-! ## Painting -/

variable [DecidableEq α]

theorem Represents.setColor (hr : Represents h (plug fs (branch d c a x b))) (c' : Color) :
    Represents (h.setColor x c') (plug fs (branch d c' a x b)) := by
  obtain ⟨hpath, hx, ha, hb, hd⟩ := represents_branch_iff.mp hr
  have hne : ∀ {z}, z ≠ x → (h.setColor x c').node z = h.node z := fun hz =>
    modify_node_of_ne h x _ hz
  refine represents_branch_iff.mpr ⟨hpath.frame rfl fun z hz => hne ?_, ?_,
    ha.frame fun z hz => hne ?_, hb.frame fun z hz => hne ?_, hd⟩
  · rintro rfl
    exact hd.path_top hz
  · rw [RbHeap.setColor, modify_node_self, hx, RbNode.of_with_color]
  · rintro rfl
    exact hd.top_near hz
  · rintro rfl
    exact hd.top_far hz

/-! ## Rotating -/

/-- The pointer into the hole is exchanged. -/
theorem RepPath.setChild {f : Frame α} (hp : RepPath h p (f :: fs))
    (hnodup : (pathNodes (f :: fs)).Nodup) (q : Option α) :
    RepPath (h.modify f.value (·.setChild f.side q)) q (f :: fs) := by
  obtain ⟨hf, hs, hp⟩ := hp
  have hne : ∀ {z}, z ∈ f.sibling.toList ++ pathNodes fs →
      (h.modify f.value (·.setChild f.side q)).node z = h.node z := by
    intro z hz
    refine modify_node_of_ne h _ _ fun heq => ?_
    rw [heq] at hz
    exact (List.nodup_cons.mp hnodup).1 hz
  refine ⟨?_, hs.frame fun z hz => hne (List.mem_append_left _ hz),
    hp.frame rfl fun z hz => hne (List.mem_append_right _ hz)⟩
  rw [modify_node_self, hf, RbNode.setChild_of]

/-- The node above is found on the path, whichever child is compared first. -/
theorem RepPath.relink {old : α} (hp : RepPath h (some old) fs) (hnodup : (pathNodes fs).Nodup)
    (hold : old ∉ pathNodes fs) (d : Side) (new : Option α) :
    RepPath (h.relink d (parentOf fs) old new) new fs := by
  cases fs with
  | nil => rfl
  | cons f fs =>
    have hrelink : h.relink d (some f.value) old new =
        h.modify f.value (·.setChild f.side new) := by
      unfold RbHeap.relink
      dsimp only
      rcases Side.eq_or_eq_other f.side d with rfl | rfl
      · rw [hp.1, RbNode.child_of, if_pos rfl]
      · rw [hp.1, RbNode.child_other_of, if_neg (top_ne (not_mem_pathNodes_cons hold).2.1),
          Side.other_other]
    rw [parentOf, hrelink]
    exact hp.setChild hnodup new

/-- A rotation towards side `d` turns the edge to the other child around. -/
theorem Represents.rotate {c' : Color} {b t : RbTree α}
    (hr : Represents h (plug fs (branch d c a x (branch d c' b y t)))) :
    ∃ h', rotate d h x = some h' ∧
      Represents h' (plug fs (branch d c' (branch d c a x b) y t)) := by
  obtain ⟨hpath, hx, ha, hby, hd⟩ := represents_branch_iff.mp hr
  obtain ⟨hy, hb, ht⟩ := rep_branch_iff.mp hby
  obtain ⟨-, -, -, -, hd2⟩ := represents_branch_iff.mp (plug_far fs d c x a _ ▸ hr)
  obtain ⟨hyx, hya, hyp⟩ := not_mem_pathNodes_cons hd2.path_top
  have hbo : ∀ z ∈ b.toList, z ≠ x ∧ z ∉ a.toList ∧ z ∉ pathNodes fs := fun z hz =>
    not_mem_pathNodes_cons (hd2.path_near z hz)
  have hto : ∀ z ∈ t.toList, z ≠ x ∧ z ∉ a.toList ∧ z ∉ pathNodes fs := fun z hz =>
    not_mem_pathNodes_cons (hd2.path_far z hz)
  have hxb : x ∉ b.toList := fun hz => (hbo x hz).1 rfl
  -- the heap after each assignment
  obtain ⟨h₁, hh₁⟩ : ∃ h₁, h₁ = h.modify x (·.setChild d.other b.top) := ⟨_, rfl⟩
  obtain ⟨h₂, hh₂⟩ : ∃ h₂, h₂ = h₁.adopt b.top (some x) := ⟨_, rfl⟩
  obtain ⟨h₄, hh₄⟩ : ∃ h₄, h₄ = (h₂.modify y (·.setChild d (some x))).setParent y (parentOf fs) :=
    ⟨_, rfl⟩
  obtain ⟨h₅, hh₅⟩ : ∃ h₅, h₅ = h₄.relink d (parentOf fs) x (some y) := ⟨_, rfl⟩
  obtain ⟨h₆, hh₆⟩ : ∃ h₆, h₆ = h₅.setParent x (some y) := ⟨_, rfl⟩
  have hrun : Rbtree.rotate d h x = some h₆ := by
    subst h₆ h₅ h₄ h₂ h₁
    simp only [Rbtree.rotate, hx, hy, RbNode.child_other_of, RbNode.child_of, RbNode.parent_of,
      top_branch, Option.bind_eq_bind, Option.bind_some]
  have h₁_ne : ∀ {z}, z ≠ x → h₁.node z = h.node z := fun hz =>
    hh₁ ▸ modify_node_of_ne h x _ hz
  have h₂_ne : ∀ {z}, z ∉ b.toList → h₂.node z = h₁.node z := fun hz =>
    hh₂ ▸ adopt_node_of_ne h₁ _ _ (top_ne hz)
  have h₄_ne : ∀ {z}, z ≠ y → h₄.node z = h₂.node z := fun hz => by
    rw [hh₄, RbHeap.setParent, modify_node_of_ne _ _ _ hz, modify_node_of_ne _ _ _ hz]
  have h₅_ne : ∀ {z}, z ∉ pathNodes fs → h₅.node z = h₄.node z := fun hz =>
    hh₅ ▸ relink_node_of_ne h₄ _ _ _ _ (parentOf_ne hz)
  have h₆_ne : ∀ {z}, z ≠ x → h₆.node z = h₅.node z := fun hz =>
    hh₆ ▸ modify_node_of_ne h₅ x _ hz
  have h₄_root : h₄.rbNode = h.rbNode := by
    rw [hh₄, RbHeap.setParent, modify_rbNode, modify_rbNode, hh₂, adopt_rbNode, hh₁, modify_rbNode]
  have hpath₄ : RepPath h₄ (some x) fs := by
    refine hpath.frame h₄_root fun z hz => ?_
    rw [h₄_ne fun heq => hyp (heq ▸ hz), h₂_ne fun hzb => (hbo z hzb).2.2 hz,
      h₁_ne fun heq => hd.path_top (heq ▸ hz)]
  have hpath₆ : RepPath h₆ (some y) fs := by
    have hpath₅ := hpath₄.relink hd.path hd.path_top d (some y)
    rw [← hh₅] at hpath₅
    exact hpath₅.frame (hh₆ ▸ rfl) fun z hz => h₆_ne fun heq => hd.path_top (heq ▸ hz)
  -- outside the edge that is turned, only the top of `b` changes
  have hout : ∀ {z}, z ≠ x → z ≠ y → z ∉ pathNodes fs → h₆.node z = h₂.node z := by
    intro z hzx hzy hzp
    rw [h₆_ne hzx, h₅_ne hzp, h₄_ne hzy]
  have ha₆ : Rep h₆ (some x) a := by
    refine ha.frame fun z hz => ?_
    have hzx : z ≠ x := fun heq => hd.top_near (heq ▸ hz)
    rw [hout hzx (fun heq => hya (heq ▸ hz)) (hd.path_near z hz),
      h₂_ne fun hzb => (hbo z hzb).2.1 hz, h₁_ne hzx]
  have hb₆ : Rep h₆ (some x) b := by
    have hb₁ : Rep h₁ (some y) b := hb.frame fun z hz => h₁_ne fun heq => hxb (heq ▸ hz)
    have hb₂ := hb₁.adopt hd2.near (some x)
    rw [← hh₂] at hb₂
    refine hb₂.frame fun z hz => hout (fun heq => hxb (heq ▸ hz))
      (fun heq => hd2.top_near (heq ▸ hz)) (hbo z hz).2.2
  have ht₆ : Rep h₆ (some y) t := by
    refine ht.frame fun z hz => ?_
    have hzx : z ≠ x := (hto z hz).1
    rw [hout hzx (fun heq => hd2.top_far (heq ▸ hz)) (hto z hz).2.2,
      h₂_ne fun hzb => hd2.near_far z hzb hz, h₁_ne hzx]
  have hx₆ : h₆.node x = .of d a.top b.top (some y) c := by
    rw [hh₆, RbHeap.setParent, modify_node_self, h₅_ne hd.path_top, h₄_ne hyx.symm, h₂_ne hxb, hh₁,
      modify_node_self, hx, RbNode.setChild_other_of, RbNode.of_with_parent]
  have hy₆ : h₆.node y = .of d (some x) t.top (parentOf fs) c' := by
    rw [h₆_ne hyx, h₅_ne hyp, hh₄, RbHeap.setParent, modify_node_self, modify_node_self,
      h₂_ne hd2.top_near, h₁_ne hyx, hy, RbNode.setChild_of, RbNode.of_with_parent]
  refine ⟨h₆, hrun, represents_plug_iff.mpr ⟨?_, rep_branch_iff.mpr ⟨?_, ?_, ht₆⟩, ?_⟩⟩
  · rw [top_branch]
    exact hpath₆
  · rw [top_branch]
    exact hy₆
  · exact rep_branch_iff.mpr ⟨hx₆, ha₆, hb₆⟩
  · rw [toList_rotate d c a b x c' c' c t y]
    exact (represents_plug_iff.mp hr).2.2

/-- A rotation away from side `d` turns the edge to the child on side `d` around. -/
theorem Represents.rotate_other {c' : Color} {b t : RbTree α}
    (hr : Represents h (plug fs (branch d c (branch d c' a y b) x t))) :
    ∃ h', Rbtree.rotate d.other h x = some h' ∧
      Represents h' (plug fs (branch d c' a y (branch d c b x t))) := by
  have hr' : Represents h (plug fs (branch d.other c t x (branch d.other c' b y a))) := by
    rw [branch_other, branch_other]
    exact hr
  obtain ⟨h', hrun, h₁⟩ := hr'.rotate
  rw [branch_other, branch_other] at h₁
  exact ⟨h', hrun, h₁⟩

/-! ## Linking and unlinking -/

/-- The link at the end of a path. -/
def linkOf : List (Frame α) → Option (α × Side)
  | [] => none
  | f :: _ => some (f.value, f.side)

/-- A node is linked in an empty place. -/
theorem Represents.linkNode (hr : Represents h (plug fs leaf)) (hx : x ∉ pathNodes fs) :
    Represents (rbLinkNode h x (linkOf fs)) (plug fs (branch d .red leaf x leaf)) := by
  obtain ⟨hpath, -, hnodup⟩ := represents_plug_iff.mp hr
  rw [toList, List.append_nil] at hnodup
  have hapart : Apart fs x (leaf : RbTree α) leaf :=
    ⟨hnodup, hx, fun z hz => absurd hz List.not_mem_nil, fun z hz => absurd hz List.not_mem_nil,
      List.nodup_nil, List.nodup_nil, List.not_mem_nil, List.not_mem_nil,
      fun z hz => absurd hz List.not_mem_nil⟩
  obtain ⟨h₁, hh₁⟩ : ∃ h₁, h₁ = h.modify x fun _ =>
      { rbRight := none, rbLeft := none, parent := (linkOf fs).map Prod.fst, color := .red } :=
    ⟨_, rfl⟩
  have hx₁ : h₁.node x = .of d none none (parentOf fs) .red := by
    rw [hh₁, modify_node_self]
    cases d <;> cases fs <;> rfl
  have hpath₁ : RepPath h₁ none fs := by
    refine hpath.frame (hh₁ ▸ rfl) fun z hz => hh₁ ▸ modify_node_of_ne h x _ fun heq => ?_
    exact hx (heq ▸ hz)
  cases fs with
  | nil =>
    have hlink : rbLinkNode h x (linkOf []) = { h₁ with rbNode := some x } := by
      rw [hh₁]
      rfl
    rw [hlink]
    exact represents_branch_iff.mpr ⟨rfl, hx₁, trivial, trivial, hapart⟩
  | cons f fs =>
    have hlink : rbLinkNode h x (linkOf (f :: fs)) =
        h₁.modify f.value (·.setChild f.side (some x)) := by
      rw [hh₁]
      rfl
    have hne : x ≠ f.value := (not_mem_pathNodes_cons hx).1
    rw [hlink]
    exact represents_branch_iff.mpr ⟨hpath₁.setChild hnodup _,
      (modify_node_of_ne h₁ _ _ hne).trans hx₁, trivial, trivial, hapart⟩

/-- A node with one child at most is replaced by that child. -/
theorem Represents.unlink (hr : Represents h (plug fs (branch d c a x leaf))) :
    ∃ h', Rbtree.unlink h x a.top = ⟨h', a.top, parentOf fs, c⟩ ∧ Represents h' (plug fs a) := by
  obtain ⟨hpath, hx, ha, -, hd⟩ := represents_branch_iff.mp hr
  refine ⟨_, by rw [Rbtree.unlink, hx, RbNode.parent_of, RbNode.color_of], ?_⟩
  have hpath₁ : RepPath (h.adopt a.top (parentOf fs)) (some x) fs :=
    hpath.frame (adopt_rbNode ..) fun z hz =>
      adopt_node_of_ne h _ _ (top_ne fun hza => hd.path_near z hza hz)
  refine represents_plug_iff.mpr ⟨hpath₁.relink hd.path hd.path_top _ _, ?_, ?_⟩
  · exact (ha.adopt hd.near _).frame fun z hz =>
      relink_node_of_ne _ _ _ _ _ (parentOf_ne (hd.path_near z hz))
  · exact List.Nodup.append hd.path hd.near fun z hz hza => hd.path_near z hza hz

/-- The nodes around `x` point to `y` instead. -/
def RbHeap.substitute (h : RbHeap α) (x y : α) : RbHeap α :=
  ((h.relink .left (h.node x).parent x (some y)).adopt (h.node x).rbLeft (some y)).adopt
    (h.node x).rbRight (some y)

/-- A node that is not in the tree and gets the fields of `x` takes its place. -/
theorem Represents.substitute {l r : RbTree α}
    (hr : Represents h (plug fs (node c l x r)))
    (hy : y ∉ (plug fs (node c l x r)).toList) (hyx : h'.node y = h.node x)
    (hroot : h'.rbNode = (h.substitute x y).rbNode)
    (heq : ∀ z, z ≠ y → h'.node z = (h.substitute x y).node z) :
    Represents h' (plug fs (node c l y r)) := by
  obtain ⟨hpath, hx, hl, hrr, hd⟩ := represents_branch_iff (d := .left).mp hr
  have hyn : y ∉ pathNodes fs ∧ y ∉ l.toList ∧ y ∉ r.toList := by
    rw [(toList_plug_perm fs _).mem_iff, List.mem_append, toList, List.mem_append,
      List.mem_cons] at hy
    tauto
  obtain ⟨k₁, hk₁⟩ : ∃ k₁, k₁ = h.relink .left (parentOf fs) x (some y) := ⟨_, rfl⟩
  have hk : h.substitute x y = (k₁.adopt l.top (some y)).adopt r.top (some y) := by
    rw [RbHeap.substitute, hx, hk₁]
    rfl
  have hk₁_ne : ∀ {z}, z ∉ pathNodes fs → k₁.node z = h.node z := fun hz =>
    hk₁ ▸ relink_node_of_ne h _ _ _ _ (parentOf_ne hz)
  have hk_ne : ∀ {z}, z ∉ l.toList → z ∉ r.toList → (h.substitute x y).node z = k₁.node z :=
    fun hzl hzr => by
      rw [hk, adopt_node_of_ne _ _ _ (top_ne hzr), adopt_node_of_ne _ _ _ (top_ne hzl)]
  have hpath' : RepPath h' (some y) fs := by
    have hpath₁ := hpath.relink hd.path hd.path_top .left (some y)
    rw [← hk₁] at hpath₁
    refine hpath₁.frame ?_ fun z hz => ?_
    · rw [hroot, hk, adopt_rbNode, adopt_rbNode]
    · rw [heq z fun he => hyn.1 (he ▸ hz), hk_ne (fun hzl => hd.path_near z hzl hz)
        fun hzr => hd.path_far z hzr hz]
  have hl' : Rep h' (some y) l := by
    have hl₁ : Rep k₁ (some x) l := hl.frame fun z hz => hk₁_ne (hd.path_near z hz)
    refine (hl₁.adopt hd.near (some y)).frame fun z hz => ?_
    rw [heq z fun he => hyn.2.1 (he ▸ hz), hk, adopt_node_of_ne _ _ _ (top_ne (hd.near_far z hz))]
  have hr' : Rep h' (some y) r := by
    have hr₁ : Rep (k₁.adopt l.top (some y)) (some x) r := hrr.frame fun z hz => by
      rw [adopt_node_of_ne _ _ _ (top_ne fun hzl => hd.near_far z hzl hz),
        hk₁_ne (hd.path_far z hz)]
    refine (hr₁.adopt hd.far (some y)).frame fun z hz => ?_
    rw [heq z fun he => hyn.2.2 (he ▸ hz), hk]
  exact represents_branch_iff (d := .left).mpr ⟨hpath', hyx.trans hx, hl', hr',
    hd.path, hyn.1, hd.path_near, hd.path_far, hd.near, hd.far, hyn.2.1, hyn.2.2, hd.near_far⟩

/-- The nodes that are not near `x` keep their fields throughout. -/
theorem Represents.substitute_frame {l r : RbTree α} (hr : Represents h (plug fs (node c l x r)))
    (hp : z ∉ pathNodes fs) (hl : z ∉ l.toList) (hrr : z ∉ r.toList) (y : α) :
    (h.relink .left (h.node x).parent x (some y)).node z = h.node z ∧
      ((h.relink .left (h.node x).parent x (some y)).adopt (h.node x).rbLeft (some y)).node z =
        h.node z ∧
      (h.substitute x y).node z = h.node z := by
  obtain ⟨-, hx, -, -, -⟩ := represents_branch_iff (d := .left).mp hr
  have hrel : (h.relink .left (h.node x).parent x (some y)).node z = h.node z :=
    relink_node_of_ne h _ _ _ _ (by rw [hx]; exact parentOf_ne hp)
  have hadopt : ((h.relink .left (h.node x).parent x (some y)).adopt (h.node x).rbLeft
      (some y)).node z = h.node z := by
    rw [adopt_node_of_ne _ _ _ (by rw [hx]; exact top_ne hl), hrel]
  refine ⟨hrel, hadopt, ?_⟩
  rw [RbHeap.substitute, adopt_node_of_ne _ _ _ (by rw [hx]; exact top_ne hrr), hadopt]

/-- `rb_replace_node` puts the node `y` in the place of `x`. -/
theorem Represents.replaceNode {l r : RbTree α} (hr : Represents h (plug fs (node c l x r)))
    (hy : y ∉ (plug fs (node c l x r)).toList) :
    Represents (rbReplaceNode h x y) (plug fs (node c l y r)) := by
  obtain ⟨-, -, -, -, hd⟩ := represents_branch_iff (d := .left).mp hr
  obtain ⟨hrel, hadopt, hsub⟩ := hr.substitute_frame hd.path_top hd.top_near hd.top_far y
  have hrun : rbReplaceNode h x y = (h.substitute x y).modify y fun _ => h.node x := by
    rw [← hsub]
    simp only [rbReplaceNode, RbHeap.substitute, hrel, hadopt]
  rw [hrun]
  exact hr.substitute hy (modify_node_self _ _ _) rfl fun z hz => modify_node_of_ne _ _ _ hz

/-- The representation depends on the nodes of the tree only. -/
theorem Represents.frame (hr : Represents h t) (hroot : h'.rbNode = h.rbNode)
    (heq : ∀ z ∈ t.toList, h'.node z = h.node z) : Represents h' t :=
  ⟨hroot.trans hr.root, hr.rep.frame heq, hr.nodup⟩

end Mcelog.Rbtree
