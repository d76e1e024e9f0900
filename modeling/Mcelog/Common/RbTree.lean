import Mathlib.Data.List.Basic
import Mathlib.Data.List.Nodup
import Mathlib.Tactic.Linarith

/-!
# Red-black trees with a hole

Binary trees with coloured nodes, and the path from a hole in such a tree up to
the root. What holds of a tree is stated of a subtree and of the path around it,
so that a step that changes a few nodes near the hole is judged there.

* `plug fs t`: the tree `t` in the hole at the path `fs`.
* `Valid t n`: no red node has a red child, and each leaf is below `n` black nodes.
* `PathValid fs n`: a black tree of black height `n` fits the hole.
* `plug_isRB_iff`: a tree with a hole is red-black iff its two parts are.
* `IsRB.height_le`: the height of a red-black tree is at most twice the binary
  logarithm of its size.
* `toList_plug_congr`: trees with the same nodes in order are exchangeable in a hole.
-/

namespace Mcelog.Common

/-- Which child of a node. -/
inductive Side
  | left
  | right
  deriving DecidableEq, Repr

/-- The opposite side. -/
def Side.other : Side → Side
  | .left => .right
  | .right => .left

@[simp] theorem Side.other_other (d : Side) : d.other.other = d := by
  cases d <;> rfl

theorem Side.other_ne (d : Side) : d.other ≠ d := by
  cases d <;> decide

theorem Side.eq_or_eq_other (d e : Side) : e = d ∨ e = d.other := by
  cases d <;> cases e <;> simp [Side.other]

/-- The colour of a node. -/
inductive Color
  | red
  | black
  deriving DecidableEq, Repr

theorem Color.eq_black_of_ne {c : Color} (h : c ≠ .red) : c = .black := by
  cases c with
  | red => exact absurd rfl h
  | black => rfl

/-- A binary tree with coloured nodes. -/
inductive RbTree (α : Type*)
  | leaf
  | node (color : Color) (left : RbTree α) (value : α) (right : RbTree α)
  deriving DecidableEq, Repr

namespace RbTree

variable {α : Type*}

/-- The node whose child on side `d` is `near` and whose other child is `far`. -/
def branch (d : Side) (c : Color) (near : RbTree α) (x : α) (far : RbTree α) : RbTree α :=
  match d with
  | .left => node c near x far
  | .right => node c far x near

/-- The nodes from left to right. -/
def toList : RbTree α → List α
  | leaf => []
  | node _ l x r => l.toList ++ x :: r.toList

/-- The nodes in order, seen from side `d`. -/
def listFrom (d : Side) (t : RbTree α) : List α :=
  match d with
  | .left => t.toList
  | .right => t.toList.reverse

/-- The colour of the root; a leaf is black. -/
def color : RbTree α → Color
  | leaf => .black
  | node c _ _ _ => c

/-- The node at the root. -/
def top : RbTree α → Option α
  | leaf => none
  | node _ _ x _ => some x

/-- The tree with its root painted black. -/
def blacken : RbTree α → RbTree α
  | leaf => leaf
  | node _ l x r => node .black l x r

/-- The number of nodes on the longest path down from the root. -/
def height : RbTree α → ℕ
  | leaf => 0
  | node _ l _ r => max l.height r.height + 1

section Branch

variable (d : Side) (c : Color) (a b : RbTree α) (x : α)

theorem branch_other : branch d.other c a x b = branch d c b x a := by
  cases d <;> rfl

@[simp] theorem color_branch : (branch d c a x b).color = c := by
  cases d <;> rfl

@[simp] theorem top_branch : (branch d c a x b).top = some x := by
  cases d <;> rfl

@[simp] theorem blacken_branch : (branch d c a x b).blacken = branch d .black a x b := by
  cases d <;> rfl

theorem listFrom_branch : (branch d c a x b).listFrom d = a.listFrom d ++ x :: b.listFrom d := by
  cases d <;> simp [branch, listFrom, toList]

/-- A rotation keeps the order of the nodes. -/
theorem toList_rotate (c' e e' : Color) (t : RbTree α) (y : α) :
    (branch d e (branch d e' a x b) y t).toList = (branch d c a x (branch d c' b y t)).toList := by
  cases d <;> simp [branch, toList]

/-- The order of the nodes does not depend on the colours. -/
theorem toList_branch_congr {a' b' : RbTree α} (c' : Color) (ha : a'.toList = a.toList)
    (hb : b'.toList = b.toList) : (branch d c' a' x b').toList = (branch d c a x b).toList := by
  cases d <;> simp [branch, toList, ha, hb]

end Branch

/-- A tree that is not a leaf has two children as seen from either side. -/
theorem exists_branch (d : Side) {t : RbTree α} {x : α} (h : t.top = some x) :
    ∃ c a b, t = branch d c a x b := by
  cases t with
  | leaf => cases h
  | node c l y r =>
    obtain rfl := Option.some.inj h
    cases d with
    | left => exact ⟨c, l, r, rfl⟩
    | right => exact ⟨c, r, l, rfl⟩

theorem toList_blacken (t : RbTree α) : t.blacken.toList = t.toList := by
  cases t <;> rfl

theorem listFrom_perm (d : Side) (t : RbTree α) : (t.listFrom d).Perm t.toList := by
  cases d with
  | left => exact List.Perm.refl _
  | right => exact List.reverse_perm _

theorem mem_of_top {t : RbTree α} {x : α} (h : t.top = some x) : x ∈ t.toList := by
  cases t with
  | leaf => cases h
  | node c l y r =>
    obtain rfl := Option.some.inj h
    simp [toList]

theorem top_eq_none_iff {t : RbTree α} : t.top = none ↔ t = leaf := by
  cases t <;> simp [top]

/-! ## Red-black trees -/

/-- Below the root every path to a leaf has `n` black nodes, the root counted, and
    no red node has a red child. -/
def Valid : RbTree α → ℕ → Prop
  | leaf, n => n = 0
  | node .red l _ r, n => l.color = .black ∧ r.color = .black ∧ Valid l n ∧ Valid r n
  | node .black l _ r, n + 1 => Valid l n ∧ Valid r n
  | node .black _ _ _, 0 => False

/-- A red-black tree: the root is black. -/
def IsRB (t : RbTree α) : Prop := t.color = .black ∧ ∃ n, Valid t n

section Valid

variable {d : Side} {a b t : RbTree α} {x : α} {n : ℕ}

theorem valid_branch_red : (branch d .red a x b).Valid n ↔
    a.color = .black ∧ b.color = .black ∧ a.Valid n ∧ b.Valid n := by
  cases d with
  | left => exact Iff.rfl
  | right =>
    show (b.color = .black ∧ a.color = .black ∧ b.Valid n ∧ a.Valid n) ↔ _
    tauto

theorem valid_branch_black : (branch d .black a x b).Valid (n + 1) ↔ a.Valid n ∧ b.Valid n := by
  cases d with
  | left => exact Iff.rfl
  | right =>
    show (b.Valid n ∧ a.Valid n) ↔ _
    exact and_comm

/-- A black tree of positive black height has children one lower. -/
theorem Valid.exists_branch_black (d : Side) (h : t.Valid (n + 1)) (hc : t.color = .black) :
    ∃ a y b, t = branch d .black a y b ∧ a.Valid n ∧ b.Valid n := by
  cases t with
  | leaf => cases h
  | node c l y r =>
    obtain ⟨c, a, b, heq⟩ := exists_branch (t := node c l y r) d rfl
    rw [heq, color_branch] at hc
    subst hc
    rw [heq] at h
    exact ⟨a, y, b, heq, valid_branch_black.mp h⟩

/-- A red tree has black children of its own black height. -/
theorem Valid.exists_branch_red (d : Side) (h : t.Valid n) (hc : t.color = .red) :
    ∃ a y b, t = branch d .red a y b ∧ a.color = .black ∧ b.color = .black ∧
      a.Valid n ∧ b.Valid n := by
  cases t with
  | leaf => cases hc
  | node c l y r =>
    obtain ⟨c, a, b, heq⟩ := exists_branch (t := node c l y r) d rfl
    rw [heq, color_branch] at hc
    subst hc
    rw [heq] at h
    exact ⟨a, y, b, heq, valid_branch_red.mp h⟩

/-- Painting the root of a valid tree black leaves it valid. -/
theorem Valid.blacken (h : t.Valid n) : ∃ m, t.blacken.Valid m := by
  cases t with
  | leaf => exact ⟨n, h⟩
  | node c l y r =>
    cases c with
    | red => exact ⟨n + 1, h.2.2.1, h.2.2.2⟩
    | black => exact ⟨n, h⟩

theorem color_blacken (t : RbTree α) : t.blacken.color = .black := by
  cases t <;> rfl

theorem blacken_of_black (h : t.color = .black) : t.blacken = t := by
  cases t with
  | leaf => rfl
  | node c l y r =>
    cases h
    rfl

theorem Valid.isRB_blacken (h : t.Valid n) : t.blacken.IsRB :=
  ⟨color_blacken t, h.blacken⟩

/-- The height is at most twice the black height, and one more below a red root. -/
theorem Valid.height_le (h : t.Valid n) :
    t.height ≤ 2 * n + 1 ∧ (t.color = .black → t.height ≤ 2 * n) := by
  induction t generalizing n with
  | leaf => exact ⟨Nat.zero_le _, fun _ => Nat.zero_le _⟩
  | node c l y r ihl ihr =>
    cases c with
    | red =>
      obtain ⟨hl, hr, hvl, hvr⟩ := h
      have h1 := (ihl hvl).2 hl
      have h2 := (ihr hvr).2 hr
      refine ⟨?_, fun hc => nomatch hc⟩
      rw [height]
      omega
    | black =>
      cases n with
      | zero => exact absurd h id
      | succ n =>
        have h1 := (ihl h.1).1
        have h2 := (ihr h.2).1
        rw [height]
        exact ⟨by omega, fun _ => by omega⟩

/-- A tree of black height `n` has at least `2 ^ n - 1` nodes. -/
theorem Valid.pow_le_length (h : t.Valid n) : 2 ^ n ≤ t.toList.length + 1 := by
  induction t generalizing n with
  | leaf =>
    obtain rfl : n = 0 := h
    exact le_rfl
  | node c l y r ihl ihr =>
    rw [toList, List.length_append, List.length_cons]
    cases c with
    | red =>
      have h1 := ihl h.2.2.1
      omega
    | black =>
      cases n with
      | zero => exact absurd h id
      | succ n =>
        have h1 := ihl h.1
        have h2 := ihr h.2
        rw [Nat.pow_succ]
        omega

/-- The height of a red-black tree is at most twice the logarithm of its size. -/
theorem IsRB.height_le (h : t.IsRB) : 2 ^ t.height ≤ (t.toList.length + 1) ^ 2 := by
  obtain ⟨hc, n, hn⟩ := h
  calc 2 ^ t.height ≤ 2 ^ (2 * n) := Nat.pow_le_pow_right (by omega) (hn.height_le.2 hc)
    _ = (2 ^ n) ^ 2 := by rw [Nat.mul_comm, Nat.pow_mul]
    _ ≤ (t.toList.length + 1) ^ 2 := Nat.pow_le_pow_left hn.pow_le_length 2

end Valid

end RbTree

open RbTree

/-! ## Paths -/

/-- One step of a path up from a hole: the node above it, the side of the hole, and
    the subtree on the other side. -/
structure Frame (α : Type*) where
  side : Side
  color : Color
  value : α
  sibling : RbTree α

variable {α : Type*}

/-- The tree whose subtree on the side of the hole is `t`. -/
def Frame.fill (f : Frame α) (t : RbTree α) : RbTree α := branch f.side f.color t f.value f.sibling

/-- The tree with `t` in the hole; the path starts at the hole. -/
def plug : List (Frame α) → RbTree α → RbTree α
  | [], t => t
  | f :: fs, t => plug fs (f.fill t)

/-- The node above the hole. -/
def parentOf : List (Frame α) → Option α
  | [] => none
  | f :: _ => some f.value

/-- The nodes outside the hole. -/
def pathNodes : List (Frame α) → List α
  | [] => []
  | f :: fs => f.value :: (f.sibling.toList ++ pathNodes fs)

theorem pathNodes_append (fs gs : List (Frame α)) :
    pathNodes (fs ++ gs) = pathNodes fs ++ pathNodes gs := by
  induction fs with
  | nil => rfl
  | cons f fs ih => simp [pathNodes, ih]

theorem not_mem_pathNodes_cons {f : Frame α} {fs : List (Frame α)} {z : α}
    (h : z ∉ pathNodes (f :: fs)) : z ≠ f.value ∧ z ∉ f.sibling.toList ∧ z ∉ pathNodes fs := by
  simpa [pathNodes] using h

/-- The node above the hole is black; there is one. -/
def AllowsRed : List (Frame α) → Prop
  | [] => False
  | f :: _ => f.color = .black

/-- A black tree of black height `n` in the hole makes a red-black tree. -/
def PathValid : List (Frame α) → ℕ → Prop
  | [], _ => True
  | f :: fs, n => f.sibling.Valid n ∧
    match f.color with
    | .red => f.sibling.color = .black ∧ AllowsRed fs ∧ PathValid fs n
    | .black => PathValid fs (n + 1)

variable {fs gs : List (Frame α)} {f : Frame α} {t t' a b : RbTree α} {n : ℕ} {d : Side}
  {c : Color} {x z : α}

theorem plug_append (fs gs : List (Frame α)) (t : RbTree α) :
    plug (fs ++ gs) t = plug gs (plug fs t) := by
  induction fs generalizing t with
  | nil => rfl
  | cons f fs ih => exact ih (f.fill t)

/-- The hole moves to the child on side `d`. -/
theorem plug_near (fs : List (Frame α)) (d : Side) (c : Color) (x : α) (s t : RbTree α) :
    plug fs (branch d c t x s) = plug (⟨d, c, x, s⟩ :: fs) t := rfl

/-- The hole moves to the child on the side opposite to `d`. -/
theorem plug_far (fs : List (Frame α)) (d : Side) (c : Color) (x : α) (s t : RbTree α) :
    plug fs (branch d c s x t) = plug (⟨d.other, c, x, s⟩ :: fs) t := by
  rw [plug, Frame.fill, branch_other]

/-- Trees with the same nodes in order are exchangeable in a hole. -/
theorem toList_plug_congr (fs : List (Frame α)) (h : t'.toList = t.toList) :
    (plug fs t').toList = (plug fs t).toList := by
  induction fs generalizing t t' with
  | nil => exact h
  | cons f fs ih => exact ih (toList_branch_congr _ _ _ _ _ _ h rfl)

/-- The nodes on one side of the hole and on the other, in order. -/
theorem exists_toList_plug (fs : List (Frame α)) :
    ∃ before after, ∀ t, (plug fs t).toList = before ++ t.toList ++ after := by
  induction fs with
  | nil => exact ⟨[], [], fun t => by simp [plug]⟩
  | cons f fs ih =>
    obtain ⟨before, after, heq⟩ := ih
    obtain ⟨d, c, x, s⟩ := f
    cases d with
    | left =>
      refine ⟨before, x :: s.toList ++ after, fun t => ?_⟩
      rw [plug, heq]
      simp [Frame.fill, branch, toList]
    | right =>
      refine ⟨before ++ s.toList ++ [x], after, fun t => ?_⟩
      rw [plug, heq]
      simp [Frame.fill, branch, toList]

/-- The nodes after the hole, seen from side `d`. -/
def nodesAfter (d : Side) : List (Frame α) → List α
  | [] => []
  | f :: fs =>
    if f.side = d then f.value :: (f.sibling.listFrom d ++ nodesAfter d fs) else nodesAfter d fs

/-- The order of the nodes of a tree with a hole. -/
theorem exists_listFrom_plug (d : Side) (fs : List (Frame α)) (t : RbTree α) :
    ∃ before, (plug fs t).listFrom d = before ++ t.listFrom d ++ nodesAfter d fs := by
  induction fs generalizing t with
  | nil => exact ⟨[], by simp [plug, nodesAfter]⟩
  | cons f fs ih =>
    obtain ⟨before, heq⟩ := ih (f.fill t)
    obtain ⟨e, c, x, s⟩ := f
    rcases Side.eq_or_eq_other d e with rfl | rfl
    · refine ⟨before, ?_⟩
      rw [plug, heq, Frame.fill, listFrom_branch, nodesAfter, if_pos rfl]
      simp
    · refine ⟨before ++ s.listFrom d ++ [x], ?_⟩
      rw [plug, heq, Frame.fill, branch_other, listFrom_branch, nodesAfter,
        if_neg d.other_ne]
      simp

/-- Below a path that turns to side `d` only, the nodes of the hole come first. -/
theorem exists_listFrom_spine {gs : List (Frame α)} (h : ∀ g ∈ gs, g.side = d) :
    ∃ after, ∀ t : RbTree α, (plug gs t).listFrom d = t.listFrom d ++ after := by
  induction gs with
  | nil => exact ⟨[], fun t => by simp [plug]⟩
  | cons g gs ih =>
    obtain ⟨after, heq⟩ := ih fun g hg => h g (List.mem_cons_of_mem _ hg)
    refine ⟨g.value :: (g.sibling.listFrom d ++ after), fun t => ?_⟩
    rw [plug, heq, Frame.fill, h g List.mem_cons_self, listFrom_branch]
    simp

theorem exists_plug_of_mem {t : RbTree α} (h : x ∈ t.toList) :
    ∃ fs c l r, t = plug fs (node c l x r) := by
  induction t with
  | leaf => exact absurd h List.not_mem_nil
  | node c l y r ihl ihr =>
    rw [toList, List.mem_append, List.mem_cons] at h
    rcases h with h | rfl | h
    · obtain ⟨fs, c', l', r', rfl⟩ := ihl h
      exact ⟨fs ++ [⟨.left, c, y, r⟩], c', l', r', by rw [plug_append]; rfl⟩
    · exact ⟨[], c, l, r, rfl⟩
    · obtain ⟨fs, c', l', r', rfl⟩ := ihr h
      exact ⟨fs ++ [⟨.right, c, y, l⟩], c', l', r', by rw [plug_append]; rfl⟩

theorem toList_plug_perm (fs : List (Frame α)) (t : RbTree α) :
    (plug fs t).toList.Perm (pathNodes fs ++ t.toList) := by
  induction fs generalizing t with
  | nil => exact List.Perm.refl _
  | cons f fs ih =>
    refine (ih (f.fill t)).trans ?_
    obtain ⟨d, c, x, s⟩ := f
    have hfill : (Frame.fill ⟨d, c, x, s⟩ t).toList.Perm (x :: (s.toList ++ t.toList)) := by
      cases d with
      | left =>
        exact List.perm_middle.trans (List.perm_append_comm.cons x)
      | right => exact List.perm_middle
    refine (hfill.append_left _).trans ?_
    refine List.perm_middle.trans ?_
    rw [pathNodes, List.cons_append, List.append_assoc, ← List.append_assoc]
    exact ((List.perm_append_comm.append_right _).trans (by rw [List.append_assoc])).cons x

theorem branch_perm (d : Side) (c : Color) (a b : RbTree α) (x : α) :
    (branch d c a x b).toList.Perm (x :: (a.toList ++ b.toList)) := by
  cases d with
  | left => exact List.perm_middle
  | right => exact List.perm_middle.trans (List.perm_append_comm.cons x)

theorem top_ne (hz : z ∉ t.toList) : t.top ≠ some z := fun h => hz (mem_of_top h)

theorem parentOf_ne (hz : z ∉ pathNodes fs) : parentOf fs ≠ some z := by
  cases fs with
  | nil => exact fun h => nomatch h
  | cons f fs =>
    intro h
    rw [← Option.some.inj h] at hz
    exact hz List.mem_cons_self

/-- The path below a tree, its parts and its root do not meet. -/
structure Apart (fs : List (Frame α)) (x : α) (a b : RbTree α) : Prop where
  path : (pathNodes fs).Nodup
  path_top : x ∉ pathNodes fs
  path_near : ∀ z ∈ a.toList, z ∉ pathNodes fs
  path_far : ∀ z ∈ b.toList, z ∉ pathNodes fs
  near : a.toList.Nodup
  far : b.toList.Nodup
  top_near : x ∉ a.toList
  top_far : x ∉ b.toList
  near_far : ∀ z ∈ a.toList, z ∉ b.toList

theorem nodup_branch_iff :
    (pathNodes fs ++ (branch d c a x b).toList).Nodup ↔ Apart fs x a b := by
  rw [((branch_perm d c a b x).append_left _).nodup_iff, List.nodup_append, List.nodup_cons,
    List.nodup_append]
  constructor
  · rintro ⟨h1, ⟨h2, h3, h4, h5⟩, h6⟩
    simp only [List.mem_cons, List.mem_append, not_or] at h2 h6
    exact ⟨h1, fun hx => h6 _ hx _ (Or.inl rfl) rfl,
      fun z hz hzp => h6 _ hzp _ (Or.inr (Or.inl hz)) rfl,
      fun z hz hzp => h6 _ hzp _ (Or.inr (Or.inr hz)) rfl, h3, h4, h2.1, h2.2,
      fun z ha hb => h5 _ ha _ hb rfl⟩
  · rintro ⟨h1, h2, h3, h4, h5, h6, h7, h8, h9⟩
    refine ⟨h1, ⟨fun hx => (List.mem_append.mp hx).elim h7 h8, h5, h6,
      fun u hu v hv huv => h9 u hu (huv ▸ hv)⟩, ?_⟩
    intro u hu v hv huv
    subst huv
    simp only [List.mem_cons, List.mem_append] at hv
    rcases hv with rfl | hv | hv
    · exact h2 hu
    · exact h3 u hv hu
    · exact h4 u hv hu

/-- The path to the hole is no longer than the tree is high. -/
theorem length_add_height_le (fs : List (Frame α)) (t : RbTree α) :
    fs.length + t.height ≤ (plug fs t).height := by
  induction fs generalizing t with
  | nil => simp [plug]
  | cons f fs ih =>
    have h := ih (f.fill t)
    have hfill : t.height + 1 ≤ (f.fill t).height := by
      unfold Frame.fill
      cases f.side <;> simp only [branch, height] <;> omega
    rw [plug, List.length_cons]
    omega

/-- A valid tree in the hole of a valid path is the whole tree, and the other way
    round: a red-black tree is valid around each of its subtrees. -/
theorem plug_isRB_iff : (plug fs t).IsRB ↔
    ∃ n, PathValid fs n ∧ t.Valid n ∧ (t.color = .red → AllowsRed fs) := by
  induction fs generalizing t with
  | nil =>
    constructor
    · rintro ⟨hc, n, hn⟩
      exact ⟨n, trivial, hn, fun hr => nomatch hc.symm.trans hr⟩
    · rintro ⟨n, -, hn, hc⟩
      exact ⟨Color.eq_black_of_ne hc, n, hn⟩
  | cons f fs ih =>
    rw [plug, ih]
    obtain ⟨d, c, x, s⟩ := f
    cases c with
    | red =>
      constructor
      · rintro ⟨n, hp, hn, hc⟩
        obtain ⟨ht, hs, hvt, hvs⟩ := valid_branch_red.mp hn
        exact ⟨n, ⟨hvs, hs, hc (color_branch ..), hp⟩, hvt, fun hr => nomatch ht.symm.trans hr⟩
      · rintro ⟨n, ⟨hvs, hs, ha, hp⟩, hn, hc⟩
        have ht : t.color = .black := Color.eq_black_of_ne fun hr => nomatch hc hr
        exact ⟨n, hp, valid_branch_red.mpr ⟨ht, hs, hn, hvs⟩, fun _ => ha⟩
    | black =>
      constructor
      · rintro ⟨m, hp, hm, -⟩
        cases m with
        | zero =>
          cases d with
          | left => exact absurd hm id
          | right => exact absurd hm id
        | succ n =>
          obtain ⟨hvt, hvs⟩ := valid_branch_black.mp hm
          exact ⟨n, ⟨hvs, hp⟩, hvt, fun _ => rfl⟩
      · rintro ⟨n, ⟨hvs, hp⟩, hn, -⟩
        exact ⟨n + 1, hp, valid_branch_black.mpr ⟨hn, hvs⟩, fun hr =>
          nomatch hr.symm.trans (color_branch ..)⟩

/-- The balance of a path does not depend on its nodes. -/
theorem PathValid.congr_value {gs fs : List (Frame α)} {s : RbTree α} (x y : α)
    (h : PathValid (gs ++ ⟨d, c, x, s⟩ :: fs) n) : PathValid (gs ++ ⟨d, c, y, s⟩ :: fs) n := by
  induction gs generalizing n with
  | nil => exact h
  | cons g gs ih =>
    obtain ⟨e, cg, z, u⟩ := g
    cases cg with
    | red =>
      obtain ⟨hu, huc, hallow, hp⟩ := h
      refine ⟨hu, huc, ?_, ih hp⟩
      cases gs <;> exact hallow
    | black => exact ⟨h.1, ih h.2⟩

theorem plug_isRB_of_black (hp : PathValid fs n) (hv : t.Valid n) (hc : t.color = .black) :
    (plug fs t).IsRB :=
  plug_isRB_iff.mpr ⟨n, hp, hv, fun hr => nomatch hc.symm.trans hr⟩

end Mcelog.Common
