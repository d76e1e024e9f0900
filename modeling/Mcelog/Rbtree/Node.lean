import Mcelog.Common.RbTree
import Mathlib.Logic.Function.Basic

/-!
# The red-black tree of the kernel

Model of `rbtree.c` and `rbtree.h` on a heap of nodes. A pointer that may be NULL
is an `Option`; reading through a NULL pointer gives no result. The two branches
of each function that are mirror images are one definition with the side as its
parameter. `fuel` bounds the steps of a loop; a loop that runs out of it gives no
result.

* `pack_spec`: the parent pointer and the colour that share a word do not disturb
  each other.
-/

namespace Mcelog.Rbtree

open Mcelog.Common

/-! ## The word of parent and colour -/

/-- `rb_parent` (rbtree.h:119). -/
def rbParent (word : BitVec 64) : BitVec 64 := word &&& ~~~3#64

/-- `rb_color` (rbtree.h:120). -/
def rbColor (word : BitVec 64) : BitVec 64 := word &&& 1#64

/-- `rb_set_parent` (rbtree.h:126-129). -/
def rbSetParent (word p : BitVec 64) : BitVec 64 := (word &&& 3#64) ||| p

/-- `rb_set_color` (rbtree.h:130-133); `rb_set_red` and `rb_set_black` are this with
    a constant. -/
def rbSetColor (word color : BitVec 64) : BitVec 64 := (word &&& ~~~1#64) ||| color

/-- `RB_RED`, `RB_BLACK` (rbtree.h:106-107). -/
def colorWord : Color → BitVec 64
  | .red => 0
  | .black => 1

/-- The word with the parent pointer `p` and the colour `c`. -/
def pack (p : BitVec 64) (c : Color) : BitVec 64 := p ||| colorWord c

/-- A pointer to a node has its two low bits free. -/
def Aligned (p : BitVec 64) : Prop := p &&& 3#64 = 0

theorem getLsbD_three (i : ℕ) : (3#64).getLsbD i = decide (i < 2) := by
  match i with
  | 0 => rfl
  | 1 => rfl
  | i + 2 =>
    rw [BitVec.getLsbD_ofNat]
    simp [Nat.testBit_succ]

theorem getLsbD_one (i : ℕ) : (1#64).getLsbD i = decide (i = 0) := by
  match i with
  | 0 => rfl
  | i + 1 =>
    rw [BitVec.getLsbD_ofNat]
    simp [Nat.testBit_succ]

theorem Aligned.getLsbD {p : BitVec 64} (h : Aligned p) {i : ℕ} (hi : i < 2) :
    p.getLsbD i = false := by
  have hbit := congrArg (fun w : BitVec 64 => w.getLsbD i) h
  rw [BitVec.getLsbD_and, getLsbD_three, decide_eq_true hi, Bool.and_true] at hbit
  exact hbit.trans BitVec.getLsbD_zero

theorem getLsbD_colorWord (c : Color) (i : ℕ) :
    (colorWord c).getLsbD i = (decide (i = 0) && decide (c = .black)) := by
  cases c with
  | red => simp [colorWord]
  | black =>
    rw [colorWord, show (1 : BitVec 64) = 1#64 from rfl, getLsbD_one]
    simp

/-- The word holds the two parts apart, and a change of one leaves the other. -/
theorem pack_spec {p q : BitVec 64} (hp : Aligned p) (hq : Aligned q) (c c' : Color) :
    rbParent (pack p c) = p ∧ rbColor (pack p c) = colorWord c ∧
      rbSetParent (pack p c) q = pack q c ∧ rbSetColor (pack p c) (colorWord c') = pack p c' := by
  have hlow : ∀ i < 2, p.getLsbD i = false ∧ q.getLsbD i = false := fun i hi =>
    ⟨hp.getLsbD hi, hq.getLsbD hi⟩
  refine ⟨?_, ?_, ?_, ?_⟩
  all_goals
    apply BitVec.eq_of_getLsbD_eq
    intro i hi
    have hi2 := hlow i
    simp only [rbParent, rbColor, rbSetParent, rbSetColor, pack, BitVec.getLsbD_and,
      BitVec.getLsbD_or, BitVec.getLsbD_not, getLsbD_three, getLsbD_one, getLsbD_colorWord, hi,
      decide_true, Bool.true_and]
    by_cases h2 : i < 2
    · obtain ⟨h3, h4⟩ := hi2 h2
      by_cases h0 : i = 0 <;> simp_all
    · have h0 : i ≠ 0 := by omega
      simp [h0, h2]

/-! ## Nodes and the heap -/

/-- `struct rb_node` (rbtree.h:104-111). -/
structure RbNode (α : Type*) where
  rbRight : Option α
  rbLeft : Option α
  parent : Option α
  color : Color
  deriving DecidableEq, Repr

namespace RbNode

variable {α : Type*}

/-- `rb_left` or `rb_right`. -/
def child (d : Side) (n : RbNode α) : Option α :=
  match d with
  | .left => n.rbLeft
  | .right => n.rbRight

/-- Assign to `rb_left` or `rb_right`. -/
def setChild (d : Side) (p : Option α) (n : RbNode α) : RbNode α :=
  match d with
  | .left => { n with rbLeft := p }
  | .right => { n with rbRight := p }

/-- The node with the child `near` on side `d` and `far` on the other. -/
def of (d : Side) (near far parent : Option α) (color : Color) : RbNode α :=
  match d with
  | .left => { rbRight := far, rbLeft := near, parent := parent, color := color }
  | .right => { rbRight := near, rbLeft := far, parent := parent, color := color }

variable (d : Side) (near far p q : Option α) (c : Color)

@[simp] theorem child_of : (of d near far p c).child d = near := by
  cases d <;> rfl

@[simp] theorem child_other_of : (of d near far p c).child d.other = far := by
  cases d <;> rfl

@[simp] theorem parent_of : (of d near far p c).parent = p := by
  cases d <;> rfl

@[simp] theorem color_of : (of d near far p c).color = c := by
  cases d <;> rfl

@[simp] theorem setChild_of : (of d near far p c).setChild d q = of d q far p c := by
  cases d <;> rfl

@[simp] theorem setChild_other_of : (of d near far p c).setChild d.other q = of d near q p c := by
  cases d <;> rfl

theorem of_other : of d.other near far p c = of d far near p c := by
  cases d <;> rfl

@[simp] theorem of_with_parent : { of d near far p c with parent := q } = of d near far q c := by
  cases d <;> rfl

@[simp] theorem of_with_color (c' : Color) :
    { of d near far p c with color := c' } = of d near far p c' := by
  cases d <;> rfl

end RbNode

/-- The nodes and a `struct rb_root` (rbtree.h:113-116). -/
structure RbHeap (α : Type*) where
  node : α → RbNode α
  rbNode : Option α

variable {α : Type*} [DecidableEq α]

/-- `RB_ROOT` (rbtree.h:135): the tree is empty. -/
def RbHeap.empty (node : α → RbNode α) : RbHeap α := { node := node, rbNode := none }

/-- Change a node. -/
def RbHeap.modify (h : RbHeap α) (x : α) (f : RbNode α → RbNode α) : RbHeap α :=
  { h with node := Function.update h.node x (f (h.node x)) }

/-- `rb_set_parent(x, p)` -/
def RbHeap.setParent (h : RbHeap α) (x : α) (p : Option α) : RbHeap α :=
  h.modify x fun n => { n with parent := p }

/-- `rb_set_color(x, c)`, `rb_set_red(x)`, `rb_set_black(x)` -/
def RbHeap.setColor (h : RbHeap α) (x : α) (c : Color) : RbHeap α :=
  h.modify x fun n => { n with color := c }

/-- `if (p) rb_set_parent(p, q)` -/
def RbHeap.adopt (h : RbHeap α) (p q : Option α) : RbHeap α :=
  match p with
  | none => h
  | some x => h.setParent x q

/-- `!p || rb_is_black(p)` -/
def RbHeap.blackOrNull (h : RbHeap α) (p : Option α) : Bool :=
  match p with
  | none => true
  | some x => (h.node x).color = .black

/-- Let the node above `old`, or the root, point to `new`; the child on side `d` is
    compared first. -/
def RbHeap.relink (h : RbHeap α) (d : Side) (parent : Option α) (old : α) (new : Option α) :
    RbHeap α :=
  match parent with
  | none => { h with rbNode := new }
  | some p =>
    if (h.node p).child d = some old then h.modify p (·.setChild d new)
    else h.modify p (·.setChild d.other new)

/-! ## Rotation -/

/-- Rotate towards side `d`. -/
def rotate (d : Side) (h : RbHeap α) (node : α) : Option (RbHeap α) := do
  let pivot ← (h.node node).child d.other
  let parent := (h.node node).parent
  let inner := (h.node pivot).child d
  let h := h.modify node (·.setChild d.other inner)
  let h := h.adopt inner (some node)
  let h := h.modify pivot (·.setChild d (some node))
  let h := h.setParent pivot parent
  let h := h.relink d parent node (some pivot)
  some (h.setParent node (some pivot))

/-- `__rb_rotate_left` (rbtree.c:26-47). -/
def rbRotateLeft (h : RbHeap α) (node : α) : Option (RbHeap α) := rotate .left h node

/-- `__rb_rotate_right` (rbtree.c:49-70). -/
def rbRotateRight (h : RbHeap α) (node : α) : Option (RbHeap α) := rotate .right h node

/-! ## Insertion -/

/-- `rb_link_node` (rbtree.h:155-162). The link is the root pointer or a child of
    `parent`. -/
def rbLinkNode (h : RbHeap α) (node : α) (link : Option (α × Side)) : RbHeap α :=
  let h := h.modify node fun _ =>
    { rbRight := none, rbLeft := none, parent := link.map Prod.fst, color := .red }
  match link with
  | none => { h with rbNode := some node }
  | some (parent, d) => h.modify parent (·.setChild d (some node))

/-- The rotations of `rb_insert_color` (rbtree.c:94-105, 119-130), with `parent` the
    child of `gparent` on side `d`. The nodes `parent` and `node` are exchanged after
    the first rotation; the loop goes on with `node`. -/
def insertRotate (d : Side) (h : RbHeap α) (node parent gparent : α) :
    Option (RbHeap α × α) := do
  let (h, node, parent) ←
    if (h.node parent).child d.other = some node then do
      let h ← rotate d h parent
      some (h, parent, node)
    else some (h, node, parent)
  let h := h.setColor parent .black
  let h := h.setColor gparent .red
  let h ← rotate d.other h gparent
  some (h, node)

/-- The loop of `rb_insert_color` (rbtree.c:76-132). -/
def insertLoop : ℕ → RbHeap α → α → Option (RbHeap α)
  | 0, _, _ => none
  | fuel + 1, h, node =>
    match (h.node node).parent with
    | none => some h
    | some parent =>
      if (h.node parent).color = .red then do
        let gparent ← (h.node parent).parent
        let d := if (h.node gparent).rbLeft = some parent then Side.left else Side.right
        match (h.node gparent).child d.other with
        | some uncle =>
          if (h.node uncle).color = .red then
            let h := h.setColor uncle .black
            let h := h.setColor parent .black
            insertLoop fuel (h.setColor gparent .red) gparent
          else do
            let (h, node) ← insertRotate d h node parent gparent
            insertLoop fuel h node
        | none => do
          let (h, node) ← insertRotate d h node parent gparent
          insertLoop fuel h node
      else some h

/-- `rb_insert_color` (rbtree.c:72-135). -/
def rbInsertColor (fuel : ℕ) (h : RbHeap α) (node : α) : Option (RbHeap α) := do
  let h ← insertLoop fuel h node
  let root ← h.rbNode
  some (h.setColor root .black)

/-! ## Deletion -/

/-- A red sibling is rotated away (rbtree.c:146-153, 180-187): the heap and the new
    `other`. -/
def blackSibling (d : Side) (h : RbHeap α) (parent : α) : Option (RbHeap α × α) := do
  let other ← (h.node parent).child d.other
  if (h.node other).color = .red then do
    let h := h.setColor other .black
    let h := h.setColor parent .red
    let h ← rotate d h parent
    let other ← (h.node parent).child d.other
    some (h, other)
  else some (h, other)

/-- The rotations that end the loop of `__rb_erase_color` (rbtree.c:163-173, 197-207),
    with a red node below `other`. -/
def eraseRotate (d : Side) (h : RbHeap α) (parent other : α) : Option (RbHeap α) := do
  let (h, other) ←
    if h.blackOrNull ((h.node other).child d.other) then do
      let near ← (h.node other).child d
      let h := h.setColor near .black
      let h := h.setColor other .red
      let h ← rotate d.other h other
      let other ← (h.node parent).child d.other
      some (h, other)
    else some (h, other)
  let h := h.setColor other (h.node parent).color
  let h := h.setColor parent .black
  let far ← (h.node other).child d.other
  let h := h.setColor far .black
  rotate d h parent

/-- The loop of `__rb_erase_color` (rbtree.c:142-212): the heap and the last `node`. -/
def eraseLoop : ℕ → RbHeap α → Option α → Option α → Option (RbHeap α × Option α)
  | 0, _, _, _ => none
  | fuel + 1, h, node, parent =>
    if h.blackOrNull node = true ∧ node ≠ h.rbNode then do
      let parent ← parent
      let d := if (h.node parent).rbLeft = node then Side.left else Side.right
      let (h, other) ← blackSibling d h parent
      if h.blackOrNull (h.node other).rbLeft && h.blackOrNull (h.node other).rbRight then
        let h := h.setColor other .red
        eraseLoop fuel h (some parent) (h.node parent).parent
      else do
        let h ← eraseRotate d h parent other
        some (h, h.rbNode)
    else some (h, node)

/-- `__rb_erase_color` (rbtree.c:137-215). -/
def rbEraseColor (fuel : ℕ) (h : RbHeap α) (node parent : Option α) : Option (RbHeap α) := do
  let (h, node) ← eraseLoop fuel h node parent
  match node with
  | none => some h
  | some node => some (h.setColor node .black)

/-- `while (n->child) n = n->child` -/
def descend (d : Side) (h : RbHeap α) : ℕ → α → Option α
  | 0, _ => none
  | fuel + 1, n =>
    match (h.node n).child d with
    | none => some n
    | some n => descend d h fuel n

/-- What an unlinking leaves for the rebalancing: the heap, `child`, `parent` and
    `color`. -/
structure Unlinked (α : Type*) where
  heap : RbHeap α
  child : Option α
  parent : Option α
  color : Color

/-- A node with one child at most is replaced by the child (rbtree.c:264-277). -/
def unlink (h : RbHeap α) (node : α) (child : Option α) : Unlinked α :=
  let parent := (h.node node).parent
  let color := (h.node node).color
  let h := h.adopt child parent
  { heap := h.relink .left parent node child, child := child, parent := parent, color := color }

/-- A node with two children is replaced by the next node in order, which is unlinked
    from its place first (rbtree.c:228-261). -/
def unlinkNext (fuel : ℕ) (h : RbHeap α) (old right : α) : Option (Unlinked α) := do
  let node ← descend .left h fuel right
  let child := (h.node node).rbRight
  let parent ← (h.node node).parent
  let color := (h.node node).color
  let h := h.adopt child (some parent)
  let (h, parent) :=
    if parent = old then (h.modify parent (·.setChild .right child), node)
    else (h.modify parent (·.setChild .left child), parent)
  let h := h.modify node fun n =>
    { n with parent := (h.node old).parent, color := (h.node old).color }
  let h := h.modify node fun n => { n with rbRight := (h.node old).rbRight }
  let h := h.modify node fun n => { n with rbLeft := (h.node old).rbLeft }
  let h := h.relink .left (h.node old).parent old (some node)
  let left ← (h.node old).rbLeft
  let h := h.setParent left (some node)
  let h := h.adopt (h.node old).rbRight (some node)
  some { heap := h, child := child, parent := some parent, color := color }

/-- `rb_erase` (rbtree.c:217-282). -/
def rbErase (fuel : ℕ) (h : RbHeap α) (node : α) : Option (RbHeap α) := do
  let u ←
    match (h.node node).rbLeft, (h.node node).rbRight with
    | none, child => some (unlink h node child)
    | some child, none => some (unlink h node (some child))
    | some _, some right => unlinkNext fuel h node right
  if u.color = .black then rbEraseColor fuel u.heap u.child u.parent else some u.heap

/-- `rb_replace_node` (rbtree.c:363-384). -/
def rbReplaceNode (h : RbHeap α) (victim new : α) : RbHeap α :=
  let parent := (h.node victim).parent
  let h := h.relink .left parent victim (some new)
  let h := h.adopt (h.node victim).rbLeft (some new)
  let h := h.adopt (h.node victim).rbRight (some new)
  h.modify new fun _ => h.node victim

/-! ## Walking -/

/-- The first node as seen from side `d`; there is none in an empty tree. -/
def extreme (d : Side) (fuel : ℕ) (h : RbHeap α) : Option (Option α) :=
  match h.rbNode with
  | none => some none
  | some n => (descend d h fuel n).map some

/-- `rb_first` (rbtree.c:287-297). -/
def rbFirst (fuel : ℕ) (h : RbHeap α) : Option (Option α) := extreme .left fuel h

/-- `rb_last` (rbtree.c:299-309). -/
def rbLast (fuel : ℕ) (h : RbHeap α) : Option (Option α) := extreme .right fuel h

/-- `while ((parent = rb_parent(node)) && node == parent->child) node = parent` -/
def climb (d : Side) (h : RbHeap α) : ℕ → α → Option (Option α)
  | 0, _ => none
  | fuel + 1, n =>
    match (h.node n).parent with
    | none => some none
    | some parent =>
      if (h.node parent).child d = some n then climb d h fuel parent else some (some parent)

/-- The node after `node` as seen from side `d`; NULL after the last one. -/
def neighbour (d : Side) (fuel : ℕ) (h : RbHeap α) (node : α) : Option (Option α) :=
  if (h.node node).parent = some node then some none
  else
    match (h.node node).child d.other with
    | some n => (descend d h fuel n).map some
    | none => climb d.other h fuel node

/-- `rb_next` (rbtree.c:311-337). -/
def rbNext (fuel : ℕ) (h : RbHeap α) (node : α) : Option (Option α) := neighbour .left fuel h node

/-- `rb_prev` (rbtree.c:339-361). -/
def rbPrev (fuel : ℕ) (h : RbHeap α) (node : α) : Option (Option α) := neighbour .right fuel h node

end Mcelog.Rbtree
