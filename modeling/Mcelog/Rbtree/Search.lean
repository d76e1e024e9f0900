import Mcelog.Common.SearchTree
import Mcelog.Rbtree.Sequence

/-!
# Searching by key

The users of `rbtree.c` write their own search loops. These are the two of `page.c`,
over any linear order of keys; the key of a node lives outside the tree.

* `Represents.search`: the loop of a lookup is the descent by key.
* `Represents.findPlace`: the loop of an insertion ends at a free link.
* `Represents.insert_ordered`: an insertion at that link keeps the nodes in the order
  of their keys.
-/

namespace Mcelog.Rbtree

open Mcelog.Common RbTree

variable {α κ : Type*} [LT κ] [DecidableLT κ]

/-- The loop of `mempage_lookup` (page.c:123-138). -/
def search (key : α → κ) (k : κ) (h : RbHeap α) : ℕ → Option α → Option (Option α)
  | _, none => some none
  | 0, some _ => none
  | fuel + 1, some n =>
    if k < key n then search key k h fuel (h.node n).rbLeft
    else if key n < k then search key k h fuel (h.node n).rbRight
    else some (some n)

/-- Where the loop of an insertion ends. -/
inductive Place (α : Type*)
  /-- at a node with the key -/
  | found (node : α)
  /-- at a NULL pointer -/
  | free (link : Option (α × Side))
  deriving DecidableEq, Repr

/-- The loop of `mempage_insert_lookup` (page.c:143-162), with the link that it came
    by. -/
def findPlace (key : α → κ) (k : κ) (h : RbHeap α) :
    ℕ → Option α → Option (α × Side) → Option (Place α)
  | _, none, link => some (.free link)
  | 0, some _, _ => none
  | fuel + 1, some n, _ =>
    if k < key n then findPlace key k h fuel (h.node n).rbLeft (some (n, .left))
    else if key n < k then findPlace key k h fuel (h.node n).rbRight (some (n, .right))
    else some (.found n)

/-- The tree without its colours. -/
def forget : RbTree α → SearchTree α
  | .leaf => .leaf
  | .node _ l x r => .node (forget l) x (forget r)

@[simp] theorem toList_forget (t : RbTree α) : (forget t).toList = t.toList := by
  induction t with
  | leaf => rfl
  | node c l x r ihl ihr => simp [forget, SearchTree.toList, toList, ihl, ihr]

variable {h : RbHeap α} {fs : List (Frame α)} {t : RbTree α} {key : α → κ} {k : κ} {x : α}
  {fuel : ℕ}

theorem node_fields {c : Color} {l r : RbTree α} (hr : Represents h (plug fs (node c l x r))) :
    (h.node x).rbLeft = l.top ∧ (h.node x).rbRight = r.top ∧
      Represents h (plug (⟨.left, c, x, r⟩ :: fs) l) ∧
      Represents h (plug (⟨.right, c, x, l⟩ :: fs) r) := by
  have hx : h.node x = .of .left l.top r.top (parentOf fs) c := Represents.node_eq (d := .left) hr
  rw [hx]
  exact ⟨rfl, rfl, hr, hr⟩

/-- The loop of a lookup is the descent by key. -/
theorem Represents.search (hr : Represents h (plug fs t)) (hfuel : t.height ≤ fuel) :
    Rbtree.search key k h fuel t.top = some ((forget t).lookup key k) := by
  induction t generalizing fs fuel with
  | leaf => cases fuel <;> rfl
  | node c l y r ihl ihr =>
    cases fuel with
    | zero => exact absurd hfuel (by rw [height]; omega)
    | succ fuel =>
      obtain ⟨hleft, hright, hl, hrr⟩ := node_fields hr
      rw [height] at hfuel
      rw [top, Rbtree.search, forget, SearchTree.lookup, hleft, hright]
      split_ifs with h1 h2
      · exact ihl hl (by omega)
      · exact ihr hrr (by omega)
      · rfl

/-- The loop of an insertion with a new key ends at the link where the new node goes. -/
theorem Represents.findPlace (hr : Represents h (plug fs t)) (hfuel : t.height ≤ fuel)
    (hnew : ((forget t).link key k x).2 = none) :
    ∃ gs : List (Frame α), t = plug gs leaf ∧
      Rbtree.findPlace key k h fuel t.top (linkOf fs) = some (.free (linkOf (gs ++ fs))) ∧
      (plug gs (branch .left .red leaf x leaf)).toList = ((forget t).link key k x).1.toList := by
  induction t generalizing fs fuel with
  | leaf => exact ⟨[], rfl, by cases fuel <;> rfl, rfl⟩
  | node c l y r ihl ihr =>
    cases fuel with
    | zero => exact absurd hfuel (by rw [height]; omega)
    | succ fuel =>
      obtain ⟨hleft, hright, hl, hrr⟩ := node_fields hr
      rw [height] at hfuel
      have hfl : l.height ≤ fuel := by omega
      have hfr : r.height ≤ fuel := by omega
      rw [forget, SearchTree.link] at hnew ⊢
      rw [top, Rbtree.findPlace, hleft, hright]
      split_ifs at hnew ⊢ with h1 h2
      · obtain ⟨gs, rfl, hrun, hlist⟩ := ihl hl hfl hnew
        refine ⟨gs ++ [⟨.left, c, y, r⟩], by rw [plug_append]; rfl, ?_, ?_⟩
        · rw [List.append_assoc]
          exact hrun
        · rw [plug_append]
          show (node c _ y r).toList = _
          simp [toList, SearchTree.toList, hlist]
      · obtain ⟨gs, rfl, hrun, hlist⟩ := ihr hrr hfr hnew
        refine ⟨gs ++ [⟨.right, c, y, l⟩], by rw [plug_append]; rfl, ?_, ?_⟩
        · rw [List.append_assoc]
          exact hrun
        · rw [plug_append]
          show (node c l y _).toList = _
          simp [toList, SearchTree.toList, hlist]

section Ordered

variable [DecidableEq α] [LE κ] [Std.IsLinearOrder κ] [Std.LawfulOrderLT κ]

/-- An insertion with a new key keeps the nodes in the order of their keys: the new
    sequence is the one that linking the node in the uncoloured tree gives. -/
theorem Represents.insert_ordered (hr : Represents h t) (hrb : t.IsRB)
    (hord : (forget t).Ordered key) (hk : key x = k) (hnew : ∀ y ∈ t.toList, key y ≠ k)
    (hfuel : t.height < fuel) :
    ∃ link h' t', Rbtree.findPlace key k h fuel h.rbNode none = some (.free link) ∧
      rbInsertColor fuel (rbLinkNode h x link) x = some h' ∧ Represents h' t' ∧ t'.IsRB ∧
      t'.toList = ((forget t).link key k x).1.toList := by
  obtain ⟨hnone, -, -⟩ := hord.link_spec hk (by rwa [toList_forget])
  have hroot : Represents h (plug [] t) := hr
  obtain ⟨gs, heq, hplace, hlist⟩ := hroot.findPlace hfuel.le hnone
  rw [List.append_nil] at hplace
  have hx : x ∉ pathNodes gs := fun hmem => by
    refine hnew x ?_ hk
    rw [heq, (toList_plug_perm gs _).mem_iff]
    exact List.mem_append_left _ hmem
  have hlen := length_add_height_le gs (leaf : RbTree α)
  rw [← heq] at hlen
  have hr' : Represents h (plug gs leaf) := heq ▸ hr
  obtain ⟨h', t', hrun, hr₁, hlist₁, hrb₁⟩ := hr'.insertColor (x := x)
    (lt_of_le_of_lt ((Nat.le_add_right _ _).trans hlen) hfuel) (heq ▸ hrb) hx
  refine ⟨linkOf gs, h', t', ?_, hrun, hr₁, hrb₁, hlist₁.trans hlist⟩
  rw [hr.root]
  exact hplace

end Ordered

end Mcelog.Rbtree
