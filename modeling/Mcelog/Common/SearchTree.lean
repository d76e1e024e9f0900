import Mathlib.Data.List.Basic

/-!
# Search trees with a rebalancing step

Binary trees of nodes that are ordered by a key function, as an intrusive
red-black tree keeps them: the keys live outside the tree. `Rebalance` stands
for the rebalancing operations of such a library; what its callers rely on is
that only the shape of the tree changes.

* `SearchTree.lookup`, `SearchTree.link`: the descent by key.
* `lookup_of_toList_singleton`: lookup in a tree of one node.
* `Ordered key t`: the keys grow from left to right.
* `Ordered.lookup_eq_some_iff`: in an ordered tree the descent finds every node.
* `Ordered.lookup_eq_find?`: it is a search among the nodes in any order.
* `Ordered.link_spec`: linking puts a node with a new key in its place.
-/

namespace Mcelog.Common

/-- A binary tree. -/
inductive SearchTree (α : Type*)
  | leaf
  | node (left : SearchTree α) (value : α) (right : SearchTree α)
  deriving DecidableEq, Repr

namespace SearchTree

variable {α κ : Type*} [LT κ]

/-- The nodes from left to right. -/
def toList : SearchTree α → List α
  | leaf => []
  | node l x r => l.toList ++ x :: r.toList

/-- Descend to the node whose key equals `k`. -/
def lookup [DecidableLT κ] (key : α → κ) (k : κ) : SearchTree α → Option α
  | leaf => none
  | node l x r =>
    if k < key x then l.lookup key k else if key x < k then r.lookup key k else some x

/-- Descend to the place of `k` and link the node `x` there; a node that has the
    key `k` already is returned instead. -/
def link [DecidableLT κ] (key : α → κ) (k : κ) (x : α) : SearchTree α → SearchTree α × Option α
  | leaf => (node leaf x leaf, none)
  | node l y r =>
    if k < key y then
      let (l, found) := l.link key k x
      (node l y r, found)
    else if key y < k then
      let (r, found) := r.link key k x
      (node l y r, found)
    else (node l y r, some y)

/-- The tree with these nodes in a right spine. -/
def ofList : List α → SearchTree α
  | [] => leaf
  | x :: xs => node leaf x (ofList xs)

theorem toList_ofList (l : List α) : (ofList l).toList = l := by
  induction l with
  | nil => rfl
  | cons x xs ih => simp [ofList, toList, ih]

theorem eq_of_toList_singleton {t : SearchTree α} {x : α} (h : t.toList = [x]) :
    t = node leaf x leaf := by
  have hleaf : ∀ t : SearchTree α, t.toList = [] → t = leaf := by
    intro t ht
    cases t with
    | leaf => rfl
    | node l y r => simp [toList] at ht
  cases t with
  | leaf => simp [toList] at h
  | node l y r =>
    rw [toList, List.append_eq_cons_iff] at h
    rcases h with ⟨hl, hr⟩ | ⟨zs, -, hzs⟩
    · obtain ⟨hy, hr⟩ := List.cons_eq_cons.mp hr
      rw [hleaf l hl, hleaf r hr, hy]
    · simp at hzs

/-- Lookup in a tree of one node compares the keys. -/
theorem lookup_of_toList_singleton [DecidableLT κ] {key : α → κ} {k : κ} {t : SearchTree α} {x : α}
    (h : t.toList = [x]) :
    t.lookup key k = if k < key x then none else if key x < k then none else some x := by
  rw [eq_of_toList_singleton h]
  rfl

/-! ## Ordered trees -/

/-- The keys grow from left to right. -/
def Ordered (key : α → κ) (t : SearchTree α) : Prop :=
  t.toList.Pairwise fun x y => key x < key y

section Ordered

variable {key : α → κ} {k : κ} {x : α} {l r t : SearchTree α}

theorem ordered_node_iff {y : α} : Ordered key (node l y r) ↔
    Ordered key l ∧ Ordered key r ∧ (∀ a ∈ l.toList, key a < key y) ∧
      (∀ b ∈ r.toList, key y < key b) ∧ ∀ a ∈ l.toList, ∀ b ∈ r.toList, key a < key b := by
  unfold Ordered
  rw [toList, List.pairwise_append, List.pairwise_cons]
  constructor
  · rintro ⟨hl, ⟨hy, hr⟩, hlr⟩
    exact ⟨hl, hr, fun a ha => hlr a ha y List.mem_cons_self, hy,
      fun a ha b hb => hlr a ha b (List.mem_cons_of_mem _ hb)⟩
  · rintro ⟨hl, hr, hly, hyr, hlr⟩
    refine ⟨hl, ⟨hyr, hr⟩, fun a ha b hb => ?_⟩
    rcases List.mem_cons.mp hb with rfl | hb
    · exact hly a ha
    · exact hlr a ha b hb

/-- The order depends on the keys of the nodes only. -/
theorem Ordered.congr {key' : α → κ} (h : Ordered key t)
    (heq : ∀ x ∈ t.toList, key' x = key x) : Ordered key' t := by
  refine List.Pairwise.imp_of_mem ?_ h
  intro a b ha hb hlt
  rw [heq a ha, heq b hb]
  exact hlt

theorem Ordered.nodup [LE κ] [Std.LawfulOrderLT κ] (h : Ordered key t) : t.toList.Nodup := by
  refine List.Pairwise.imp ?_ h
  rintro a b hlt rfl
  exact Std.lt_irrefl hlt

variable [DecidableLT κ] [LE κ] [Std.IsLinearOrder κ] [Std.LawfulOrderLT κ]

/-- In an ordered tree the descent finds every node by its key. -/
theorem Ordered.lookup_eq_some_iff (h : Ordered key t) :
    t.lookup key k = some x ↔ x ∈ t.toList ∧ key x = k := by
  induction t with
  | leaf => simp [lookup, toList]
  | node l y r ihl ihr =>
    obtain ⟨hl, hr, hly, hyr, -⟩ := ordered_node_iff.mp h
    have hirr : ∀ {a : κ}, ¬ a < a := Std.lt_irrefl
    rw [lookup]
    simp only [toList, List.mem_append, List.mem_cons]
    split_ifs with h1 h2
    · rw [ihl hl]
      refine ⟨fun ⟨hx, hk⟩ => ⟨Or.inl hx, hk⟩, ?_⟩
      rintro ⟨hx | rfl | hx, rfl⟩
      · exact ⟨hx, rfl⟩
      · exact absurd h1 hirr
      · exact absurd (Std.lt_trans h1 (hyr x hx)) hirr
    · rw [ihr hr]
      refine ⟨fun ⟨hx, hk⟩ => ⟨Or.inr (Or.inr hx), hk⟩, ?_⟩
      rintro ⟨hx | rfl | hx, rfl⟩
      · exact absurd (Std.lt_trans h2 (hly x hx)) hirr
      · exact absurd h2 hirr
      · exact ⟨hx, rfl⟩
    · have hk : key y = k := by
        rcases Std.lt_trichotomy k (key y) with hlt | heq | hlt
        · exact absurd hlt h1
        · exact heq.symm
        · exact absurd hlt h2
      constructor
      · intro hx
        obtain rfl := Option.some.inj hx
        exact ⟨Or.inr (Or.inl rfl), hk⟩
      · rintro ⟨hx | rfl | hx, rfl⟩
        · exact absurd (hk ▸ hly x hx) hirr
        · rfl
        · exact absurd (hk ▸ hyr x hx) hirr

theorem Ordered.lookup_eq_none_iff (h : Ordered key t) :
    t.lookup key k = none ↔ ∀ x ∈ t.toList, key x ≠ k := by
  rw [Option.eq_none_iff_forall_ne_some]
  constructor
  · intro hnone x hx hk
    exact hnone x (h.lookup_eq_some_iff.mpr ⟨hx, hk⟩)
  · intro hall x hx
    obtain ⟨hmem, hk⟩ := h.lookup_eq_some_iff.mp hx
    exact hall x hmem hk

/-- The nodes of an ordered tree have different keys. -/
theorem Ordered.key_inj {y : α} (h : Ordered key t) (hx : x ∈ t.toList) (hy : y ∈ t.toList)
    (heq : key x = key y) : x = y := by
  have hfound := h.lookup_eq_some_iff.mpr ⟨hx, heq⟩
  rw [h.lookup_eq_some_iff.mpr ⟨hy, rfl⟩] at hfound
  exact (Option.some.inj hfound).symm

/-- A lookup in an ordered tree is a search among its nodes, in any order. -/
theorem Ordered.lookup_eq_find? [DecidableEq κ] {l : List α} (h : Ordered key t)
    (hperm : t.toList.Perm l) : t.lookup key k = l.find? fun x => key x = k := by
  cases hfind : l.find? fun x => key x = k with
  | none =>
    rw [h.lookup_eq_none_iff]
    intro x hx
    simpa using List.find?_eq_none.mp hfind x (hperm.mem_iff.mp hx)
  | some x =>
    have hkey := List.find?_some hfind
    exact h.lookup_eq_some_iff.mpr
      ⟨hperm.mem_iff.mpr (List.mem_of_find?_eq_some hfind), by simpa using hkey⟩

/-- A node with a new key is linked in its place. -/
theorem Ordered.link_spec (h : Ordered key t) (hk : key x = k)
    (hnew : ∀ y ∈ t.toList, key y ≠ k) :
    (t.link key k x).2 = none ∧ Ordered key (t.link key k x).1 ∧
      (t.link key k x).1.toList.Perm (x :: t.toList) := by
  induction t with
  | leaf => exact ⟨rfl, List.pairwise_singleton _ _, List.Perm.refl _⟩
  | node l y r ihl ihr =>
    obtain ⟨hl, hr, hly, hyr, hlr⟩ := ordered_node_iff.mp h
    simp only [toList, List.mem_append, List.mem_cons] at hnew
    rw [link]
    split_ifs with h1 h2
    · obtain ⟨hnone, hord, hperm⟩ := ihl hl fun a ha => hnew a (Or.inl ha)
      have hmem : ∀ a ∈ (l.link key k x).1.toList, a = x ∨ a ∈ l.toList := fun a ha =>
        List.mem_cons.mp (hperm.mem_iff.mp ha)
      refine ⟨hnone, ordered_node_iff.mpr ⟨hord, hr, ?_, hyr, ?_⟩, hperm.append_right _⟩
      · intro a ha
        rcases hmem a ha with rfl | ha
        · rw [hk]
          exact h1
        · exact hly a ha
      · intro a ha b hb
        rcases hmem a ha with rfl | ha
        · rw [hk]
          exact Std.lt_trans h1 (hyr b hb)
        · exact hlr a ha b hb
    · obtain ⟨hnone, hord, hperm⟩ := ihr hr fun a ha => hnew a (Or.inr (Or.inr ha))
      have hmem : ∀ a ∈ (r.link key k x).1.toList, a = x ∨ a ∈ r.toList := fun a ha =>
        List.mem_cons.mp (hperm.mem_iff.mp ha)
      refine ⟨hnone, ordered_node_iff.mpr ⟨hl, hord, hly, ?_, ?_⟩, ?_⟩
      · intro a ha
        rcases hmem a ha with rfl | ha
        · rw [hk]
          exact h2
        · exact hyr a ha
      · intro a ha b hb
        rcases hmem b hb with rfl | hb
        · rw [hk]
          exact Std.lt_trans (hly a ha) h2
        · exact hlr a ha b hb
      · have hlink : (y :: (r.link key k x).1.toList).Perm (x :: y :: r.toList) :=
          (hperm.cons y).trans (List.Perm.swap x y _)
        exact (hlink.append_left _).trans List.perm_middle
    · rcases Std.lt_trichotomy k (key y) with hlt | heq | hlt
      · exact absurd hlt h1
      · exact absurd heq.symm (hnew y (Or.inr (Or.inl rfl)))
      · exact absurd hlt h2

end Ordered

end SearchTree

/-- The rebalancing operations of a tree library. -/
structure Rebalance (α : Type*) [DecidableEq α] where
  /-- after the node was linked at a leaf -/
  insertColor : SearchTree α → α → SearchTree α
  /-- unlink the node -/
  erase : SearchTree α → α → SearchTree α
  toList_insertColor : ∀ t x, (insertColor t x).toList = t.toList
  toList_erase : ∀ t x, x ∈ t.toList → (erase t x).toList = t.toList.erase x

/-- No rebalancing on insertion, a new spine on deletion. -/
def Rebalance.plain (α : Type*) [DecidableEq α] : Rebalance α where
  insertColor t _ := t
  erase t x := .ofList (t.toList.erase x)
  toList_insertColor _ _ := rfl
  toList_erase _ _ _ := SearchTree.toList_ofList _

end Mcelog.Common
