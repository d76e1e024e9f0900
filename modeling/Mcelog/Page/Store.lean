import Mcelog.Common.IntrusiveList
import Mcelog.Common.SearchTree
import Mcelog.Memory.Memdb

/-!
# The page counter store

Model of the data of `page.c`: page counters (`struct mempage`) in clusters of
`N`, a red-black tree over their addresses, and the LRU list of the clusters
with its pointers.

A cluster is the number of its `mmap` call, a page counter is a cluster and an
index into it, and fresh memory is zero. `rb_insert_color` and `rb_erase` are
taken from a `Rebalance` instance.
-/

namespace Mcelog.Page

open Mcelog.Bucket Mcelog.Common Mcelog.Memory

/-- `N` (page.c:59): `(PAGE_SIZE - sizeof(struct list_head)) / sizeof(struct mempage)`. -/
def N : ℕ := (4096 - 16) / 64

/-- `PAGE_ONLINE`, `PAGE_OFFLINE`, `PAGE_OFFLINE_FAILED` (page.c:47). -/
inductive PageState
  | online
  | offline
  | offlineFailed
  deriving DecidableEq, Repr

/-- `struct mempage` (page.c:49-57), less its tree node. -/
structure Mempage where
  offlined : PageState
  triggered : Bool
  offlineThresholdMultiplier : UInt8
  addr : UInt64
  ce : ErrType
  deriving DecidableEq, Repr

/-- A page counter in fresh memory. -/
def Mempage.zero : Mempage :=
  { offlined := .online, triggered := false, offlineThresholdMultiplier := 0, addr := 0,
    ce := { bucket := { count := 0, excess := 0, tstamp := 0 }, count := 0 } }

/-- A pointer to a `struct mempage`. `to_cluster(mp)` is `mp.cluster`. -/
structure Slot where
  cluster : ℕ
  index : ℕ
  deriving DecidableEq, Repr

/-- A pointer to a `struct list_head` of the LRU list. -/
inductive Ptr
  | null
  /-- `&mempage_cluster_lru_list` -/
  | head
  /-- `&cluster->lru` -/
  | lru (cluster : ℕ)
  | poison1
  | poison2
  deriving DecidableEq, Repr

/-- `struct mempage_replacement` (page.c:68-71). -/
structure MempageReplacement where
  bucket : LeakyBucket
  count : UInt32
  deriving DecidableEq, Repr

/-- The static data of `page.c` that errors change. -/
structure Store where
  /-- number of clusters allocated so far -/
  clusters : ℕ
  /-- `mp_used` of each cluster -/
  mpUsed : ℕ → ℕ
  /-- the page counters -/
  mp : Slot → Mempage
  /-- `mp_cluster` -/
  mpCluster : Option ℕ
  corrErrCounters : ℤ
  /-- `mempage_root` -/
  root : SearchTree Slot
  /-- `mempage_cluster_lru_list` and the `lru` fields of the clusters -/
  lru : ListHeap Ptr
  mpReplacement : MempageReplacement

/-- The store after `page_setup` at time `now`. -/
def Store.setup (now : ℤ) : Store :=
  { clusters := 0, mpUsed := fun _ => 0, mp := fun _ => .zero, mpCluster := none,
    corrErrCounters := 0, root := .leaf,
    lru := { next := fun p => if p = .head then .head else .null
             prev := fun p => if p = .head then .head else .null }
    mpReplacement := { bucket := bucketInit now, count := 0 } }

/-- Change a page counter. -/
def Store.update (s : Store) (sl : Slot) (f : Mempage → Mempage) : Store :=
  { s with mp := Function.update s.mp sl (f (s.mp sl)) }

/-! ## Counters -/

/-- `&mp_cluster->mp[mp_cluster->mp_used++]` -/
def takeSlot (s : Store) (cluster : ℕ) : Store × Slot :=
  ({ s with mpUsed := Function.update s.mpUsed cluster (s.mpUsed cluster + 1) },
    ⟨cluster, s.mpUsed cluster⟩)

/-- `mempage_alloc` (page.c:93-102). -/
def mempageAlloc (s : Store) : Store × Slot :=
  match s.mpCluster with
  | some c =>
    if s.mpUsed c = N then
      takeSlot { s with mpCluster := some s.clusters, clusters := s.clusters + 1 } s.clusters
    else takeSlot s c
  | none =>
    takeSlot { s with mpCluster := some s.clusters, clusters := s.clusters + 1 } s.clusters

/-- `list_last_entry(&mempage_cluster_lru_list, ..)`: the cluster that the list
    head's `prev` points into. -/
def listLastEntry (s : Store) : Option ℕ :=
  match s.lru.prev .head with
  | .lru c => some c
  | .null | .head | .poison1 | .poison2 => none

/-- The cluster that `mempage_replace` takes a counter from (page.c:108-112): the
    current one, or the last one of the LRU list, emptied, if that is used up.
    Without a cluster the code reads through a NULL pointer; then there is no
    result. -/
def replaceCluster (s : Store) : Option (Store × ℕ) :=
  match s.mpCluster with
  | none => none
  | some current =>
    if s.mpUsed current = N then
      (listLastEntry s).map fun last =>
        ({ s with mpCluster := some last, mpUsed := Function.update s.mpUsed last 0 }, last)
    else some (s, current)

/-- `mempage_replace` (page.c:104-121). -/
def mempageReplace (s : Store) : Option (Store × Slot) :=
  (replaceCluster s).map fun (s, cluster) =>
    let (s, sl) := takeSlot s cluster
    (s.update sl fun mp =>
      { mp with offlined := .online, triggered := false, offlineThresholdMultiplier := 1
                ce := { mp.ce with count := 0 } }, sl)

/-! ## The tree -/

/-- The key of a tree node: the address in its page counter. -/
def Store.key (s : Store) (sl : Slot) : UInt64 := (s.mp sl).addr

/-- `mempage_lookup` (page.c:123-138). -/
def mempageLookup (s : Store) (addr : UInt64) : Option Slot := s.root.lookup s.key addr

/-- `mempage_insert` with `mempage_insert_lookup` (page.c:143-173): nothing is
    linked when the address is there already. -/
def mempageInsert (rb : Rebalance Slot) (s : Store) (addr : UInt64) (sl : Slot) : Store :=
  let s := s.update sl fun mp => { mp with addr := addr }
  match s.root.link s.key addr sl with
  | (root, none) => { s with root := rb.insertColor root sl }
  | (_, some _) => s

/-- `mempage_rb_tree_update` (page.c:175-179). -/
def mempageRbTreeUpdate (rb : Rebalance Slot) (s : Store) (addr : UInt64) (sl : Slot) : Store :=
  mempageInsert rb { s with root := rb.erase s.root sl } addr sl

/-! ## The LRU list -/

/-- `mempage_cluster_lru_list_insert` (page.c:181-184). -/
def mempageClusterLruListInsert (s : Store) (cluster : ℕ) : Store :=
  { s with lru := listAdd s.lru (.lru cluster) .head }

/-- The list of `mempage_cluster_lru_list_update` (page.c:186-193). -/
def lruUpdate (lru : ListHeap Ptr) (cluster : ℕ) : ListHeap Ptr :=
  if listIsFirst lru (.lru cluster) .head then lru
  else listAdd (listDel .poison1 .poison2 lru (.lru cluster)) (.lru cluster) .head

/-- `mempage_cluster_lru_list_update` (page.c:186-193). -/
def mempageClusterLruListUpdate (s : Store) (cluster : ℕ) : Store :=
  { s with lru := lruUpdate s.lru cluster }

/-! ## What each operation changes -/

section Frame

variable {s s' : Store} {sl tl : Slot}

@[simp] theorem update_mp_self (f : Mempage → Mempage) : (s.update sl f).mp sl = f (s.mp sl) := by
  simp [Store.update]

theorem update_mp_of_ne (f : Mempage → Mempage) (h : tl ≠ sl) :
    (s.update sl f).mp tl = s.mp tl := by
  simp [Store.update, h]

/-- `mempage_alloc` only moves the allocation point. -/
theorem mempageAlloc_frame (s : Store) : ∃ clusters mpUsed mpCluster, (mempageAlloc s).1 =
    { s with clusters := clusters, mpUsed := mpUsed, mpCluster := mpCluster } := by
  unfold mempageAlloc
  split
  · split
    · exact ⟨_, _, _, rfl⟩
    · exact ⟨_, _, _, rfl⟩
  · exact ⟨_, _, _, rfl⟩

/-- `mempage_replace` moves the allocation point and clears the counter it
    takes; the counter starts again with multiplier 1. -/
theorem mempageReplace_frame (h : mempageReplace s = some (s', sl)) :
    ∃ mpUsed mpCluster mp', mp'.offlineThresholdMultiplier = 1 ∧
      s' = { s.update sl (fun _ => mp') with mpUsed := mpUsed, mpCluster := mpCluster } := by
  obtain ⟨⟨s₁, cluster⟩, hcl, heq⟩ := Option.map_eq_some_iff.mp h
  have hs₁ : ∃ mpUsed mpCluster, s₁ = { s with mpUsed := mpUsed, mpCluster := mpCluster } := by
    unfold replaceCluster at hcl
    split at hcl
    · cases hcl
    · split_ifs at hcl
      · obtain ⟨last, -, heq'⟩ := Option.map_eq_some_iff.mp hcl
        exact ⟨_, _, (Prod.mk.inj heq').1.symm⟩
      · exact ⟨_, _, (Prod.mk.inj (Option.some.inj hcl)).1.symm⟩
  obtain ⟨mpUsed, mpCluster, rfl⟩ := hs₁
  obtain ⟨rfl, rfl⟩ := Prod.mk.inj heq
  exact ⟨_, _, _, rfl, rfl⟩

/-- `mempage_insert` changes a counter and the tree. -/
theorem mempageInsert_frame (rb : Rebalance Slot) (s : Store) (addr : UInt64) (sl : Slot) :
    ∃ root, mempageInsert rb s addr sl =
      { s.update sl (fun mp => { mp with addr := addr }) with root := root } := by
  unfold mempageInsert
  dsimp only
  split
  · exact ⟨_, rfl⟩
  · exact ⟨s.root, rfl⟩

theorem mempageRbTreeUpdate_frame (rb : Rebalance Slot) (s : Store) (addr : UInt64) (sl : Slot) :
    ∃ root, mempageRbTreeUpdate rb s addr sl =
      { s.update sl (fun mp => { mp with addr := addr }) with root := root } := by
  obtain ⟨root, hroot⟩ := mempageInsert_frame rb { s with root := rb.erase s.root sl } addr sl
  exact ⟨root, hroot⟩

/-! ### The LRU list -/

theorem lru_ne_head (cluster : ℕ) : Ptr.lru cluster ≠ .head := fun h => nomatch h

theorem lruUpdate_next_ne {lru : ListHeap Ptr} (h : ∀ x, lru.next x ≠ .head) (cluster : ℕ)
    (x : Ptr) : (lruUpdate lru cluster).next x ≠ .head := by
  unfold lruUpdate
  split
  · exact h x
  · exact listAdd_next_ne (listDel_next_ne h (by decide) _) (lru_ne_head _) x

theorem lruUpdate_prev_head {lru : ListHeap Ptr} (h : ∀ x, lru.next x ≠ .head) (cluster : ℕ) :
    (lruUpdate lru cluster).prev .head = lru.prev .head := by
  unfold lruUpdate
  split
  · rfl
  · rw [listAdd_prev_head (listDel_next_ne h (by decide) _ _) (lru_ne_head _)]
    exact listDel_prev_head (h _) (lru_ne_head _)

end Frame

end Mcelog.Page
