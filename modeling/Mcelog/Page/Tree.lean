import Mcelog.Page.Limit
import Mcelog.Rbtree.Search

/-!
# The page counters in the kernel's tree

`account_page_error` again, with the tree of `rbtree.c` in the place of a tree with
assumed rebalancing: the lookups and insertions follow the pointers of the nodes,
and each loop gets `rounds` rounds. `TreeSim` relates this store to the abstract
one: both are the same but for the tree, and both trees hold the same counters in the
same order.

* `TreeSim.lookup`, `TreeSim.insert`, `TreeSim.rbTreeUpdate`: the tree functions of `page.c`.
* `TreeSim.call`: one `account_page_error`.
* `page_tree_refines`: every run behaves as with any assumed rebalancing.
-/

namespace Mcelog.Page

open Mcelog.Bucket Mcelog.Common Mcelog.Machine Mcelog.Memory Mcelog.Rbtree

/-- The static data of `page.c` with the nodes of the tree; the field `root` of the
    store is not used. -/
structure TreeStore where
  store : Store
  tree : RbHeap Slot

/-- The data after `page_setup`. Memory may hold anything where no node is linked. -/
def TreeStore.setup (now : ℤ) (node : Slot → RbNode Slot) : TreeStore :=
  { store := .setup now, tree := .empty node }

/-! ## The tree functions -/

/-- `mempage_lookup` (page.c:123-138). -/
def treeLookup (p : TreeStore) (addr : UInt64) : Option (Option Slot) :=
  search p.store.key addr p.tree rounds p.tree.rbNode

/-- `mempage_insert` with `mempage_insert_lookup` (page.c:143-173). -/
def treeInsert (p : TreeStore) (addr : UInt64) (sl : Slot) : Option TreeStore := do
  let s := p.store.update sl fun mp => { mp with addr := addr }
  let place ← findPlace s.key addr p.tree rounds p.tree.rbNode none
  match place with
  | .found _ => some { p with store := s }
  | .free link => do
    let tree ← rbInsertColor rounds (rbLinkNode p.tree sl link) sl
    some { store := s, tree := tree }

/-- `mempage_rb_tree_update` (page.c:175-179). -/
def treeRbTreeUpdate (p : TreeStore) (addr : UInt64) (sl : Slot) : Option TreeStore := do
  let tree ← rbErase rounds p.tree sl
  treeInsert { p with tree := tree } addr sl

/-! ## The call -/

/-- The counter of a new page while the limit is not reached (page.c:327-332). -/
def treeNewCounter (p : TreeStore) (addr : UInt64) (now : ℤ) : Option (TreeStore × Slot) := do
  let (s, sl) := mempageAlloc p.store
  let s := s.update sl fun mp => { mp with ce := { mp.ce with bucket := bucketInit now } }
  let p ← treeInsert { p with store := s } addr sl
  let s := mempageClusterLruListInsert p.store sl.cluster
  let s := s.update sl fun mp => { mp with offlineThresholdMultiplier := 1 }
  some ({ p with store := { s with corrErrCounters := s.corrErrCounters + 1 } }, sl)

/-- The counter of a new page once the limit is reached (page.c:334-350). -/
def treeRecycledCounter (c : PageConf) (p : TreeStore) (addr : UInt64) (t now : ℤ) :
    Option (TreeStore × Slot × List Effect) := do
  let (s, sl) ← mempageReplace p.store
  let s := s.update sl fun mp => { mp with ce := { mp.ce with bucket := bucketInit now } }
  let p ← treeRbTreeUpdate { p with store := s } addr sl
  let s := mempageClusterLruListUpdate p.store sl.cluster
  let bc := c.mpReplacementTriggerConf
  let (bucket, overflow) := bucketAccount bc s.mpReplacement.bucket 1 t 1
  let mr : MempageReplacement := { bucket := bucket, count := s.mpReplacement.count + 1 }
  let msg := "Replacements of page correctable error counter exceed threshold " ++
    bucketOutput bc bucket
  let runs := if overflow then [Effect.counterTrigger (counterTrigger msg t mr bc)] else []
  some ({ p with store := { s with mpReplacement := mr } }, sl, runs)

/-- The counter of the page (page.c:325-353). -/
def treeFindCounter (c : PageConf) (p : TreeStore) (addr : UInt64) (t now : ℤ) :
    Option (TreeStore × Slot × List Effect) := do
  let found ← treeLookup p addr
  match found with
  | some sl => some ({ p with store := mempageClusterLruListUpdate p.store sl.cluster }, sl, [])
  | none =>
    if p.store.corrErrCounters < c.maxCorrErrCounters then do
      let (p, sl) ← treeNewCounter p addr now
      some (p, sl, [])
    else treeRecycledCounter c p addr t now

/-- `account_page_error` (page.c:293-408). -/
def treeAccountPageError (c : PageConf) (cputype : CpuType) (db : Memdb) (p : TreeStore)
    (e : PageEvent) : Option (Memdb × TreeStore × PageOut) :=
  if accountsPage c cputype e.m then do
    let addr := pageOf e.m.addr
    let t := timeT e.m
    let (p, sl, runs) ← treeFindCounter c p addr t e.now
    let mult := (p.store.mp sl).offlineThresholdMultiplier
    let (bucket, overflow) := bucketAccount c.pageTriggerConf (p.store.mp sl).ce.bucket 1 t mult
    let s := p.store.update sl fun mp =>
      { mp with ce := { bucket := bucket, count := mp.ce.count + 1 } }
    if overflow then
      let (db, s, effects) := pageTriggered c db s sl addr e
      some (db, { p with store := s }, { charged := some sl, effects := runs ++ effects })
    else some (db, { p with store := s }, { charged := some sl, effects := runs })
  else some (db, p, { charged := none, effects := [] })

/-- One `account_page_error` in a run. -/
def treePageStep (c : PageConf) (cputype : CpuType) :
    Option (Memdb × TreeStore) → PageEvent → Option (Memdb × TreeStore) × PageOut
  | none, _ => (none, {})
  | some (db, p), e =>
    match treeAccountPageError c cputype db p e with
    | none => (none, {})
    | some (db, p, out) => (some (db, p), out)

/-! ## The simulation -/

/-- The heap holds a red-black tree with these counters in order. -/
def Holds (h : RbHeap Slot) (l : List Slot) : Prop :=
  ∃ t, Represents h t ∧ t.IsRB ∧ t.toList = l

/-- The store with the kernel's tree, and the store with an abstract tree: they differ in
    the tree only, and the trees hold the same counters in the same order. -/
structure TreeSim (p : TreeStore) (s : Store) : Prop where
  store : p.store = { s with root := .leaf }
  tree : Holds p.tree s.root.toList

theorem treeSim_setup (now : ℤ) (node : Slot → RbNode Slot) :
    TreeSim (.setup now node) (.setup now) :=
  ⟨rfl, .leaf, represents_empty node, ⟨rfl, 0, rfl⟩, rfl⟩

section Sim

variable {p : TreeStore} {s : Store} {addr : UInt64} {sl : Slot}

theorem TreeSim.key_eq (h : TreeSim p s) : p.store.key = s.key := by
  rw [h.store]
  rfl

theorem TreeSim.update (h : TreeSim p s) (sl : Slot) (f : Mempage → Mempage) :
    TreeSim { p with store := p.store.update sl f } (s.update sl f) :=
  ⟨by rw [h.store]; rfl, h.tree⟩

/-- The ordered sequences of the same counters are the same. -/
theorem toList_eq_of_ordered {t t' : SearchTree Slot} {key : Slot → UInt64}
    (ht : t.Ordered key) (ht' : t'.Ordered key) (hperm : t.toList.Perm t'.toList) :
    t.toList = t'.toList :=
  List.Perm.eq_of_pairwise
    (fun _ _ _ _ h1 h2 => absurd (UInt64.lt_trans h1 h2) (UInt64.lt_irrefl _)) ht ht' hperm

/-- A lookup in the kernel's tree is one in the abstract tree. -/
theorem TreeSim.lookup (h : TreeSim p s) (hord : s.root.Ordered s.key) (hfits : Fits s.root.toList)
    (addr : UInt64) : treeLookup p addr = some (mempageLookup s addr) := by
  obtain ⟨t, hr, hrb, hlist⟩ := h.tree
  have hheight : t.height ≤ rounds := (height_lt_rounds hrb (hlist ▸ hfits)).le
  have hord' : (forget t).Ordered s.key := by
    show List.Pairwise _ _
    rw [toList_forget, hlist]
    exact hord
  have hroot : Represents p.tree (plug [] t) := hr
  have hfind : Rbtree.search s.key addr p.tree rounds t.top =
      some ((forget t).lookup s.key addr) := hroot.search hheight
  rw [treeLookup, h.key_eq, hr.root, hfind, mempageLookup,
    hord.lookup_eq_find? (List.Perm.refl _), hord'.lookup_eq_find? (List.Perm.refl _),
    toList_forget, hlist]

/-- `mempage_insert` of a counter that is not linked, for a page that is not tracked. -/
theorem TreeSim.insert (rb : Rebalance Slot) (h : TreeSim p s) (hord : s.root.Ordered s.key)
    (hfits : Fits s.root.toList) (hsl : sl ∉ s.root.toList)
    (hnew : ∀ tl ∈ s.root.toList, s.key tl ≠ addr) :
    ∃ p', treeInsert p addr sl = some p' ∧ TreeSim p' (mempageInsert rb s addr sl) := by
  obtain ⟨t, hr, hrb, hlist⟩ := h.tree
  let s₁ := s.update sl fun mp => { mp with addr := addr }
  have hkey : ∀ tl ∈ s.root.toList, s₁.key tl = s.key tl := by
    intro tl htl
    have hne : tl ≠ sl := fun heq => hsl (heq ▸ htl)
    exact congrArg Mempage.addr (update_mp_of_ne _ hne)
  have hself : s₁.key sl = addr := congrArg Mempage.addr (update_mp_self _)
  have hord₁ : s.root.Ordered s₁.key := hord.congr hkey
  have hord₂ : (forget t).Ordered s₁.key := by
    show List.Pairwise _ _
    rw [toList_forget, hlist]
    exact hord₁
  have hnew₁ : ∀ tl ∈ s.root.toList, s₁.key tl ≠ addr := fun tl htl => by
    rw [hkey tl htl]
    exact hnew tl htl
  obtain ⟨hnone, hord₃, hperm₃⟩ := hord₁.link_spec hself hnew₁
  obtain ⟨-, hord₄, hperm₄⟩ := hord₂.link_spec hself (by rwa [toList_forget, hlist])
  obtain ⟨link, h', t', hplace, hrun, hr', hrb', hlist'⟩ := hr.insert_ordered hrb hord₂ hself
    (by rwa [hlist]) (height_lt_rounds hrb (hlist ▸ hfits))
  have hstore : (p.store.update sl fun mp => { mp with addr := addr }) =
      { s₁ with root := .leaf } := by
    rw [h.store]
    rfl
  have hins : mempageInsert rb s addr sl =
      { s₁ with root := rb.insertColor (s.root.link s₁.key addr sl).1 sl } :=
    mempageInsert_of_link rb (Prod.ext rfl hnone)
  refine ⟨{ store := { s₁ with root := .leaf }, tree := h' }, ?_, ?_⟩
  · rw [treeInsert]
    simp only [hstore]
    rw [show Store.key { s₁ with root := .leaf } = s₁.key from rfl, hplace]
    simp only [Option.bind_eq_bind, Option.bind_some, hrun]
  · rw [hins]
    refine ⟨rfl, t', hr', hrb', ?_⟩
    rw [rb.toList_insertColor, hlist']
    refine toList_eq_of_ordered hord₄ hord₃ (hperm₄.trans ?_)
    rw [toList_forget, hlist]
    exact hperm₃.symm

/-- `mempage_rb_tree_update` of a linked counter, for a page that is not tracked. -/
theorem TreeSim.rbTreeUpdate (rb : Rebalance Slot) (h : TreeSim p s)
    (hord : s.root.Ordered s.key) (hfits : Fits s.root.toList) (hsl : sl ∈ s.root.toList)
    (hnew : ∀ tl ∈ s.root.toList, s.key tl ≠ addr) :
    ∃ p', treeRbTreeUpdate p addr sl = some p' ∧
      TreeSim p' (mempageRbTreeUpdate rb s addr sl) := by
  obtain ⟨t, hr, hrb, hlist⟩ := h.tree
  obtain ⟨h', t', hrun, hr', hlist', hrb'⟩ := rb_erase_spec (x := sl) hr hrb (hlist ▸ hsl)
    (height_lt_rounds hrb (hlist ▸ hfits))
  have herase : (rb.erase s.root sl).toList = s.root.toList.erase sl :=
    rb.toList_erase s.root sl hsl
  let s₁ : Store := { s with root := rb.erase s.root sl }
  have hsim : TreeSim { p with tree := h' } s₁ :=
    ⟨h.store, t', hr', hrb', by rw [hlist', hlist]; exact herase.symm⟩
  have hord₁ : s₁.root.Ordered s₁.key := by
    show List.Pairwise _ _
    rw [herase]
    exact List.Pairwise.sublist List.erase_sublist hord
  have hfits₁ : Fits s₁.root.toList := by
    show (rb.erase s.root sl).toList.length < _
    rw [herase]
    exact lt_of_le_of_lt List.length_erase_le hfits
  have hsl₁ : sl ∉ s₁.root.toList := by
    show sl ∉ (rb.erase s.root sl).toList
    rw [herase]
    exact hord.nodup.not_mem_erase
  have hnew₁ : ∀ tl ∈ s₁.root.toList, s₁.key tl ≠ addr := by
    intro tl htl
    rw [herase] at htl
    exact hnew tl (List.mem_of_mem_erase htl)
  obtain ⟨p', hins, hsim'⟩ := hsim.insert rb hord₁ hfits₁ hsl₁ hnew₁
  refine ⟨p', ?_, hsim'⟩
  rw [treeRbTreeUpdate, hrun]
  exact hins

/-! ### The functions that do not touch the tree -/

theorem mempageAlloc_root (s : Store) (root : SearchTree Slot) :
    mempageAlloc { s with root := root } =
      ({ (mempageAlloc s).1 with root := root }, (mempageAlloc s).2) := by
  obtain ⟨clusters, mpUsed, mp, mpCluster, corrErrCounters, root', lru, mpReplacement⟩ := s
  unfold mempageAlloc
  cases mpCluster with
  | none => rfl
  | some cl =>
    dsimp only
    split_ifs
    · rfl
    · rfl

theorem mempageReplace_root (s : Store) (root : SearchTree Slot) :
    mempageReplace { s with root := root } =
      (mempageReplace s).map fun r => ({ r.1 with root := root }, r.2) := by
  obtain ⟨clusters, mpUsed, mp, mpCluster, corrErrCounters, root', lru, mpReplacement⟩ := s
  unfold mempageReplace replaceCluster
  cases mpCluster with
  | none => rfl
  | some cl =>
    dsimp only
    split_ifs
    · simp only [listLastEntry, Option.map_map]
      cases lru.prev .head <;> rfl
    · rfl

theorem pageTriggered_root (c : PageConf) (db : Memdb) (s : Store) (root : SearchTree Slot)
    (sl : Slot) (addr : UInt64) (e : PageEvent) :
    pageTriggered c db { s with root := root } sl addr e =
      ((pageTriggered c db s sl addr e).1,
        { (pageTriggered c db s sl addr e).2.1 with root := root },
        (pageTriggered c db s sl addr e).2.2) := by
  unfold pageTriggered
  dsimp only
  split_ifs
  · rfl
  · rfl
  · rfl

/-- The counter that `mempage_replace` takes keeps its address and its place in the
    tree. -/
theorem mempageReplace_key {s s₂ : Store} {sl : Slot} (h : mempageReplace s = some (s₂, sl)) :
    s₂.key = s.key ∧ s₂.root = s.root := by
  obtain ⟨⟨s₁, cluster⟩, hcl, heq⟩ := Option.map_eq_some_iff.mp h
  have hs₁ : ∃ mpUsed mpCluster, s₁ = { s with mpUsed := mpUsed, mpCluster := mpCluster } := by
    unfold replaceCluster at hcl
    split at hcl
    · cases hcl
    · split_ifs at hcl
      · obtain ⟨last, -, heq'⟩ := Option.map_eq_some_iff.mp hcl
        exact ⟨_, _, (Prod.mk.inj heq').1.symm⟩
      · exact ⟨_, _, (Prod.mk.inj (Option.some.inj hcl)).1.symm⟩
  obtain ⟨mpUsed, mpCluster, rfl⟩ := hs₁
  obtain ⟨rfl, rfl⟩ := Prod.mk.inj heq
  exact ⟨key_update rfl, rfl⟩

/-! ### Finding a counter -/

variable {c : PageConf} {t now : ℤ}

theorem MapInv.fits (hinv : MapInv c s) (hmax : c.maxCorrErrCounters < 2 ^ 31) :
    Fits s.root.toList := by
  have hbound := hinv.bound
  rw [← hinv.count] at hbound
  have hlt : (s.root.toList.length : ℤ) < 2 ^ 31 := lt_of_le_of_lt hbound hmax
  show s.root.toList.length < 2 ^ 63
  omega

theorem TreeSim.newCounter (rb : Rebalance Slot) (now : ℤ) (h : TreeSim p s) (hinv : MapInv c s)
    (hfits : Fits s.root.toList) (hnot : (mempageAlloc s).2 ∉ s.root.toList)
    (hlook : mempageLookup s addr = none) :
    ∃ p', treeNewCounter p addr now = some (p', (Page.newCounter rb s addr now).2) ∧
      TreeSim p' (Page.newCounter rb s addr now).1 := by
  obtain ⟨clusters, mpUsed, mpCluster, hframe⟩ := mempageAlloc_frame s
  set sl := (mempageAlloc s).2 with hsl
  let s' := (mempageAlloc s).1.update sl fun mp =>
    { mp with ce := { mp.ce with bucket := bucketInit now } }
  have hroot' : s'.root = s.root := by simp [s', hframe, Store.update]
  have hkey' : s'.key = s.key := (key_update rfl).trans (by rw [hframe]; rfl)
  have hsim : TreeSim { p with store := { s' with root := .leaf } } s' :=
    ⟨rfl, hroot' ▸ h.tree⟩
  have hnew : ∀ tl ∈ s'.root.toList, s'.key tl ≠ addr := by
    intro tl htl
    rw [hkey']
    exact hinv.lookup_eq_none hlook tl (hroot' ▸ htl)
  have hnot' : sl ∉ s'.root.toList := hroot' ▸ hnot
  obtain ⟨p', hins, hsim'⟩ := hsim.insert rb
    (by rw [hroot', hkey']; exact hinv.ordered) (hroot' ▸ hfits) hnot' hnew
  refine ⟨{ p' with store := {
    (mempageClusterLruListInsert p'.store sl.cluster).update sl (fun mp =>
      { mp with offlineThresholdMultiplier := 1 }) with
    corrErrCounters := p'.store.corrErrCounters + 1 } }, ?_, ?_⟩
  · rw [treeNewCounter, h.store, mempageAlloc_root]
    simp only [Option.bind_eq_bind]
    rw [show { p with store := Store.update { (mempageAlloc s).1 with root := .leaf } sl fun mp =>
      { mp with ce := { mp.ce with bucket := bucketInit now } } } =
      ({ p with store := { s' with root := .leaf } } : TreeStore) from rfl, hins, Option.bind_some]
    rfl
  · refine ⟨?_, hsim'.tree⟩
    dsimp only
    rw [hsim'.store]
    rfl

theorem TreeSim.recycledCounter (rb : Rebalance Slot) (t now : ℤ) (h : TreeSim p s)
    (hinv : MapInv c s) (hfits : Fits s.root.toList) {s₁ : Store} {runs : List Effect}
    (hrec : Page.recycledCounter rb c s addr t now = some (s₁, sl, runs))
    (hsl : sl ∈ s.root.toList) (hlook : mempageLookup s addr = none) :
    ∃ p', treeRecycledCounter c p addr t now = some (p', sl, runs) ∧ TreeSim p' s₁ := by
  obtain ⟨⟨s₂, sl₂⟩, hrep, heq⟩ := Option.map_eq_some_iff.mp hrec
  obtain ⟨hkey, hroot⟩ := mempageReplace_key hrep
  obtain rfl : sl₂ = sl := congrArg (fun r => r.2.1) heq
  let s' := s₂.update sl₂ fun mp => { mp with ce := { mp.ce with bucket := bucketInit now } }
  have hkey' : s'.key = s.key := (key_update rfl).trans hkey
  have hsim : TreeSim { p with store := { s' with root := .leaf } } s' :=
    ⟨rfl, hroot.symm ▸ h.tree⟩
  have hnew : ∀ tl ∈ s'.root.toList, s'.key tl ≠ addr := by
    intro tl htl
    rw [hkey']
    exact hinv.lookup_eq_none hlook tl (hroot ▸ htl)
  have hmem : sl₂ ∈ s'.root.toList := by
    show sl₂ ∈ s₂.root.toList
    rw [hroot]
    exact hsl
  obtain ⟨p', hins, hsim'⟩ := hsim.rbTreeUpdate rb
    (by show s₂.root.Ordered s'.key; rw [hroot, hkey']; exact hinv.ordered)
    (by show Fits s₂.root.toList; rw [hroot]; exact hfits) hmem hnew
  have hreplace : mempageReplace p.store = some ({ s₂ with root := .leaf }, sl₂) := by
    rw [h.store, mempageReplace_root, hrep]
    rfl
  refine ⟨{ p' with store := { s₁ with root := .leaf } }, ?_, rfl, ?_⟩
  · rw [treeRecycledCounter, hreplace]
    simp only [Option.bind_eq_bind, Option.bind_some]
    rw [show { p with store := Store.update { s₂ with root := .leaf } sl₂ fun mp =>
      { mp with ce := { mp.ce with bucket := bucketInit now } } } =
      ({ p with store := { s' with root := .leaf } } : TreeStore) from rfl, hins, Option.bind_some,
      hsim'.store]
    simp only [Prod.mk.injEq] at heq
    obtain ⟨rfl, -, rfl⟩ := heq
    rfl
  · simp only [Prod.mk.injEq] at heq
    obtain ⟨rfl, -, -⟩ := heq
    exact hsim'.tree

/-- Both stores find the same counter. -/
theorem TreeSim.findCounter (rb : Rebalance Slot) (t now : ℤ) (h : TreeSim p s)
    (hinv : MapInv c s) (hmul : ∃ q : ℕ, 0 < q ∧ c.maxCorrErrCounters = q * N)
    (hmax : c.maxCorrErrCounters < 2 ^ 31) (haddr : pageOf addr = addr) :
    ∃ p' s₁ sl runs, treeFindCounter c p addr t now = some (p', sl, runs) ∧
      Page.findCounter rb c s addr t now = some (s₁, sl, runs) ∧ TreeSim p' s₁ := by
  have hfits := hinv.fits hmax
  have hcorr : p.store.corrErrCounters = s.corrErrCounters := by rw [h.store]
  rw [treeFindCounter, h.lookup hinv.ordered hfits, Page.findCounter]
  simp only [Option.bind_eq_bind, Option.bind_some, hcorr]
  cases hlook : mempageLookup s addr with
  | some sl =>
    refine ⟨_, _, sl, [], rfl, rfl, ?_, h.tree⟩
    rw [h.store]
    rfl
  | none =>
    dsimp only
    by_cases hlt : s.corrErrCounters < c.maxCorrErrCounters
    · obtain ⟨s₁, sl, hnew, -, -, hnot, -⟩ := hinv.newCounter rb now haddr hlook hlt
      obtain ⟨hsl, -⟩ := newCounter_spec rb s addr now
      rw [hnew] at hsl
      obtain ⟨p', hrun, hsim⟩ := h.newCounter rb now hinv hfits (hsl ▸ hnot) hlook
      rw [hnew] at hrun hsim
      rw [if_pos hlt, if_pos hlt, hrun, hnew]
      exact ⟨p', s₁, sl, [], rfl, rfl, hsim⟩
    · have hfull : s.corrErrCounters = c.maxCorrErrCounters :=
        le_antisymm hinv.bound (not_lt.mp hlt)
      obtain ⟨s₁, sl, runs, hrec, -, -, hsl, -⟩ :=
        hinv.recycledCounter rb t now hmul haddr hlook hfull
      obtain ⟨p', hrun, hsim⟩ := h.recycledCounter rb t now hinv hfits hrec hsl hlook
      rw [if_neg hlt, if_neg hlt]
      exact ⟨p', s₁, sl, runs, hrun, hrec, hsim⟩

/-! ### Calls and runs -/

/-- One call does the same on both stores. -/
theorem TreeSim.call (rb : Rebalance Slot) (cputype : CpuType) (db : Memdb) (e : PageEvent)
    (h : TreeSim p s) (hinv : MapInv c s)
    (hmul : ∃ q : ℕ, 0 < q ∧ c.maxCorrErrCounters = q * N) (hmax : c.maxCorrErrCounters < 2 ^ 31) :
    ∃ db' p' s' out, treePageStep c cputype (some (db, p)) e = (some (db', p'), out) ∧
      pageStep rb c cputype (some (db, s)) e = (some (db', s'), out) ∧ TreeSim p' s' := by
  rw [treePageStep, pageStep, treeAccountPageError, accountPageError]
  split_ifs with hacc
  · obtain ⟨p₁, s₁, sl, runs, hrun, hrun', hsim⟩ :=
      h.findCounter rb (timeT e.m) e.now hinv hmul hmax (pageOf_pageOf e.m.addr)
    have hstore := hsim.store
    obtain ⟨store, tree⟩ := p₁
    dsimp only at hstore
    subst hstore
    have hup : ∀ f, Store.update { s₁ with root := .leaf } sl f =
        { s₁.update sl f with root := .leaf } := fun f => rfl
    simp only [hrun, hrun', Option.bind_eq_bind, Option.bind_some, hup, pageTriggered_root]
    split_ifs with hover
    · refine ⟨_, _, _, _, rfl, rfl, rfl, ?_⟩
      -- the triggers and the offlining do not touch the tree
      have hroot := congrArg (fun r => r.2.1.root) (pageTriggered_root c db
        (s₁.update sl fun mp => { mp with ce := { bucket := (bucketAccount c.pageTriggerConf
          (s₁.mp sl).ce.bucket 1 (timeT e.m) (s₁.mp sl).offlineThresholdMultiplier).1
                                                  count := mp.ce.count + 1 } })
        s₁.root sl (pageOf e.m.addr) e)
      dsimp only at hroot
      exact hroot.symm ▸ hsim.tree
    · exact ⟨_, _, _, _, rfl, rfl, rfl, hsim.tree⟩
  · exact ⟨db, p, s, _, rfl, rfl, h⟩

end Sim

/-- The two stores after a run, and the outputs of its calls. -/
theorem treeSim_run (rb : Rebalance Slot) (c : PageConf) (cputype : CpuType) (db : Memdb) (now : ℤ)
    (node : Slot → RbNode Slot) (hmul : ∃ q : ℕ, 0 < q ∧ c.maxCorrErrCounters = q * N)
    (hmax : c.maxCorrErrCounters < 2 ^ 31) (es : List PageEvent) :
    ∃ db' p' s', runState (treePageStep c cputype) (some (db, TreeStore.setup now node)) es =
        some (db', p') ∧
      runState (pageStep rb c cputype) (some (db, Store.setup now)) es = some (db', s') ∧
      runOut (treePageStep c cputype) (some (db, TreeStore.setup now node)) es =
        runOut (pageStep rb c cputype) (some (db, Store.setup now)) es ∧
      TreeSim p' s' ∧ MapInv c s' := by
  induction es using List.reverseRecOn with
  | nil =>
    have hpos : 0 < c.maxCorrErrCounters := by
      obtain ⟨q, hq, hmax⟩ := hmul
      have hN : N = 63 := rfl
      rw [hmax, hN]
      omega
    exact ⟨db, _, _, rfl, rfl, rfl, treeSim_setup now node, mapInv_setup c now hpos⟩
  | append_singleton es e ih =>
    obtain ⟨db₁, p₁, s₁, hrun, hrun', hout, hsim, hinv⟩ := ih
    obtain ⟨db', p', s', out, hstep, hstep', hsim'⟩ :=
      hsim.call rb cputype db₁ e hinv hmul hmax
    obtain ⟨db'', s'', hcall, hinv', -, -⟩ := hinv.call rb cputype db₁ e hmul
    rw [hstep'] at hcall
    obtain ⟨rfl, rfl⟩ := Prod.mk.inj (Option.some.inj hcall)
    refine ⟨db', p', s', ?_, ?_, ?_, hsim', hinv'⟩
    · rw [runState_append, hrun, runState_cons, hstep, runState_nil]
    · rw [runState_append, hrun', runState_cons, hstep', runState_nil]
    · rw [runOut_append, runOut_append, hout, hrun, hrun', runOut_cons, runOut_cons, hstep, hstep']
      rfl

/-- What `page_setup` makes of a setting that it can work with. -/
theorem setup_limit {n : Int32} (h : FitsCounters n) (c : PageConf) :
    (∃ q : ℕ, 0 < q ∧ (c.setup n).maxCorrErrCounters = q * N) ∧
      (c.setup n).maxCorrErrCounters < 2 ^ 31 := by
  have hpos : 0 < roundupCounters n := by
    rw [roundupCounters_of_fits h]
    exact Int.natCast_pos.mpr (lt_of_lt_of_le (by decide) (le_max_left _ _))
  refine ⟨roundupCounters_clusters hpos, ?_⟩
  show roundupCounters n < 2 ^ 31
  rw [roundupCounters]
  omega

end Mcelog.Page
