import Mcelog.Common.Run
import Mcelog.Page.Charge

/-!
# The store as a bounded map

What `mempage_lookup` sees of the store is a partial map from page addresses to
counters. This module says what `account_page_error` does to that map.

* `pageMap`: the map.
* `MapInv`: the invariant of every run. The tree is ordered by page address and
  holds exactly the counters handed out so far.
* `MapInv.findCounter`: `account_page_error` finds, adds or recycles one counter,
  and never runs into a missing cluster.
* `page_store_exact`: after every run the store is a map of at most
  `max_corr_err_counters` pages, and every further call changes the one entry that
  it should, and removes one other entry only once the limit is reached.
* `new_counter_triggered`: with a threshold of one error a new counter is triggered
  by the very error that creates it.
-/

namespace Mcelog.Page

open Mcelog.Bucket Mcelog.Common Mcelog.Machine Mcelog.Memory

/-- The tracked pages with their counters. -/
def pageMap (s : Store) (addr : UInt64) : Option Mempage := (mempageLookup s addr).map s.mp

/-! ## The map and the tree -/

/-- The counters of the list `l` by address. -/
def counterMap (mp : Slot → Mempage) (l : List Slot) (addr : UInt64) : Option Mempage :=
  (l.find? fun sl => (mp sl).addr = addr).map mp

section Tree

variable {s s' : Store} {l : List Slot} {sl : Slot} {addr : UInt64}

theorem pageMap_eq_counterMap (h : s.root.Ordered s.key) (hperm : s.root.toList.Perm l) :
    pageMap s = counterMap s.mp l := by
  funext addr
  rw [pageMap, mempageLookup, h.lookup_eq_find? hperm]
  rfl

theorem counterMap_congr {mp mp' : Slot → Mempage} (h : ∀ sl ∈ l, mp' sl = mp sl) :
    counterMap mp' l = counterMap mp l := by
  funext addr
  induction l with
  | nil => rfl
  | cons sl l ih =>
    have htail := ih fun tl htl => h tl (List.mem_cons_of_mem _ htl)
    have hhead := h sl List.mem_cons_self
    unfold counterMap at htail ⊢
    rw [List.find?_cons, List.find?_cons, hhead]
    split
    · simp [hhead]
    · exact htail

theorem counterMap_cons (mp : Slot → Mempage) (sl : Slot) (l : List Slot) :
    counterMap mp (sl :: l) = Function.update (counterMap mp l) (mp sl).addr (some (mp sl)) := by
  funext addr
  unfold counterMap
  rw [List.find?_cons]
  by_cases haddr : (mp sl).addr = addr
  · subst haddr
    simp
  · simp [haddr, Ne.symm haddr]

/-- The page of a node is not the page of another one. -/
theorem counterMap_key_eq_none (h : s.root.Ordered s.key) (hperm : s.root.toList.Perm (sl :: l)) :
    counterMap s.mp l (s.mp sl).addr = none := by
  have hnodup : (sl :: l).Nodup := hperm.nodup_iff.mp h.nodup
  have hnone : (l.find? fun tl => (s.mp tl).addr = (s.mp sl).addr) = none := by
    rw [List.find?_eq_none]
    intro tl htl heq
    have htl' := hperm.mem_iff.mpr (List.mem_cons_of_mem _ htl)
    have hsl' := hperm.mem_iff.mpr List.mem_cons_self
    obtain rfl := h.key_inj htl' hsl' (by simpa [Store.key] using heq)
    exact (List.nodup_cons.mp hnodup).1 htl
  unfold counterMap
  rw [hnone]
  rfl

/-- The map of a store whose counter `sl` was linked beside the counters of `l`. -/
theorem pageMap_of_relinked {mp' : Mempage} (h : s'.root.Ordered s'.key)
    (hperm : s'.root.toList.Perm (sl :: l)) (hmp : s'.mp = Function.update s.mp sl mp') :
    pageMap s' = Function.update (counterMap s.mp l) mp'.addr (some mp') := by
  have hnodup : (sl :: l).Nodup := hperm.nodup_iff.mp h.nodup
  have hrest : counterMap s'.mp l = counterMap s.mp l := by
    refine counterMap_congr fun tl htl => ?_
    rw [hmp, Function.update_of_ne]
    rintro rfl
    exact (List.nodup_cons.mp hnodup).1 htl
  rw [pageMap_eq_counterMap h hperm, counterMap_cons, hrest, hmp, Function.update_self]

/-- The map of a store with a linked counter. -/
theorem pageMap_of_linked (h : s.root.Ordered s.key) (hsl : sl ∈ s.root.toList) :
    pageMap s = Function.update (counterMap s.mp (s.root.toList.erase sl)) (s.key sl)
      (some (s.mp sl)) := by
  rw [pageMap_eq_counterMap h (List.perm_cons_erase hsl), counterMap_cons]
  rfl

/-- An address that is new gets a node of the tree. -/
theorem mempageInsert_of_link {root : SearchTree Slot} (rb : Rebalance Slot) {addr : UInt64}
    (h : (s.update sl fun mp => { mp with addr := addr }).root.link
      (s.update sl fun mp => { mp with addr := addr }).key addr sl = (root, none)) :
    mempageInsert rb s addr sl =
      { s.update sl fun mp => { mp with addr := addr } with root := rb.insertColor root sl } := by
  unfold mempageInsert
  dsimp only
  rw [h]

/-- `mempage_insert` of a counter that is not linked, for a page that is not tracked. -/
theorem mempageInsert_tree (rb : Rebalance Slot) (addr : UInt64) (h : s.root.Ordered s.key)
    (hsl : sl ∉ s.root.toList) (hnew : ∀ tl ∈ s.root.toList, s.key tl ≠ addr) :
    (mempageInsert rb s addr sl).root.Ordered (mempageInsert rb s addr sl).key ∧
      (mempageInsert rb s addr sl).root.toList.Perm (sl :: s.root.toList) := by
  let s₁ := s.update sl fun mp => { mp with addr := addr }
  have hkey : ∀ tl ∈ s.root.toList, s₁.key tl = s.key tl := by
    intro tl htl
    have hne : tl ≠ sl := fun heq => hsl (heq ▸ htl)
    exact congrArg Mempage.addr (update_mp_of_ne _ hne)
  have hself : s₁.key sl = addr := congrArg Mempage.addr (update_mp_self _)
  obtain ⟨hnone, hord, hperm⟩ := (h.congr hkey).link_spec hself
    (fun tl htl => by
      rw [hkey tl htl]
      exact hnew tl htl)
  have hins : mempageInsert rb s addr sl =
      { s₁ with root := rb.insertColor (s.root.link s₁.key addr sl).1 sl } := by
    exact mempageInsert_of_link rb (Prod.ext rfl hnone)
  have hlist := rb.toList_insertColor (s.root.link s₁.key addr sl).1 sl
  rw [hins]
  refine ⟨?_, ?_⟩
  · show List.Pairwise _ _
    dsimp only
    rw [hlist]
    exact hord
  · dsimp only
    rw [hlist]
    exact hperm

/-- `mempage_rb_tree_update` of a linked counter, for a page that is not tracked. -/
theorem mempageRbTreeUpdate_tree (rb : Rebalance Slot) (addr : UInt64) (h : s.root.Ordered s.key)
    (hsl : sl ∈ s.root.toList) (hnew : ∀ tl ∈ s.root.toList, s.key tl ≠ addr) :
    (mempageRbTreeUpdate rb s addr sl).root.Ordered (mempageRbTreeUpdate rb s addr sl).key ∧
      (mempageRbTreeUpdate rb s addr sl).root.toList.Perm (sl :: s.root.toList.erase sl) := by
  let s₁ : Store := { s with root := rb.erase s.root sl }
  have herase : s₁.root.toList = s.root.toList.erase sl := rb.toList_erase s.root sl hsl
  have hord : s₁.root.Ordered s₁.key := by
    show List.Pairwise _ _
    rw [herase]
    exact List.Pairwise.sublist List.erase_sublist h
  have hnot : sl ∉ s₁.root.toList := by
    rw [herase]
    exact h.nodup.not_mem_erase
  obtain ⟨hord', hperm⟩ := mempageInsert_tree rb addr hord hnot (fun tl htl => by
    rw [herase] at htl
    exact hnew tl (List.mem_of_mem_erase htl))
  rw [herase] at hperm
  exact ⟨hord', hperm⟩

end Tree

/-! ## The invariant -/

/-- The position of a counter in the order in which counters are first handed out. -/
def Slot.number (sl : Slot) : ℕ := sl.cluster * N + sl.index

/-- Counters are taken from the last cluster, which is not empty. -/
structure Filling (s : Store) (last : ℕ) : Prop where
  current : s.mpCluster = some last
  clusters : s.clusters = last + 1
  used_pos : 0 < s.mpUsed last
  used_le : s.mpUsed last ≤ N
  count : s.corrErrCounters = last * N + s.mpUsed last
  rest : ∀ cl, s.clusters ≤ cl → s.mpUsed cl = 0

/-- The limit is reached, and counters are recycled from this cluster. -/
structure Recycling (c : PageConf) (s : Store) (cluster : ℕ) : Prop where
  current : s.mpCluster = some cluster
  used_le : s.mpUsed cluster ≤ N
  full : s.corrErrCounters = c.maxCorrErrCounters
  inside : ((cluster + 1) * N : ℤ) ≤ c.maxCorrErrCounters

/-- Where the next counter is taken from. -/
def AllocInv (c : PageConf) (s : Store) : Prop :=
  (s.mpCluster = none ∧ s.corrErrCounters = 0 ∧ s.clusters = 0 ∧ ∀ cl, s.mpUsed cl = 0) ∨
    (∃ last, Filling s last) ∨ ∃ cluster, Recycling c s cluster

/-- The allocation reads four fields of the store. -/
theorem AllocInv.congr {c : PageConf} {s s' : Store} (h : AllocInv c s)
    (hcurrent : s'.mpCluster = s.mpCluster) (hclusters : s'.clusters = s.clusters)
    (hused : s'.mpUsed = s.mpUsed) (hcount : s'.corrErrCounters = s.corrErrCounters) :
    AllocInv c s' := by
  unfold AllocInv
  rcases h with h | ⟨last, h⟩ | ⟨cluster, h⟩
  · rw [hcurrent, hclusters, hused, hcount]
    exact Or.inl h
  · refine Or.inr (Or.inl ⟨last, hcurrent.trans h.current, hclusters.trans h.clusters,
      ?_, ?_, ?_, ?_⟩)
    · rw [hused]
      exact h.used_pos
    · rw [hused]
      exact h.used_le
    · rw [hused, hcount]
      exact h.count
    · rw [hused, hclusters]
      exact h.rest
  · refine Or.inr (Or.inr ⟨cluster, hcurrent.trans h.current, ?_, hcount.trans h.full, h.inside⟩)
    rw [hused]
    exact h.used_le

/-- The last entry of the LRU list. The list head is never pointed to again once
    there is a second counter, so its `prev` pointer stays. -/
def LastInv (s : Store) : Prop :=
  (s.corrErrCounters = 0 ∧ ∀ p, s.lru.next p = if p = .head then .head else .null) ∨
    (s.lru.prev .head = .lru 0 ∧ ∀ p, s.lru.next p = .head →
      p = .lru 0 ∧ s.lru.next .head = .lru 0 ∧ s.corrErrCounters = 1)

/-- What holds after every run. -/
structure MapInv (c : PageConf) (s : Store) : Prop where
  ordered : s.root.Ordered s.key
  aligned : ∀ sl ∈ s.root.toList, pageOf (s.key sl) = s.key sl
  /-- the tree holds the counters handed out so far -/
  handed : ∀ sl, sl ∈ s.root.toList ↔ sl.index < N ∧ (sl.number : ℤ) < s.corrErrCounters
  count : (s.root.toList.length : ℤ) = s.corrErrCounters
  bound : s.corrErrCounters ≤ c.maxCorrErrCounters
  /-- memory that was not handed out is zero -/
  unused : ∀ sl, sl ∉ s.root.toList → s.mp sl = .zero
  alloc : AllocInv c s
  last : LastInv s

theorem mapInv_setup (c : PageConf) (now : ℤ) (hpos : 0 < c.maxCorrErrCounters) :
    MapInv c (Store.setup now) where
  ordered := List.Pairwise.nil
  aligned := fun _ h => nomatch h
  handed := by
    intro sl
    refine ⟨fun h => (nomatch h), fun h => absurd h.2 ?_⟩
    simp [Store.setup]
  count := rfl
  bound := hpos.le
  unused := fun _ _ => rfl
  alloc := Or.inl ⟨rfl, rfl, rfl, fun _ => rfl⟩
  last := Or.inl ⟨rfl, fun _ => rfl⟩

section Step

variable {rb : Rebalance Slot} {c : PageConf} {s s₁ : Store} {sl : Slot} {addr : UInt64} {t now : ℤ}

theorem key_update {f : Mempage → Mempage} (hf : (f (s.mp sl)).addr = (s.mp sl).addr) :
    (s.update sl f).key = s.key := by
  funext tl
  by_cases htl : tl = sl
  · subst htl
    exact (congrArg Mempage.addr (update_mp_self f)).trans hf
  · exact congrArg Mempage.addr (update_mp_of_ne f htl)

/-- A change of a linked counter that keeps its page. -/
theorem MapInv.update (h : MapInv c s) (hsl : sl ∈ s.root.toList) {f : Mempage → Mempage}
    (hf : (f (s.mp sl)).addr = (s.mp sl).addr) : MapInv c (s.update sl f) := by
  have hkey := key_update hf
  refine ⟨h.ordered.congr fun tl _ => congrFun hkey tl, ?_, h.handed, h.count, h.bound, ?_,
    h.alloc.congr rfl rfl rfl rfl, h.last⟩
  · intro tl htl
    rw [hkey]
    exact h.aligned tl htl
  · intro tl htl
    have hne : tl ≠ sl := fun heq => htl (heq ▸ hsl)
    rw [update_mp_of_ne f hne]
    exact h.unused tl htl

/-! ### The LRU list -/

/-- The update of the list on a hit, or when a counter is recycled. -/
theorem LastInv.lruUpdate (h : LastInv s) (hsl : (sl.number : ℤ) < s.corrErrCounters) :
    LastInv { s with lru := Page.lruUpdate s.lru sl.cluster } := by
  rcases h with ⟨hzero, -⟩ | ⟨hprev, hnext⟩
  · omega
  · by_cases hopen : ∀ p, s.lru.next p ≠ .head
    · right
      refine ⟨(lruUpdate_prev_head hopen _).trans hprev, ?_⟩
      exact fun p hp => absurd hp (lruUpdate_next_ne hopen _ p)
    · -- the only counter is in the first cluster, which is the first one of the list
      obtain ⟨p, hp⟩ := not_forall_not.mp hopen
      obtain ⟨-, hfirst, hone⟩ := hnext p hp
      have hcluster : sl.cluster = 0 := by
        have hN : N = 63 := rfl
        rw [Slot.number, hN] at hsl
        omega
      have hsame : Page.lruUpdate s.lru sl.cluster = s.lru := by
        rw [Page.lruUpdate, if_pos (by simp [listIsFirst, hfirst, hcluster])]
      rw [hsame]
      exact Or.inr ⟨hprev, hnext⟩

/-- The list after another counter was handed out. -/
theorem LastInv.listAdd (h : LastInv s) (hsl : (sl.number : ℤ) = s.corrErrCounters) :
    LastInv { s with lru := Common.listAdd s.lru (.lru sl.cluster) .head
                     corrErrCounters := s.corrErrCounters + 1 } := by
  have hN : N = 63 := rfl
  rcases h with ⟨hzero, hinit⟩ | ⟨hprev, hnext⟩
  · have hcluster : sl.cluster = 0 := by
      rw [Slot.number, hN] at hsl
      omega
    have hhead : s.lru.next .head = .head := by simp [hinit]
    right
    rw [hcluster]
    refine ⟨?_, fun p hp => ?_⟩
    · simp [Common.listAdd, listInsert, hhead]
    · rw [listAdd_next, hhead] at hp
      by_cases hp0 : p = .lru 0
      · exact ⟨hp0, by simp [listAdd_next], by simp [hzero]⟩
      · by_cases hph : p = .head
        · simp [hph] at hp
        · simp [hp0, hph, hinit] at hp
  · have hhead : s.lru.next .head ≠ .head := fun hp => nomatch (hnext _ hp).1
    have hopen : ∀ p, (Common.listAdd s.lru (.lru sl.cluster) .head).next p ≠ .head := by
      by_cases hopen : ∀ p, s.lru.next p ≠ .head
      · exact listAdd_next_ne hopen (lru_ne_head _)
      · obtain ⟨p, hp⟩ := not_forall_not.mp hopen
        obtain ⟨-, hfirst, hone⟩ := hnext p hp
        have hcluster : sl.cluster = 0 := by
          rw [Slot.number, hN] at hsl
          omega
        rw [hcluster]
        refine listAdd_again_next_ne hfirst (lru_ne_head _) fun x hx hxh => ?_
        exact hx (hnext x hxh).1
    right
    exact ⟨(listAdd_prev_head hhead (lru_ne_head _)).trans hprev, fun p hp => absurd hp (hopen p)⟩

/-! ### The allocation -/

/-- A counter is taken from a last cluster with room. -/
theorem filling_takeSlot {last : ℕ} (hcurrent : s.mpCluster = some last)
    (hclusters : s.clusters = last + 1) (hroom : s.mpUsed last < N)
    (hcount : s.corrErrCounters = last * N + s.mpUsed last)
    (hrest : ∀ cl, s.clusters ≤ cl → s.mpUsed cl = 0) :
    (takeSlot s last).2.index < N ∧
      ((takeSlot s last).2.number : ℤ) = s.corrErrCounters ∧
      Filling { (takeSlot s last).1 with corrErrCounters := s.corrErrCounters + 1 } last := by
  refine ⟨hroom, by simp [takeSlot, Slot.number, hcount], hcurrent, hclusters, ?_, ?_, ?_, ?_⟩
  · simp [takeSlot]
  · simpa [takeSlot] using hroom
  · simp only [takeSlot, Function.update_self]
    push_cast
    linarith
  · intro cl hcl
    have hcl' : s.clusters ≤ cl := hcl
    have hne : cl ≠ last := by omega
    simpa [takeSlot, hne] using hrest cl hcl'

/-- `mempage_alloc` hands out the next counter. -/
theorem AllocInv.mempageAlloc (h : AllocInv c s) (hlt : s.corrErrCounters < c.maxCorrErrCounters) :
    (Page.mempageAlloc s).2.index < N ∧
      ((Page.mempageAlloc s).2.number : ℤ) = s.corrErrCounters ∧
      ∃ last, Filling { (Page.mempageAlloc s).1 with
        corrErrCounters := s.corrErrCounters + 1 } last := by
  have hN : 0 < N := by decide
  suffices hlast : ∃ s' last, Page.mempageAlloc s = takeSlot s' last ∧
      s'.corrErrCounters = s.corrErrCounters ∧ s'.mpCluster = some last ∧
      s'.clusters = last + 1 ∧ s'.mpUsed last < N ∧
      s'.corrErrCounters = last * N + s'.mpUsed last ∧
      ∀ cl, s'.clusters ≤ cl → s'.mpUsed cl = 0 by
    obtain ⟨s', last, heq, hcorr, hcurrent, hclusters, hroom, hcount, hrest⟩ := hlast
    obtain ⟨hindex, hnumber, hfill⟩ := filling_takeSlot hcurrent hclusters hroom hcount hrest
    rw [heq, ← hcorr]
    exact ⟨hindex, hnumber, last, hfill⟩
  rcases h with ⟨hnone, hzero, hclusters, hused⟩ | ⟨last, h⟩ | ⟨cluster, h⟩
  · refine ⟨{ s with mpCluster := some 0, clusters := 0 + 1 }, 0, ?_, rfl, rfl, rfl, ?_, ?_,
      fun cl _ => hused cl⟩
    · rw [Page.mempageAlloc, hnone, hclusters]
    · rw [hused]
      exact hN
    · simp [hused, hzero]
  · have hcount := h.count
    by_cases hfull : s.mpUsed last = N
    · have hnext : s.mpUsed (last + 1) = 0 := h.rest _ h.clusters.le
      refine ⟨{ s with mpCluster := some (last + 1), clusters := last + 1 + 1 }, last + 1, ?_, rfl,
        rfl, rfl, ?_, ?_, fun cl hcl => ?_⟩
      · rw [Page.mempageAlloc, h.current]
        dsimp only
        rw [if_pos hfull, h.clusters]
      · rw [hnext]
        exact hN
      · rw [hfull] at hcount
        rw [hnext, hcount]
        push_cast
        ring
      · have hcl' : last + 1 + 1 ≤ cl := hcl
        exact h.rest cl (by rw [h.clusters]; omega)
    · refine ⟨s, last, ?_, rfl, h.current, h.clusters, lt_of_le_of_ne h.used_le hfull, hcount,
        h.rest⟩
      rw [Page.mempageAlloc, h.current]
      dsimp only
      rw [if_neg hfull]
  · exact absurd h.full hlt.ne

/-- Once the limit is reached there is a cluster to recycle counters from. -/
theorem AllocInv.recycling (h : AllocInv c s) (hfull : s.corrErrCounters = c.maxCorrErrCounters)
    (hmul : ∃ q : ℕ, 0 < q ∧ c.maxCorrErrCounters = q * N) : ∃ cluster, Recycling c s cluster := by
  have hN : N = 63 := rfl
  obtain ⟨q, hq, hmax⟩ := hmul
  rcases h with ⟨-, hzero, -, -⟩ | ⟨last, h⟩ | h
  · rw [hN] at hmax
    omega
  · refine ⟨last, h.current, h.used_le, hfull, ?_⟩
    have hcount := h.count
    have hpos := h.used_pos
    rw [hN] at hmax hcount ⊢
    omega
  · exact h

/-- `mempage_replace` takes a counter that was handed out before. -/
theorem Recycling.mempageReplace {cluster : ℕ} (h : Recycling c s cluster)
    (hmul : ∃ q : ℕ, 0 < q ∧ c.maxCorrErrCounters = q * N) (hlast : listLastEntry s = some 0) :
    ∃ sl mpUsed cluster', Page.mempageReplace s = some
        ({ s.update sl (fun mp => { mp with
            offlined := .online, triggered := false, offlineThresholdMultiplier := 1
            ce := { mp.ce with count := 0 } }) with
          mpUsed := mpUsed, mpCluster := some cluster' }, sl) ∧
      sl.index < N ∧ (sl.number : ℤ) < s.corrErrCounters ∧ mpUsed cluster' ≤ N ∧
      ((cluster' + 1) * N : ℤ) ≤ c.maxCorrErrCounters := by
  have hN : N = 63 := rfl
  obtain ⟨q, hq, hmax⟩ := hmul
  have hinside := h.inside
  unfold Page.mempageReplace replaceCluster
  rw [h.current]
  by_cases hused : s.mpUsed cluster = N
  · refine ⟨⟨0, 0⟩, Function.update (Function.update s.mpUsed 0 0) 0 1, 0, ?_, by decide,
      ?_, ?_, ?_⟩
    · simp [hused, hlast, takeSlot, Store.update]
    · rw [h.full, hmax, hN]
      simp only [Slot.number]
      omega
    · simp [N]
    · rw [hmax, hN]
      omega
  · have hless := lt_of_le_of_ne h.used_le hused
    refine ⟨⟨cluster, s.mpUsed cluster⟩,
      Function.update s.mpUsed cluster (s.mpUsed cluster + 1), cluster, ?_, hless, ?_, ?_, hinside⟩
    · simp [hused, takeSlot, Store.update, h.current]
    · rw [h.full, Slot.number]
      rw [hN] at hinside hless ⊢
      push_cast
      omega
    · simpa using hless

/-! ### Finding a counter -/

/-- The counter `sl` of `s₁` for the page `addr`: what became of the map. -/
inductive Found (c : PageConf) (s s₁ : Store) (sl : Slot) (addr : UInt64) (now : ℤ) : Prop
  /-- a tracked page -/
  | hit : pageMap s addr = some (s.mp sl) → s₁.mp sl = s.mp sl → pageMap s₁ = pageMap s →
      Found c s s₁ sl addr now
  /-- a new page below the limit -/
  | new : pageMap s addr = none → s.corrErrCounters < c.maxCorrErrCounters →
      s₁.mp sl = .fresh addr now →
      pageMap s₁ = Function.update (pageMap s) addr (some (.fresh addr now)) →
      Found c s s₁ sl addr now
  /-- a new page that takes the counter of another one -/
  | recycled (victim : UInt64) : pageMap s addr = none →
      s.corrErrCounters = c.maxCorrErrCounters → s₁.mp sl = .fresh addr now →
      pageMap s victim ≠ none →
      pageMap s₁ = Function.update (Function.update (pageMap s) victim none) addr
        (some (.fresh addr now)) →
      Found c s s₁ sl addr now

theorem MapInv.lookup_eq_none (h : MapInv c s) (hlook : mempageLookup s addr = none) :
    ∀ tl ∈ s.root.toList, s.key tl ≠ addr :=
  h.ordered.lookup_eq_none_iff.mp hlook

theorem MapInv.hit (h : MapInv c s) (hlook : mempageLookup s addr = some sl) :
    MapInv c (mempageClusterLruListUpdate s sl.cluster) ∧ sl ∈ s.root.toList := by
  obtain ⟨hsl, -⟩ := h.ordered.lookup_eq_some_iff.mp hlook
  have hnum := ((h.handed sl).mp hsl).2
  exact ⟨⟨h.ordered, h.aligned, h.handed, h.count, h.bound, h.unused,
    h.alloc.congr rfl rfl rfl rfl, h.last.lruUpdate hnum⟩, hsl⟩

theorem Slot.number_inj {sl tl : Slot} (hsl : sl.index < N) (htl : tl.index < N)
    (heq : sl.number = tl.number) : sl = tl := by
  have hN : N = 63 := rfl
  obtain ⟨cluster, index⟩ := sl
  obtain ⟨cluster', index'⟩ := tl
  simp only [Slot.number, hN] at hsl htl heq
  obtain rfl : cluster = cluster' := by omega
  obtain rfl : index = index' := by omega
  rfl

/-- The counters handed out after the next one. -/
theorem Slot.handed_succ {n : ℤ} (hindex : sl.index < N) (hnum : (sl.number : ℤ) = n) (tl : Slot) :
    (tl = sl ∨ tl.index < N ∧ (tl.number : ℤ) < n) ↔ tl.index < N ∧ (tl.number : ℤ) < n + 1 := by
  constructor
  · rintro (rfl | ⟨hidx, hlt⟩)
    · exact ⟨hindex, by omega⟩
    · exact ⟨hidx, by omega⟩
  · rintro ⟨hidx, hle⟩
    by_cases hlt : (tl.number : ℤ) < n
    · exact Or.inr ⟨hidx, hlt⟩
    · exact Or.inl (Slot.number_inj hidx hindex (by omega))

theorem mem_cons_erase_iff {l : List Slot} (tl : Slot) :
    tl ∈ sl :: l.erase sl ↔ tl = sl ∨ tl ∈ l := by
  by_cases heq : tl = sl
  · simp [heq]
  · simp [heq, List.mem_erase_of_ne heq]

/-- The keys after the counter `sl` was changed for the page `addr`. -/
theorem key_of_relinked {mp' : Mempage} (hmp : s₁.mp = Function.update s.mp sl mp')
    (haddr : mp'.addr = addr) : s₁.key = Function.update s.key sl addr := by
  funext tl
  unfold Store.key
  rw [hmp]
  by_cases htl : tl = sl
  · rw [htl, Function.update_self, Function.update_self, haddr]
  · rw [Function.update_of_ne htl, Function.update_of_ne htl]

/-- Pages stay aligned and unused memory stays zero when the counter `sl` is linked
    for another page. -/
theorem MapInv.relinked (h : MapInv c s) (haddr : pageOf addr = addr)
    (hmp : s₁.mp = Function.update s.mp sl (.fresh addr now))
    (hmem : ∀ tl, tl ∈ s₁.root.toList ↔ tl = sl ∨ tl ∈ s.root.toList) :
    (∀ tl ∈ s₁.root.toList, pageOf (s₁.key tl) = s₁.key tl) ∧
      ∀ tl, tl ∉ s₁.root.toList → s₁.mp tl = .zero := by
  refine ⟨fun tl htl => ?_, fun tl htl => ?_⟩
  · rw [key_of_relinked hmp rfl]
    by_cases heq : tl = sl
    · rw [heq, Function.update_self]
      exact haddr
    · rw [Function.update_of_ne heq]
      exact h.aligned tl (((hmem tl).mp htl).resolve_left heq)
  · rw [hmem, not_or] at htl
    rw [hmp, Function.update_of_ne htl.1]
    exact h.unused tl htl.2

section Link

variable {s' : Store} (hroot : s'.root = s.root) (hkey : s'.key = s.key)

include hroot hkey

/-- The tree when a counter is linked whose memory was changed but for its page. -/
theorem MapInv.insert (rb : Rebalance Slot) (h : MapInv c s) (hlook : mempageLookup s addr = none)
    (hnot : sl ∉ s.root.toList) :
    (mempageInsert rb s' addr sl).root.Ordered (mempageInsert rb s' addr sl).key ∧
      (mempageInsert rb s' addr sl).root.toList.Perm (sl :: s.root.toList) := by
  have hord : s'.root.Ordered s'.key := by
    rw [hroot, hkey]
    exact h.ordered
  obtain ⟨hord', hperm⟩ := mempageInsert_tree rb addr hord (hroot ▸ hnot) (fun tl htl => by
    rw [hkey]
    exact h.lookup_eq_none hlook tl (hroot ▸ htl))
  rw [hroot] at hperm
  exact ⟨hord', hperm⟩

/-- The tree when the page of such a counter is replaced. -/
theorem MapInv.rbTreeUpdate (rb : Rebalance Slot) (h : MapInv c s)
    (hlook : mempageLookup s addr = none) (hsl : sl ∈ s.root.toList) :
    (mempageRbTreeUpdate rb s' addr sl).root.Ordered (mempageRbTreeUpdate rb s' addr sl).key ∧
      (mempageRbTreeUpdate rb s' addr sl).root.toList.Perm (sl :: s.root.toList.erase sl) := by
  have hord : s'.root.Ordered s'.key := by
    rw [hroot, hkey]
    exact h.ordered
  obtain ⟨hord', hperm⟩ := mempageRbTreeUpdate_tree rb addr hord (hroot ▸ hsl) (fun tl htl => by
    rw [hkey]
    exact h.lookup_eq_none hlook tl (hroot ▸ htl))
  rw [hroot] at hperm
  exact ⟨hord', hperm⟩

end Link

/-- A counter that was never handed out is linked for a new page. -/
theorem MapInv.newCounter (rb : Rebalance Slot) (now : ℤ) (h : MapInv c s)
    (haddr : pageOf addr = addr) (hlook : mempageLookup s addr = none)
    (hlt : s.corrErrCounters < c.maxCorrErrCounters) :
    ∃ s₁ sl, Page.newCounter rb s addr now = (s₁, sl) ∧ MapInv c s₁ ∧
      s₁.mp = Function.update s.mp sl (.fresh addr now) ∧ sl ∉ s.root.toList ∧
      s₁.root.toList.Perm (sl :: s.root.toList) := by
  obtain ⟨hindex, hnum, last, hfill⟩ := h.alloc.mempageAlloc hlt
  obtain ⟨hsl, root, mp', hmp', hstore⟩ := newCounter_spec rb s addr now
  obtain ⟨clusters, mpUsed, mpCluster, hframe⟩ := mempageAlloc_frame s
  set sl := (mempageAlloc s).2
  have hnot : sl ∉ s.root.toList := fun hmem => by
    have := ((h.handed sl).mp hmem).2
    omega
  let s' := (mempageAlloc s).1.update sl fun mp =>
    { mp with ce := { mp.ce with bucket := bucketInit now } }
  have hroot' : s'.root = s.root := by simp [s', hframe, Store.update]
  have hkey' : s'.key = s.key := (key_update rfl).trans (by rw [hframe]; rfl)
  obtain ⟨hord, hperm⟩ := MapInv.insert hroot' hkey' rb h hlook hnot
  have hroot : (Page.newCounter rb s addr now).1.root = (mempageInsert rb s' addr sl).root := rfl
  have hmp : (Page.newCounter rb s addr now).1.mp = Function.update s.mp sl (.fresh addr now) := by
    rw [hstore, hmp', h.unused sl hnot]
    simp [Store.update, hframe, Mempage.fresh, Mempage.zero]
  have hkey : (Page.newCounter rb s addr now).1.key = (mempageInsert rb s' addr sl).key := by
    obtain ⟨root', hins⟩ := mempageInsert_frame rb s' addr sl
    have hins' : (mempageInsert rb s' addr sl).mp = Function.update s'.mp sl
        { s'.mp sl with addr := addr } := by rw [hins]; rfl
    rw [key_of_relinked hmp rfl, key_of_relinked hins' rfl, hkey']
    rfl
  have hcorr : (Page.newCounter rb s addr now).1.corrErrCounters = s.corrErrCounters + 1 :=
    congrArg Store.corrErrCounters hstore
  have hmem : ∀ tl, tl ∈ (Page.newCounter rb s addr now).1.root.toList ↔
      tl = sl ∨ tl ∈ s.root.toList := by
    intro tl
    rw [hroot, hperm.mem_iff, List.mem_cons]
  obtain ⟨haligned, hunused⟩ := h.relinked haddr hmp hmem
  refine ⟨(Page.newCounter rb s addr now).1, sl, Prod.ext rfl hsl,
    ⟨?_, haligned, ?_, ?_, ?_, hunused, ?_, ?_⟩, hmp, hnot, hroot ▸ hperm⟩
  · rw [hroot, hkey]
    exact hord
  · intro tl
    rw [hmem, hcorr, h.handed]
    exact Slot.handed_succ hindex hnum tl
  · rw [hroot, hperm.length_eq, hcorr, ← h.count]
    simp
  · rw [hcorr]
    omega
  · have hfill' : AllocInv c _ := Or.inr (Or.inl ⟨last, hfill⟩)
    exact hfill'.congr (by rw [hstore]; rfl) (by rw [hstore]; rfl) (by rw [hstore]; rfl) hcorr
  · have hlast := h.last.listAdd hnum
    unfold LastInv at hlast ⊢
    rw [hcorr, hstore]
    exact hlast

/-- At the limit, the last entry of the LRU list is in the first cluster. -/
theorem MapInv.listLastEntry_eq (h : MapInv c s)
    (hmul : ∃ q : ℕ, 0 < q ∧ c.maxCorrErrCounters = q * N)
    (hfull : s.corrErrCounters = c.maxCorrErrCounters) : listLastEntry s = some 0 := by
  rcases h.last with ⟨hzero, -⟩ | ⟨hprev, -⟩
  · obtain ⟨q, hq, hmax⟩ := hmul
    have hN : N = 63 := rfl
    rw [hN] at hmax
    omega
  · rw [listLastEntry, hprev]

/-- A linked counter is taken from its page and linked for a new one. -/
theorem MapInv.recycledCounter (rb : Rebalance Slot) (t now : ℤ) (h : MapInv c s)
    (hmul : ∃ q : ℕ, 0 < q ∧ c.maxCorrErrCounters = q * N) (haddr : pageOf addr = addr)
    (hlook : mempageLookup s addr = none)
    (hfull : s.corrErrCounters = c.maxCorrErrCounters) :
    ∃ s₁ sl runs, Page.recycledCounter rb c s addr t now = some (s₁, sl, runs) ∧ MapInv c s₁ ∧
      s₁.mp = Function.update s.mp sl (.fresh addr now) ∧ sl ∈ s.root.toList ∧
      s₁.root.toList.Perm (sl :: s.root.toList.erase sl) := by
  obtain ⟨cluster, hrec⟩ := h.alloc.recycling hfull hmul
  obtain ⟨sl, mpUsed, cluster', hrep, hindex, hnum, hused, hinside⟩ :=
    hrec.mempageReplace hmul (h.listLastEntry_eq hmul hfull)
  have hsl : sl ∈ s.root.toList := (h.handed sl).mpr ⟨hindex, hnum⟩
  -- the counter is cleared before it is linked anew, with its old address still in it
  let cleared := s.update sl fun mp =>
    { mp with offlined := .online, triggered := false, offlineThresholdMultiplier := 1
              ce := { mp.ce with count := 0 } }
  let s' : Store := Store.update { cleared with mpUsed := mpUsed, mpCluster := some cluster' } sl
    fun mp => { mp with ce := { mp.ce with bucket := bucketInit now } }
  have hroot' : s'.root = s.root := rfl
  have hcleared : cleared.key = s.key := key_update rfl
  have hkey' : s'.key = s.key := (key_update rfl).trans hcleared
  obtain ⟨hord, hperm⟩ := MapInv.rbTreeUpdate hroot' hkey' rb h hlook hsl
  obtain ⟨root, hframe⟩ := mempageRbTreeUpdate_frame rb s' addr sl
  have hmp : (mempageRbTreeUpdate rb s' addr sl).mp =
      Function.update s.mp sl (.fresh addr now) := by
    rw [hframe]
    simp [s', cleared, Store.update, Mempage.fresh]
  have hmem : ∀ tl, tl ∈ (mempageRbTreeUpdate rb s' addr sl).root.toList ↔
      tl = sl ∨ tl ∈ s.root.toList := by
    intro tl
    rw [hperm.mem_iff, mem_cons_erase_iff]
  have hcorr : (mempageRbTreeUpdate rb s' addr sl).corrErrCounters = s.corrErrCounters := by
    rw [hframe]
    rfl
  obtain ⟨haligned, hunused⟩ := h.relinked haddr hmp hmem
  have heq : ∃ mr runs, Page.recycledCounter rb c s addr t now =
      some ({ mempageRbTreeUpdate rb s' addr sl with
        lru := lruUpdate (mempageRbTreeUpdate rb s' addr sl).lru sl.cluster
        mpReplacement := mr }, sl, runs) := by
    rw [Page.recycledCounter, hrep]
    exact ⟨_, _, rfl⟩
  obtain ⟨mr, runs, heq⟩ := heq
  refine ⟨_, sl, runs, heq, ⟨hord, haligned, ?_, ?_, ?_, hunused, ?_, ?_⟩, hmp, hsl, hperm⟩
  · intro tl
    dsimp only
    rw [hmem, hcorr, h.handed]
    constructor
    · rintro (rfl | hin)
      · exact ⟨hindex, hnum⟩
      · exact hin
    · exact Or.inr
  · dsimp only
    rw [hperm.length_eq, hcorr, ← h.count, List.length_cons]
    exact congrArg Nat.cast (List.length_erase_add_one hsl)
  · dsimp only
    rw [hcorr]
    exact h.bound
  · refine Or.inr (Or.inr ⟨cluster', ?_, ?_, ?_, hinside⟩)
    · dsimp only
      rw [hframe]
      rfl
    · dsimp only
      rw [hframe]
      exact hused
    · exact hcorr.trans hfull
  · have hnext := h.last.lruUpdate hnum
    unfold LastInv at hnext ⊢
    dsimp only at hnext ⊢
    rw [hcorr]
    rw [hframe]
    exact hnext

/-- `account_page_error` always has a counter for the page. -/
theorem MapInv.findCounter (rb : Rebalance Slot) (t now : ℤ) (h : MapInv c s)
    (hmul : ∃ q : ℕ, 0 < q ∧ c.maxCorrErrCounters = q * N) (haddr : pageOf addr = addr) :
    ∃ s₁ sl runs, Page.findCounter rb c s addr t now = some (s₁, sl, runs) ∧ MapInv c s₁ ∧
      Found c s s₁ sl addr now ∧ s₁.key sl = addr ∧
      ∀ tl, tl ∈ s₁.root.toList ↔ tl = sl ∨ tl ∈ s.root.toList := by
  unfold Page.findCounter
  cases hlook : mempageLookup s addr with
  | some sl =>
    obtain ⟨hinv, hsl⟩ := h.hit hlook
    have hkey := (h.ordered.lookup_eq_some_iff.mp hlook).2
    refine ⟨_, sl, _, rfl, hinv, .hit (by rw [pageMap, hlook]; rfl) rfl rfl, hkey, fun tl => ?_⟩
    refine ⟨Or.inr, fun htl => htl.elim (fun heq => heq ▸ hsl) id⟩
  | none =>
    have hnone : pageMap s addr = none := by
      rw [pageMap, hlook]
      rfl
    dsimp only
    by_cases hlt : s.corrErrCounters < c.maxCorrErrCounters
    · obtain ⟨s₁, sl, hnew, hinv, hmp, hnot, hperm⟩ := h.newCounter rb now haddr hlook hlt
      rw [if_pos hlt, hnew]
      have hmap := pageMap_of_relinked hinv.ordered hperm hmp
      rw [← pageMap_eq_counterMap h.ordered (List.Perm.refl _)] at hmap
      refine ⟨s₁, sl, _, rfl, hinv, .new hnone hlt ?_ hmap, ?_, fun tl => ?_⟩
      · rw [hmp, Function.update_self]
      · rw [key_of_relinked hmp rfl, Function.update_self]
        rfl
      · rw [hperm.mem_iff, List.mem_cons]
    · have hfull : s.corrErrCounters = c.maxCorrErrCounters := le_antisymm h.bound (not_lt.mp hlt)
      obtain ⟨s₁, sl, runs, hrec, hinv, hmp, hsl, hperm⟩ :=
        h.recycledCounter rb t now hmul haddr hlook hfull
      rw [if_neg hlt, hrec]
      have hbefore := pageMap_of_linked h.ordered hsl
      have hgone := counterMap_key_eq_none h.ordered (List.perm_cons_erase hsl)
      -- without the page of the recycled counter, the map is that of the other counters
      have hrest : Function.update (pageMap s) (s.key sl) none =
          counterMap s.mp (s.root.toList.erase sl) := by
        rw [hbefore, Function.update_idem]
        exact Function.update_eq_self_iff.mpr hgone.symm
      refine ⟨s₁, sl, runs, rfl, hinv, .recycled (s.key sl) hnone hfull ?_ ?_ ?_, ?_, fun tl => ?_⟩
      · rw [hmp, Function.update_self]
      · rw [hbefore, Function.update_self]
        exact fun hcontra => nomatch hcontra
      · rw [hrest]
        exact pageMap_of_relinked hinv.ordered hperm hmp
      · rw [key_of_relinked hmp rfl, Function.update_self]
        rfl
      · rw [hperm.mem_iff, mem_cons_erase_iff]

theorem MapInv.pageMap_update (h : MapInv c s) (hsl : sl ∈ s.root.toList) {f : Mempage → Mempage}
    (hf : (f (s.mp sl)).addr = (s.mp sl).addr) :
    pageMap (s.update sl f) = Function.update (pageMap s) (s.key sl) (some (f (s.mp sl))) := by
  have hinv := h.update hsl hf
  have hperm : (s.update sl f).root.toList.Perm (sl :: s.root.toList.erase sl) :=
    List.perm_cons_erase hsl
  rw [pageMap_of_relinked hinv.ordered hperm rfl, pageMap_of_linked h.ordered hsl,
    Function.update_idem, hf]
  rfl

end Step

/-! ## One call -/

/-- The entry that an error on an untracked page makes. If one error reaches the
    threshold, the entry has the outcome of its offline action. -/
def NewEntry (c : PageConf) (e : PageEvent) (mp : Mempage) : Prop :=
  mp.addr = pageOf e.m.addr ∧ mp.ce.count = 1 ∧
    (c.pageTriggerConf.capacity ≠ 1 →
      mp.offlined = .online ∧ mp.triggered = false ∧ mp.offlineThresholdMultiplier = 1) ∧
    (c.pageTriggerConf.capacity = 1 → mp.triggered = true ∧
      (mp.offlined, mp.offlineThresholdMultiplier) =
        if c.offline = .off ∨ c.offline = .account then (.online, 1)
        else if (memoryOffline c.offline e.sysfs (pageOf e.m.addr)).1 then (.offline, 1)
        else (.offlineFailed, c.offlineRetryBackoffBase))

/-- What a call makes of the map: an error on a tracked page counts for that page; one
    on an untracked page makes one new entry, and takes one other page out of the map
    once the limit is reached. No other entry changes. -/
def CallExact (c : PageConf) (cputype : CpuType) (s s' : Store) (e : PageEvent) : Prop :=
  if accountsPage c cputype e.m then
    (∀ mp, pageMap s (pageOf e.m.addr) = some mp → ∃ mp', mp'.ce.count = mp.ce.count + 1 ∧
      pageMap s' = Function.update (pageMap s) (pageOf e.m.addr) (some mp')) ∧
    (pageMap s (pageOf e.m.addr) = none → s.corrErrCounters < c.maxCorrErrCounters →
      ∃ mp', NewEntry c e mp' ∧
        pageMap s' = Function.update (pageMap s) (pageOf e.m.addr) (some mp')) ∧
    (pageMap s (pageOf e.m.addr) = none → s.corrErrCounters = c.maxCorrErrCounters →
      ∃ mp' victim, NewEntry c e mp' ∧ pageMap s victim ≠ none ∧
        pageMap s' = Function.update (Function.update (pageMap s) victim none)
          (pageOf e.m.addr) (some mp'))
  else s' = s

section Call

variable {c : PageConf} {cputype : CpuType} {s s₁ : Store} {sl : Slot} {e : PageEvent}

theorem pageOf_pageOf (addr : UInt64) : pageOf (pageOf addr) = pageOf addr := by
  unfold pageOf
  rw [UInt64.and_assoc, UInt64.and_self]

theorem dvd_of_pageOf {addr : UInt64} (h : pageOf addr = addr) : 4096 ∣ addr.toNat := by
  have hlow : addr &&& 4095 = 0 := by
    rw [← h, pageOf, UInt64.and_assoc]
    exact UInt64.and_zero
  have hnat : addr.toNat &&& (2 ^ 12 - 1) = 0 := congrArg UInt64.toNat hlow
  rw [Nat.and_two_pow_sub_one_eq_mod] at hnat
  exact Nat.dvd_of_mod_eq_zero hnat

/-- A counter that was just handed out, after the error. -/
theorem newEntry_charge (c : PageConf) (e : PageEvent) (now : ℤ) :
    NewEntry c e ((Mempage.fresh (pageOf e.m.addr) now).charge c e) := by
  have hover := fresh_overflows c e (pageOf e.m.addr) now
  have hsettled := fresh_not_settled c (pageOf e.m.addr) now
  refine ⟨charge_addr _ _ _, ?_, fun hne => ?_, fun heq => ?_⟩
  · rw [charge_ce]
    rfl
  · rw [Mempage.charge, if_neg (by simp [hover, hne])]
    exact ⟨rfl, rfl, rfl⟩
  · rw [Mempage.charge, if_pos ⟨by simp [hover, heq], hsettled⟩]
    refine ⟨(offlineAction_frame _ _ _ _).2.2, ?_⟩
    unfold offlineAction
    split_ifs with hoff hok
    · rfl
    · generalize memoryOffline c.offline e.sysfs (pageOf e.m.addr) = p at hok
      obtain ⟨ok, effects⟩ := p
      obtain rfl : ok = true := hok
      rfl
    · generalize memoryOffline c.offline e.sysfs (pageOf e.m.addr) = p at hok
      obtain ⟨ok, effects⟩ := p
      obtain rfl : ok = false := by simpa using hok
      simp [Mempage.count, Mempage.fresh]

/-- The map after the counter that was found is charged. -/
theorem Found.callExact (h : Found c s s₁ sl (pageOf e.m.addr) e.now)
    (hacc : accountsPage c cputype e.m = true) {s' : Store}
    (hmap : pageMap s' =
      Function.update (pageMap s₁) (pageOf e.m.addr) (some ((s₁.mp sl).charge c e))) :
    CallExact c cputype s s' e := by
  rw [CallExact, if_pos hacc]
  cases h with
  | hit hfound hmp hsame =>
    refine ⟨fun mp hmp' => ⟨_, ?_, hsame ▸ hmap⟩, fun hnone => ?_, fun hnone => ?_⟩
    · rw [charge_ce, hmp, Option.some.inj (hmp'.symm.trans hfound)]
      rfl
    · rw [hfound] at hnone
      cases hnone
    · rw [hfound] at hnone
      cases hnone
  | new hnone hlt hmp hnew =>
    rw [hmp, hnew, Function.update_idem] at hmap
    refine ⟨fun mp hmp' => ?_, fun _ _ => ⟨_, newEntry_charge c e _, hmap⟩, fun _ hfull => ?_⟩
    · rw [hnone] at hmp'
      cases hmp'
    · exact absurd hfull hlt.ne
  | recycled victim hnone hfull hmp hvictim hnew =>
    rw [hmp, hnew, Function.update_idem] at hmap
    refine ⟨fun mp hmp' => ?_, fun _ hlt => ?_,
      fun _ _ => ⟨_, victim, newEntry_charge c e _, hvictim, hmap⟩⟩
    · rw [hnone] at hmp'
      cases hmp'
    · exact absurd hfull hlt.ne

/-- One call keeps the invariant, and makes of the map what it should. -/
theorem MapInv.call (rb : Rebalance Slot) (cputype : CpuType) (db : Memdb) (e : PageEvent)
    (h : MapInv c s)
    (hmul : ∃ q : ℕ, 0 < q ∧ c.maxCorrErrCounters = q * N) :
    ∃ db' s', (pageStep rb c cputype (some (db, s)) e).1 = some (db', s') ∧ MapInv c s' ∧
      CallExact c cputype s s' e ∧
      ∀ sl, sl ∈ s'.root.toList ↔
        some sl = (pageStep rb c cputype (some (db, s)) e).2.charged ∨ sl ∈ s.root.toList := by
  rw [pageStep]
  cases hacc : accountsPage c cputype e.m with
  | false =>
    rw [accountPageError_of_not_accounts hacc]
    exact ⟨db, s, rfl, h, by simp [CallExact, hacc], by simp⟩
  | true =>
    obtain ⟨s₁, sl, runs, hfind, hinv, hfound, hkey, hmem⟩ :=
      h.findCounter rb (timeT e.m) e.now hmul (pageOf_pageOf e.m.addr)
    obtain ⟨db', hcall⟩ := accountPageError_of_findCounter db hacc hfind
    have hsl : sl ∈ s₁.root.toList := (hmem sl).mpr (Or.inl rfl)
    have haddr := charge_addr c e (s₁.mp sl)
    have hmap := hinv.pageMap_update hsl haddr
    rw [hkey] at hmap
    rw [hcall]
    refine ⟨db', _, rfl, hinv.update hsl haddr, hfound.callExact hacc hmap, fun tl => ?_⟩
    have hroot : (s₁.update sl (Mempage.charge c e)).root = s₁.root := rfl
    simp [hroot, hmem]

end Call

/-! ## Whole runs -/

/-- The store is a map of at most `max_corr_err_counters` pages. `outs` are the
    outputs of the calls so far, with the counter that each one charged. -/
structure StoreExact (c : PageConf) (s : Store) (outs : List PageOut) : Prop where
  aligned : ∀ addr, mempageLookup s addr ≠ none → 4096 ∣ addr.toNat
  distinct : (s.root.toList.map s.key).Nodup
  reachable : ∀ sl ∈ s.root.toList, mempageLookup s (s.key sl) = some sl
  /-- every counter ever handed out is linked once -/
  linked : ∀ sl, s.root.toList.count sl = if some sl ∈ outs.map PageOut.charged then 1 else 0
  count : (s.root.toList.length : ℤ) = s.corrErrCounters
  bound : s.corrErrCounters ≤ c.maxCorrErrCounters

theorem MapInv.storeExact {c : PageConf} {s : Store} {outs : List PageOut} (h : MapInv c s)
    (houts : ∀ sl, sl ∈ s.root.toList ↔ some sl ∈ outs.map PageOut.charged) :
    StoreExact c s outs where
  aligned := by
    intro addr hne
    obtain ⟨sl, hlook⟩ := Option.ne_none_iff_exists'.mp hne
    obtain ⟨hsl, hkey⟩ := h.ordered.lookup_eq_some_iff.mp hlook
    exact dvd_of_pageOf (hkey ▸ h.aligned sl hsl)
  distinct := List.Nodup.map_on (fun _ hx _ hy heq => h.ordered.key_inj hx hy heq) h.ordered.nodup
  reachable := fun _ hsl => h.ordered.lookup_eq_some_iff.mpr ⟨hsl, rfl⟩
  linked := by
    intro sl
    split_ifs with hmem
    · exact List.count_eq_one_of_mem h.ordered.nodup ((houts sl).mpr hmem)
    · exact List.count_eq_zero_of_not_mem fun hsl => hmem ((houts sl).mp hsl)
  count := h.count
  bound := h.bound

/-- No run crashes, and every run keeps the invariant. -/
theorem mapInv_run (rb : Rebalance Slot) (c : PageConf) (cputype : CpuType) (db : Memdb) (now : ℤ)
    (hmul : ∃ q : ℕ, 0 < q ∧ c.maxCorrErrCounters = q * N) (es : List PageEvent) :
    ∃ db' s', runState (pageStep rb c cputype) (some (db, Store.setup now)) es = some (db', s') ∧
      MapInv c s' ∧ ∀ sl, sl ∈ s'.root.toList ↔ some sl ∈
        (runOut (pageStep rb c cputype) (some (db, Store.setup now)) es).map PageOut.charged := by
  induction es using List.reverseRecOn with
  | nil =>
    have hpos : 0 < c.maxCorrErrCounters := by
      obtain ⟨q, hq, hmax⟩ := hmul
      have hN : N = 63 := rfl
      rw [hmax, hN]
      omega
    exact ⟨db, _, rfl, mapInv_setup c now hpos, fun sl => by simp [Store.setup, SearchTree.toList]⟩
  | append_singleton es e ih =>
    obtain ⟨db₁, s₁, hrun, hinv, hmem⟩ := ih
    obtain ⟨db', s', hstep, hinv', -, hmem'⟩ := hinv.call rb cputype db₁ e hmul
    refine ⟨db', s', ?_, hinv', fun sl => ?_⟩
    · rw [runState_append, hrun]
      exact hstep
    · rw [hmem', runOut_append, hrun, hmem]
      simp [or_comm]

/-- **The page counter store is a bounded exact map.** For every rebalancing of the
    tree, every CPU and all settings whose counter limit is a positive multiple of the
    cluster size, after every run of errors from `page_setup`: no call crashes, the
    store is a map of at most `max_corr_err_counters` pages in which every counter
    ever handed out is linked once, and the next call changes the map as it should,
    whatever its error. -/
theorem page_store_exact (rb : Rebalance Slot) (c : PageConf) (cputype : CpuType) (db : Memdb)
    (now : ℤ) (hmul : ∃ q : ℕ, 0 < q ∧ c.maxCorrErrCounters = q * N) (es : List PageEvent) :
    ∃ db' s', runState (pageStep rb c cputype) (some (db, Store.setup now)) es = some (db', s') ∧
      StoreExact c s' (runOut (pageStep rb c cputype) (some (db, Store.setup now)) es) ∧
      ∀ e, ∃ db'' s'', (pageStep rb c cputype (some (db', s')) e).1 = some (db'', s'') ∧
        CallExact c cputype s' s'' e := by
  obtain ⟨db', s', hrun, hinv, hmem⟩ := mapInv_run rb c cputype db now hmul es
  refine ⟨db', s', hrun, hinv.storeExact hmem, fun e => ?_⟩
  obtain ⟨db'', s'', hstep, -, hexact, -⟩ := hinv.call rb cputype db' e hmul
  exact ⟨db'', s'', hstep, hexact⟩

/-! ## One cluster -/

/-- One cluster of counters, soft offlining, and a threshold of `capacity` errors a
    day. -/
def oneCluster (capacity : UInt32) : PageConf :=
  { pageTriggerConf := { capacity := capacity, agetime := 86400, tunit := 'h' }
    mpReplacementTriggerConf := { capacity := 0, agetime := 0, tunit := '\x00' }
    offline := .soft, maxCorrErrCounters := 63 }

/-- A corrected error on a page that the kernel can offline. -/
def offlineableError (addr : UInt64) : PageEvent :=
  { m := { status := mciStatusAddrv, addr := addr }, channel := -1, dimm := -1, now := 0,
    sysfs := fun _ => true }

/-- After errors on 100 pages the store of 63 counters is exact. -/
theorem page_store_exact_one_cluster : ∃ db' s',
    runState (pageStep (Rebalance.plain Slot) (oneCluster 10) .nehalem)
      (some (Memdb.empty, Store.setup 0))
      ((List.range 100).map fun i => offlineableError (.ofNat (4096 * i))) = some (db', s') ∧
    StoreExact (oneCluster 10) s'
      (runOut (pageStep (Rebalance.plain Slot) (oneCluster 10) .nehalem)
        (some (Memdb.empty, Store.setup 0))
        ((List.range 100).map fun i => offlineableError (.ofNat (4096 * i)))) := by
  obtain ⟨db', s', hrun, hexact, -⟩ := page_store_exact (Rebalance.plain Slot) (oneCluster 10)
    .nehalem Memdb.empty 0 ⟨1, by decide, rfl⟩
    ((List.range 100).map fun i => offlineableError (.ofNat (4096 * i)))
  exact ⟨db', s', hrun, hexact⟩

/-- If one error a day is the threshold, the error that makes the entry of a page also
    triggers it: the new entry is offline. -/
theorem new_counter_triggered : ∃ db' s' mp,
    (pageStep (Rebalance.plain Slot) (oneCluster 1) .nehalem (some (Memdb.empty, Store.setup 0))
      (offlineableError 0x1000)).1 = some (db', s') ∧
    pageMap (Store.setup 0) 0x1000 = none ∧ pageMap s' 0x1000 = some mp ∧ mp.ce.count = 1 ∧
    mp.offlined = .offline ∧ mp.triggered = true ∧
    ¬ (mp.offlined = .online ∧ mp.triggered = false ∧ mp.offlineThresholdMultiplier = 1) :=
  ⟨_, _, _, rfl, rfl, rfl, rfl, rfl, rfl, fun h => nomatch h.1⟩

end Mcelog.Page
