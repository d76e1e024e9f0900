import Mcelog.Common.Run
import Mcelog.Page.Account

/-!
# The LRU list of the clusters

Whether `mempage_cluster_lru_list` orders the clusters by their last error, so
that `mempage_replace` recycles the least recently used one.

* `LruExact`: what the list should be after a history of accounted errors.
* `lru_exact_iff`: after a run from `page_setup`, the list is exact if and only
  if all accounted errors of the run were on one page. `account_page_error` adds
  the cluster of every new counter to the list, also a cluster that is on it,
  and the second counter of the first cluster already makes its `next` pointer
  point to itself.
-/

namespace Mcelog.Page

open Mcelog.Bucket Mcelog.Common Mcelog.Machine Mcelog.Memory

/-! ## Runs -/

/-- The settings after `page_setup` rounded the counter limit up. -/
def PageConf.setup (c : PageConf) (maxCorrErrCounters : Int32) : PageConf :=
  { c with maxCorrErrCounters := roundupCounters maxCorrErrCounters }

/-- The pages of the errors that are accounted, in order. -/
def accountedPages (c : PageConf) (cputype : CpuType) (es : List PageEvent) : List UInt64 :=
  (es.filter fun e => accountsPage c cputype e.m).map fun e => pageOf e.m.addr

/-- All pages of the list are the same. -/
def OnePage (pages : List UInt64) : Prop := ∀ p ∈ pages, ∀ q ∈ pages, p = q

instance (pages : List UInt64) : Decidable (OnePage pages) :=
  have (p : UInt64) : Decidable (∀ q ∈ pages, p = q) := List.decidableBAll (fun q => p = q) pages
  List.decidableBAll (fun p => ∀ q ∈ pages, p = q) pages

/-- The clusters that were charged, the most recent one first. -/
def history (outs : List PageOut) : List ℕ :=
  (outs.filterMap fun out => out.charged.map Slot.cluster).reverse

/-- The LRU list enumerates the allocated clusters without duplicates along
    `next`, in reverse along `prev`, ordered by their last error with the most
    recent one first; and a cluster that `mempage_replace` takes from its end is
    the one whose last error is the oldest. -/
def LruExact (s : Store) (hist : List ℕ) : Prop :=
  (∃ l : List ℕ, IsList .head (l.map .lru) s.lru ∧ (∀ k, k ∈ l ↔ k < s.clusters) ∧
    l.Pairwise fun a b => hist.idxOf a < hist.idxOf b) ∧
  ∀ current, s.mpCluster = some current → s.mpUsed current = N →
    ∃ victim < s.clusters, listLastEntry s = some victim ∧
      ∀ k < s.clusters, hist.idxOf k ≤ hist.idxOf victim

/-! ## The three phases of a run -/

/-- Before the first accounted error. -/
structure Untouched (s : Store) : Prop where
  root : s.root = .leaf
  clusters : s.clusters = 0
  mpCluster : s.mpCluster = none
  mpUsed : s.mpUsed 0 = 0
  corrErrCounters : s.corrErrCounters = 0
  lru : ∀ p, s.lru.next p = if p = .head then .head else .null
  lruPrev : s.lru.prev .head = .head

/-- While all errors were on the page `p`. -/
structure OneCounter (p : UInt64) (s : Store) : Prop where
  root : s.root.toList = [⟨0, 0⟩]
  addr : (s.mp ⟨0, 0⟩).addr = p
  clusters : s.clusters = 1
  mpCluster : s.mpCluster = some 0
  mpUsed : s.mpUsed 0 = 1
  corrErrCounters : s.corrErrCounters = 1
  lru : IsList .head [.lru 0] s.lru
  others : ∀ x, x ≠ .lru 0 → s.lru.next x ≠ .head

/-- Once a second page came: no `next` pointer leads back to the list head. -/
def LruOpen (s : Store) : Prop := ∀ x, s.lru.next x ≠ .head

theorem untouched_setup (now : ℤ) : Untouched (Store.setup now) :=
  ⟨rfl, rfl, rfl, rfl, rfl, fun _ => rfl, rfl⟩

theorem OneCounter.update {p : UInt64} {s : Store} {mp' : Mempage} (h : OneCounter p s)
    (haddr : mp'.addr = (s.mp ⟨0, 0⟩).addr) : OneCounter p (s.update ⟨0, 0⟩ fun _ => mp') :=
  ⟨h.root, by simp [haddr, h.addr], h.clusters, h.mpCluster, h.mpUsed, h.corrErrCounters, h.lru,
    h.others⟩

section Steps

variable {rb : Rebalance Slot} {c : PageConf} {s s₁ : Store} {sl : Slot} {effects : List Effect}
  {addr p : UInt64} {t now : ℤ}

/-! ## One accounted error in each phase -/

theorem newCounter_root_of_leaf (rb : Rebalance Slot) (addr : UInt64) (now : ℤ)
    (h : s.root = .leaf) : (newCounter rb s addr now).1.root.toList = [(mempageAlloc s).2] := by
  obtain ⟨clusters, mpUsed, mpCluster, hframe⟩ := mempageAlloc_frame s
  have hroot : (newCounter rb s addr now).1.root =
      rb.insertColor (.node .leaf (mempageAlloc s).2 .leaf) (mempageAlloc s).2 := by
    simp [newCounter, mempageInsert, mempageClusterLruListInsert, Store.update, hframe, h,
      SearchTree.link]
  rw [hroot, rb.toList_insertColor]
  rfl

/-- The first error allocates the first cluster. -/
theorem Untouched.findCounter (h : Untouched s)
    (hf : Page.findCounter rb c s addr t now = some (s₁, sl, effects)) :
    OneCounter addr s₁ ∧ sl = ⟨0, 0⟩ ∧ 0 < c.maxCorrErrCounters := by
  have hlook : mempageLookup s addr = none := by
    rw [mempageLookup, h.root]
    rfl
  have halloc : mempageAlloc s =
      ({ s with mpCluster := some 0, clusters := 1, mpUsed := Function.update s.mpUsed 0 1 },
        ⟨0, 0⟩) := by
    unfold mempageAlloc
    rw [h.mpCluster]
    simp [takeSlot, h.clusters, h.mpUsed]
  rw [Page.findCounter, hlook] at hf
  dsimp only at hf
  split_ifs at hf with hmax
  · rw [h.corrErrCounters] at hmax
    obtain ⟨rfl, rfl, -⟩ := by simpa using hf
    obtain ⟨hsl, root, mp', hmp', hstore⟩ := newCounter_spec rb s addr now
    have hroot := newCounter_root_of_leaf rb addr now h.root
    rw [halloc] at hsl hstore hroot
    have hlist : IsList .head [] s.lru := isList_nil (h.lru .head) h.lruPrev
    refine ⟨⟨?_, ?_, ?_, ?_, ?_, ?_, ?_, ?_⟩, hsl, hmax⟩
    · exact hroot
    · simp [hstore, Store.update, hmp']
    · simp [hstore, Store.update]
    · simp [hstore, Store.update]
    · simp [hstore, Store.update]
    · simp [hstore, h.corrErrCounters]
    · simp only [hstore]
      exact hlist.listAdd (by simp)
    · intro x hx
      simp only [hstore, listAdd_next]
      by_cases hhead : x = .head
      · simp [hhead]
      · simp [hhead, hx, h.lru]
  · have hrep : mempageReplace s = none := by
      rw [mempageReplace, replaceCluster, h.mpCluster]
      rfl
    rw [recycledCounter, hrep] at hf
    cases hf

/-- An error on the one known page changes nothing in the list. -/
theorem OneCounter.findCounter_same (h : OneCounter p s)
    (hf : Page.findCounter rb c s p t now = some (s₁, sl, effects)) : s₁ = s ∧ sl = ⟨0, 0⟩ := by
  have hlook : mempageLookup s p = some ⟨0, 0⟩ := by
    rw [mempageLookup, SearchTree.lookup_of_toList_singleton h.root]
    simp [Store.key, h.addr]
  have hfirst : listIsFirst s.lru (.lru 0) .head = true := by
    simpa [listIsFirst] using h.lru.next.1.symm
  rw [Page.findCounter, hlook] at hf
  obtain ⟨rfl, rfl, -⟩ := by simpa using hf
  simp [mempageClusterLruListUpdate, lruUpdate, hfirst]

/-- An error on a second page adds the first cluster to the list once more. -/
theorem OneCounter.findCounter_other (h : OneCounter p s) (hne : addr ≠ p)
    (hmax : 1 < c.maxCorrErrCounters)
    (hf : Page.findCounter rb c s addr t now = some (s₁, sl, effects)) : LruOpen s₁ := by
  have hlook : mempageLookup s addr = none := by
    rw [mempageLookup, SearchTree.lookup_of_toList_singleton h.root]
    simp only [Store.key, h.addr]
    split_ifs with h1 h2
    · rfl
    · rfl
    · rw [UInt64.lt_iff_toNat_lt] at h1 h2
      exact absurd (UInt64.toNat_inj.mp (by omega)) hne
  have halloc : (mempageAlloc s).2.cluster = 0 := by
    unfold mempageAlloc
    rw [h.mpCluster]
    simp [h.mpUsed, N, takeSlot]
  rw [Page.findCounter, hlook] at hf
  dsimp only at hf
  rw [if_pos (by rw [h.corrErrCounters]; exact hmax)] at hf
  obtain ⟨rfl, rfl, -⟩ := by simpa using hf
  obtain ⟨-, root, mp', -, hstore⟩ := newCounter_spec rb s addr now
  intro x
  rw [hstore, halloc]
  exact listAdd_again_next_ne h.lru.next.1 (lru_ne_head _) h.others x

/-- The list stays broken. -/
theorem LruOpen.findCounter (h : LruOpen s)
    (hf : Page.findCounter rb c s addr t now = some (s₁, sl, effects)) : LruOpen s₁ := by
  unfold Page.findCounter at hf
  split at hf
  · obtain ⟨rfl, -, -⟩ := by simpa using hf
    exact lruUpdate_next_ne h _
  · split_ifs at hf
    · obtain ⟨rfl, -, -⟩ := by simpa using hf
      obtain ⟨-, root, mp', -, hstore⟩ := newCounter_spec rb s addr now
      intro x
      rw [hstore]
      exact listAdd_next_ne h (lru_ne_head _) x
    · obtain ⟨-, hlru, -⟩ := recycledCounter_spec hf
      intro x
      rw [hlru]
      exact lruUpdate_next_ne h _ x

end Steps

/-! ## Whole runs -/

/-- A setting below -62 wraps around in 64 bits, and nothing positive is left of it. -/
theorem roundupCounters_wrapped {n : Int32} (h : n.toInt < -62) : ¬ 0 < roundupCounters n := by
  have hlo := n.le_toInt
  have hN : (N : ℤ) = 63 := rfl
  have hsum : (n.toInt + 63 - 1) % 2 ^ 64 = n.toInt + 62 + 2 ^ 64 := by omega
  rw [roundupCounters]
  simp only [hN, hsum]
  generalize hup : (n.toInt + 62 + 2 ^ 64) / 63 = q
  have htrunc : (q * 63 + 2 ^ 31) % 2 ^ 32 = q * 63 + 2 ^ 31 - 2 ^ 64 := by omega
  omega

/-- Any other setting is rounded up, and the result is truncated to an `int`. -/
theorem roundupCounters_eq {n : Int32} (h : ¬ n.toInt < -62) :
    roundupCounters n = ((n.toInt + 62) / 63 * 63 + 2 ^ 31) % 2 ^ 32 - 2 ^ 31 := by
  have hhi := n.toInt_lt
  have hN : (N : ℤ) = 63 := rfl
  have hsum : (n.toInt + 63 - 1) % 2 ^ 64 = n.toInt + 62 := by omega
  rw [roundupCounters]
  simp only [hN, hsum]

/-- A positive limit that `page_setup` computes is a number of whole clusters. -/
theorem roundupCounters_clusters {n : Int32} (h : 0 < roundupCounters n) :
    ∃ q : ℕ, 0 < q ∧ roundupCounters n = q * N := by
  have hhi := n.toInt_lt
  have hN : (N : ℤ) = 63 := rfl
  have hwrap : ¬ n.toInt < -62 := fun hwrap => roundupCounters_wrapped hwrap h
  rw [roundupCounters_eq hwrap] at h ⊢
  generalize hup : (n.toInt + 62) / 63 = q at h ⊢
  -- a product that does not fit leaves nothing positive
  have hfits : q * 63 < 2 ^ 31 := by
    by_contra hbig
    have htrunc : (q * 63 + 2 ^ 31) % 2 ^ 32 = q * 63 + 2 ^ 31 - 2 ^ 32 := by omega
    omega
  exact ⟨q.toNat, by omega, by rw [hN]; omega⟩

/-- The limit that `page_setup` computes allows no counter at all, or at least
    the counters of one cluster. -/
theorem le_roundupCounters {n : Int32} (h : 0 < roundupCounters n) : 63 ≤ roundupCounters n := by
  obtain ⟨q, hq, heq⟩ := roundupCounters_clusters h
  have hN : (N : ℤ) = 63 := rfl
  rw [heq, hN]
  omega

/-- The phase of a run whose accounted errors were on `pages` and charged the
    clusters `hist`. -/
def LruInv (c : PageConf) (pages : List UInt64) (hist : List ℕ) (s : Store) : Prop :=
  (pages = [] ∧ hist = [] ∧ Untouched s) ∨
    (∃ p, pages ≠ [] ∧ (∀ q ∈ pages, q = p) ∧ 0 < c.maxCorrErrCounters ∧ OneCounter p s) ∨
    (¬ OnePage pages ∧ LruOpen s)

section Runs

variable {rb : Rebalance Slot} {c : PageConf} {n : Int32} {cputype : CpuType} {db db' : Memdb}
  {s s' : Store} {e : PageEvent} {es : List PageEvent} {pages : List UInt64} {hist : List ℕ}
  {r : AccountResult}

theorem LruInv.exact_iff (h : LruInv c pages hist s) : LruExact s hist ↔ OnePage pages := by
  rcases h with ⟨rfl, rfl, hs⟩ | ⟨p, -, hall, -, hs⟩ | ⟨hne, hopen⟩
  · refine ⟨fun _ p hp => absurd hp List.not_mem_nil, fun _ => ⟨⟨[], ?_, ?_, .nil⟩, ?_⟩⟩
    · exact isList_nil (hs.lru .head) hs.lruPrev
    · simp [hs.clusters]
    · intro current hcur
      rw [hs.mpCluster] at hcur
      cases hcur
  · refine ⟨fun _ q hq q' hq' => (hall q hq).trans (hall q' hq').symm,
      fun _ => ⟨⟨[0], hs.lru, ?_, List.pairwise_singleton _ _⟩, ?_⟩⟩
    · simp [hs.clusters]
    · intro current hcur hused
      rw [hs.mpCluster] at hcur
      obtain rfl := Option.some.inj hcur
      rw [hs.mpUsed] at hused
      exact absurd hused (by decide)
  · refine ⟨fun ⟨⟨_, hl, _⟩, _⟩ => absurd hl (not_isList hopen _), fun h => absurd h hne⟩

/-- One accounted error moves the run to its next phase. -/
theorem LruInv.step (h : LruInv c pages hist s) (hmax : 0 < c.maxCorrErrCounters →
    1 < c.maxCorrErrCounters) (hacc : accountsPage c cputype e.m = true)
    (hr : accountPageError rb c cputype db s e = some r) :
    ∃ sl, r.charged = some sl ∧
      LruInv c (pages ++ [pageOf e.m.addr]) (sl.cluster :: hist) r.store := by
  obtain ⟨s₁, sl, runs, mp', hfind, hcharged, hstore, haddr, -⟩ := accountPageError_spec hacc hr
  refine ⟨sl, hcharged, ?_⟩
  rw [hstore]
  rcases h with ⟨rfl, rfl, hs⟩ | ⟨p, hne, hall, hpos, hs⟩ | ⟨hne, hopen⟩
  · obtain ⟨hone, rfl, hpos⟩ := hs.findCounter hfind
    exact Or.inr (Or.inl ⟨_, by simp, by simp, hpos, hone.update haddr⟩)
  · by_cases hp : pageOf e.m.addr = p
    · rw [hp] at hfind ⊢
      obtain ⟨rfl, rfl⟩ := hs.findCounter_same hfind
      refine Or.inr (Or.inl ⟨p, by simp, ?_, hpos, hs.update haddr⟩)
      intro q hq
      rcases List.mem_append.mp hq with hq | hq
      · exact hall q hq
      · exact List.mem_singleton.mp hq
    · have hopen : LruOpen s₁ := hs.findCounter_other hp (hmax hpos) hfind
      refine Or.inr (Or.inr ⟨?_, hopen⟩)
      intro hone
      obtain ⟨q, hq⟩ := List.exists_mem_of_ne_nil _ hne
      have := hone _ (List.mem_append_right _ (List.mem_singleton_self _)) q
        (List.mem_append_left _ hq)
      exact hp (this.trans (hall q hq))
  · have hopen₁ : LruOpen s₁ := hopen.findCounter hfind
    refine Or.inr (Or.inr ⟨fun hone => hne ?_, hopen₁⟩)
    intro p hp q hq
    exact hone p (List.mem_append_left _ hp) q (List.mem_append_left _ hq)

/-- Every run from `page_setup` that does not crash is in one of the phases. -/
theorem lruInv_run (db : Memdb) (now : ℤ) (es : List PageEvent) :
    ∀ {db' s'}, runState (pageStep rb (c.setup n) cputype) (some (db, Store.setup now)) es =
        some (db', s') →
      LruInv (c.setup n) (accountedPages (c.setup n) cputype es)
        (history (runOut (pageStep rb (c.setup n) cputype) (some (db, Store.setup now)) es))
        s' := by
  induction es using List.reverseRecOn with
  | nil =>
    intro db' s' hrun
    obtain ⟨-, rfl⟩ := Prod.mk.inj (Option.some.inj hrun)
    exact Or.inl ⟨rfl, rfl, untouched_setup now⟩
  | append_singleton es e ih =>
    intro db' s' hrun
    rw [runState_append] at hrun
    rw [runOut_append]
    generalize runState (pageStep rb (c.setup n) cputype) (some (db, Store.setup now)) es = st
      at hrun ih ⊢
    cases st with
    | none => cases hrun
    | some st =>
      obtain ⟨db₁, s₁⟩ := st
      have hinv := ih rfl
      have hpages : accountedPages (c.setup n) cputype (es ++ [e]) =
          accountedPages (c.setup n) cputype es ++ accountedPages (c.setup n) cputype [e] := by
        simp [accountedPages]
      simp only [runState_cons, runState_nil, runOut_cons, runOut_nil, pageStep] at hrun ⊢
      rw [hpages]
      cases hacc : accountsPage (c.setup n) cputype e.m with
      | false =>
        rw [accountPageError_of_not_accounts hacc] at hrun ⊢
        obtain ⟨-, rfl⟩ := Prod.mk.inj (Option.some.inj hrun)
        simpa [accountedPages, hacc, history] using hinv
      | true =>
        cases hr : accountPageError rb (c.setup n) cputype db₁ s₁ e with
        | none =>
          rw [hr] at hrun
          cases hrun
        | some r =>
          rw [hr] at hrun
          obtain ⟨-, rfl⟩ := Prod.mk.inj (Option.some.inj hrun)
          obtain ⟨sl, hcharged, hnext⟩ := hinv.step
            (fun h => lt_of_lt_of_le (by decide) (le_roundupCounters h)) hacc hr
          simpa [accountedPages, hacc, history, hcharged] using hnext

/-- **Exactly when the LRU list is right.** After every run from `page_setup`
    that does not crash, whatever the settings, the CPU, the kernel's answers and
    the rebalancing of the tree, the list is exact if and only if all errors that
    were accounted are on one page. -/
theorem lru_exact_iff (rb : Rebalance Slot) (c : PageConf) (n : Int32) (cputype : CpuType)
    (db : Memdb) (now : ℤ) (es : List PageEvent) (db' : Memdb) (s' : Store)
    (hrun : runState (pageStep rb (c.setup n) cputype) (some (db, Store.setup now)) es =
      some (db', s')) :
    LruExact s'
        (history (runOut (pageStep rb (c.setup n) cputype) (some (db, Store.setup now)) es)) ↔
      OnePage (accountedPages (c.setup n) cputype es) :=
  (lruInv_run db now es hrun).exact_iff

end Runs

/-! ## Two pages -/

/-- The default limit of 4158 counters, no offlining. -/
def accountOnly : PageConf :=
  { pageTriggerConf := { capacity := 10, agetime := 86400, tunit := 'h' }
    mpReplacementTriggerConf := { capacity := 0, agetime := 0, tunit := '\x00' }
    offline := .account, maxCorrErrCounters := 0 }

/-- A corrected error with a valid address. -/
def correctedError (addr : UInt64) : PageEvent :=
  { m := { status := mciStatusAddrv, addr := addr }, channel := -1, dimm := -1, now := 0,
    sysfs := fun _ => false }

/-- The state after corrected errors at these addresses. -/
def accountOnlyRun (addrs : List UInt64) : Option (Memdb × Store) :=
  runState (pageStep (Rebalance.plain Slot) (accountOnly.setup 4158) .nehalem)
    (some (Memdb.empty, Store.setup 0)) (addrs.map correctedError)

/-- The clusters charged by corrected errors at these addresses. -/
def accountOnlyHistory (addrs : List UInt64) : List ℕ :=
  history (runOut (pageStep (Rebalance.plain Slot) (accountOnly.setup 4158) .nehalem)
    (some (Memdb.empty, Store.setup 0)) (addrs.map correctedError))

/-- Three errors on one page leave an exact list. -/
theorem lru_exact_one_page : ∃ db' s', accountOnlyRun [0x1000, 0x1008, 0x1000] = some (db', s') ∧
    LruExact s' (accountOnlyHistory [0x1000, 0x1008, 0x1000]) := by
  have hsome : (accountOnlyRun [0x1000, 0x1008, 0x1000]).isSome = true := rfl
  obtain ⟨⟨db', s'⟩, hrun⟩ := Option.isSome_iff_exists.mp hsome
  refine ⟨db', s', hrun, (lru_exact_iff _ _ _ _ _ _ _ _ _ hrun).mpr ?_⟩
  decide

/-- After errors on two pages the list of the one cluster does not lead back to
    its head. -/
theorem lru_broken_by_second_page : ∃ db' s', accountOnlyRun [0x1000, 0x2000] = some (db', s') ∧
    s'.lru.next (.lru 0) = .lru 0 ∧ ¬ LruExact s' (accountOnlyHistory [0x1000, 0x2000]) := by
  have hsome : (accountOnlyRun [0x1000, 0x2000]).isSome = true := rfl
  obtain ⟨⟨db', s'⟩, hrun⟩ := Option.isSome_iff_exists.mp hsome
  refine ⟨db', s', hrun, ?_, fun hexact => ?_⟩
  · have hnext : (accountOnlyRun [0x1000, 0x2000]).map (fun st => st.2.lru.next (.lru 0)) =
        some (.lru 0) := rfl
    rw [hrun] at hnext
    exact Option.some.inj hnext
  · have hone := (lruInv_run _ _ _ hrun).exact_iff.mp hexact
    exact absurd (hone 0x1000 (by decide) 0x2000 (by decide)) (by decide)

end Mcelog.Page
