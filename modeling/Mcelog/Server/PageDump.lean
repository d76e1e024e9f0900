import Mcelog.Page.Tree
import Mcelog.Server.Dispatch

/-!
# The dump of the pages

`dump_page_errors` walks through the tree with `rb_first` and `rb_next`. The text of
`dumpPageErrors` is written for the pages in the order of an abstract tree; here the
walk follows the nodes of the kernel's tree.

* `dumpLoop_spec`: the loop prints the nodes that are left, in order.
* `page_dump_ascending`: after every run the dump lists each tracked page once, by
  ascending address.
-/

namespace Mcelog.Server

open Mcelog.Common Mcelog.Machine Mcelog.Memory Mcelog.Page Mcelog.Rbtree

/-- The line before the first page (page.c:420). -/
def pageHeader : List Char := "Per page corrected memory statistics:\n".toList

/-- What is printed for one page. -/
def pageLine (c : PageConf) (p : TreeStore) (sl : Slot) : List Char :=
  dumpPage c.pageTriggerConf (p.store.mp sl) ++ "\n".toList

/-- The loop of `dump_page_errors` (page.c:416-432), with `k` and at most `fuel`
    rounds. -/
def dumpLoop (c : PageConf) (p : TreeStore) : (fuel : ℕ) → (k : ℕ) → Option Slot →
    Option (List Char)
  | _, _, none => some []
  | 0, _, some _ => none
  | fuel + 1, k, some r => do
    let header := if k = 0 then pageHeader else []
    let next ← rbNext rounds p.tree r
    let rest ← dumpLoop c p fuel (k + 1) next
    some (header ++ (pageLine c p r ++ rest))

/-- `dump_page_errors` (page.c:410-434). -/
def treeDumpPageErrors (c : PageConf) (p : TreeStore) (fuel : ℕ) : Option (List Char) := do
  let first ← rbFirst rounds p.tree
  dumpLoop c p fuel 0 first

variable {c : PageConf} {p : TreeStore} {t : RbTree Slot}

/-- The loop prints the nodes that are left, in order. -/
theorem dumpLoop_spec (before : List Slot) {rest : List Slot} {fuel k : ℕ}
    (hr : Represents p.tree t) (hheight : t.height ≤ rounds) (hlist : t.toList = before ++ rest)
    (hfuel : rest.length ≤ fuel) :
    dumpLoop c p fuel k rest.head? =
      some ((if k = 0 ∧ rest ≠ [] then pageHeader else []) ++ rest.flatMap (pageLine c p)) := by
  induction rest generalizing before fuel k with
  | nil => cases fuel <;> simp [dumpLoop]
  | cons r rest ih =>
    cases fuel with
    | zero => exact absurd hfuel (by simp)
    | succ fuel =>
      rw [List.length_cons] at hfuel
      have hrest := ih (before ++ [r]) (k := k + 1) (by simpa using hlist)
        (Nat.le_of_succ_le_succ hfuel)
      have hnext : rbNext rounds p.tree r = some rest.head? := hr.neighbour_eq hheight hlist
      rw [if_neg fun h => absurd h.1 (Nat.succ_ne_zero k), List.nil_append] at hrest
      rw [List.head?_cons, dumpLoop, hnext, Option.bind_eq_bind, Option.bind_some, hrest,
        List.flatMap_cons, Option.bind_eq_bind, Option.bind_some]
      by_cases hk : k = 0
      · rw [if_pos hk, if_pos ⟨hk, List.cons_ne_nil _ _⟩]
      · rw [if_neg hk, if_neg fun h => hk h.1]

/-- The dump of a store whose tree holds these counters. -/
theorem treeDumpPageErrors_eq {l : List Slot} {fuel : ℕ} (h : Holds p.tree l) (hfits : Fits l)
    (hfuel : l.length ≤ fuel) : treeDumpPageErrors c p fuel =
      some ((if l ≠ [] then pageHeader else []) ++ l.flatMap (pageLine c p)) := by
  obtain ⟨t, hr, hrb, rfl⟩ := h
  have hheight := (height_lt_rounds hrb hfits).le
  rw [treeDumpPageErrors, (rb_walk_spec hr hheight).1]
  simp only [Option.bind_eq_bind, Option.bind_some]
  rw [dumpLoop_spec [] hr hheight rfl hfuel]
  simp only [true_and]

/-- **The page dump.** After every run of errors, with a setting that `page_setup` can
    work with, the walk from `rb_first` with `rb_next` lists each tracked page once, by
    ascending address, and the text is the one of the abstract store. It takes no more
    steps than there are counters. -/
theorem page_dump_ascending (rb : Rebalance Slot) (c : PageConf) (n : Int32) (cputype : CpuType)
    (db : Memdb) (now : ℤ) (node : Slot → RbNode Slot) (hn : FitsCounters n)
    (es : List PageEvent) (fuel : ℕ) (hfuel : roundedUp n ≤ fuel) :
    ∃ db' p' s' pages, runState (treePageStep (c.setup n) cputype)
        (some (db, TreeStore.setup now node)) es = some (db', p') ∧
      runState (pageStep rb (c.setup n) cputype) (some (db, Store.setup now)) es =
        some (db', s') ∧
      treeDumpPageErrors c p' fuel = some (dumpPageErrors c s') ∧
      treeDumpPageErrors c p' fuel = some ((if pages ≠ [] then pageHeader else []) ++
        pages.flatMap (pageLine c p')) ∧
      pages.Pairwise (fun sl tl => (p'.store.mp sl).addr < (p'.store.mp tl).addr) ∧
      ∀ addr sl, treeLookup p' addr = some (some sl) ↔
        sl ∈ pages ∧ (p'.store.mp sl).addr = addr := by
  obtain ⟨hmul, hmax⟩ := setup_limit hn c
  obtain ⟨db', p', s', hrun, hrun', -, hsim, hinv⟩ :=
    treeSim_run rb (c.setup n) cputype db now node hmul hmax es
  have hfits := hinv.fits hmax
  have hlen : s'.root.toList.length ≤ fuel := by
    have hbound := hinv.bound
    have hround : (c.setup n).maxCorrErrCounters = roundedUp n := roundupCounters_of_fits hn
    rw [← hinv.count, hround] at hbound
    exact (Int.ofNat_le.mp hbound).trans hfuel
  have hdump := treeDumpPageErrors_eq (c := c) hsim.tree hfits hlen
  have hmp : p'.store.mp = s'.mp := by rw [hsim.store]
  have hline : pageLine c p' = fun sl =>
      dumpPage c.pageTriggerConf (s'.mp sl) ++ "\n".toList := by
    funext sl
    rw [pageLine, hmp]
  refine ⟨db', p', s', s'.root.toList, hrun, hrun', ?_, hdump, ?_, fun addr sl => ?_⟩
  · rw [hdump, dumpPageErrors]
    cases hlist : s'.root.toList with
    | nil =>
      rw [if_neg fun hne => hne rfl, List.flatMap_nil]
      rfl
    | cons sl rest =>
      dsimp only
      rw [if_pos (List.cons_ne_nil _ _), hline]
      exact rfl
  · rw [hmp]
    exact hinv.ordered
  · rw [hsim.lookup hinv.ordered hfits, Option.some.injEq, mempageLookup,
      hinv.ordered.lookup_eq_some_iff, hmp]
    rfl

/-- The dump after errors on 100 pages with 63 counters. -/
theorem page_dump_one_cluster : ∃ db' p' text,
    runState (treePageStep ((oneCluster 10).setup 63) .nehalem) (some (Memdb.empty,
        TreeStore.setup 0 fun _ =>
          { rbRight := none, rbLeft := none, parent := none, color := .red }))
      ((List.range 100).map fun i => offlineableError (.ofNat (4096 * i))) = some (db', p') ∧
    treeDumpPageErrors (oneCluster 10) p' 63 = some text := by
  obtain ⟨db', p', s', pages, hrun, -, -, hdump, -⟩ := page_dump_ascending (Rebalance.plain Slot)
    (oneCluster 10) 63 .nehalem Memdb.empty 0
    (fun _ => { rbRight := none, rbLeft := none, parent := none, color := .red }) (by decide)
    ((List.range 100).map fun i => offlineableError (.ofNat (4096 * i))) 63 (by decide)
  exact ⟨db', p', _, hrun, hdump⟩

end Mcelog.Server
