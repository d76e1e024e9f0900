import Mcelog.Page.Lru
import Mcelog.Page.Map

/-!
# The limit of the page counters

`page_setup` rounds `max_corr_err_counters` up to whole clusters in `unsigned long` and
assigns the sum to an `int` again. This module says for which settings the result is a
limit that `account_page_error` can work with.

* `roundupCounters_of_fits`, `roundupCounters_nonpos`: the settings from 1 to 2147483646 are
  rounded up as they should be, and the result of all other ones is not positive.
* `limit_safe_iff`: in a run from `page_setup` the limit is kept and `mempage_replace` finds
  a cluster, if and only if the setting is one of these or no error of the run is
  accounted to a page.
-/

namespace Mcelog.Page

open Mcelog.Bucket Mcelog.Common Mcelog.Machine Mcelog.Memory

/-! ## Rounding up -/

/-- The setting rounded up to whole clusters, but one cluster at least. -/
def roundedUp (n : Int32) : ℕ := max N ((n.toInt.toNat + N - 1) / N * N)

/-- The settings whose rounded value is positive and fits into an `int`. -/
def FitsCounters (n : Int32) : Prop := 0 < n.toInt ∧ n.toInt < 2 ^ 31 - 1

instance (n : Int32) : Decidable (FitsCounters n) :=
  inferInstanceAs (Decidable (0 < n.toInt ∧ n.toInt < 2 ^ 31 - 1))

theorem roundupCounters_of_fits {n : Int32} (h : FitsCounters n) :
    roundupCounters n = roundedUp n := by
  obtain ⟨hpos, hlt⟩ := h
  have hN : N = 63 := rfl
  -- 2147483646 is a multiple of 63, so that no setting below 2147483647 is rounded past it
  have hfits : (n.toInt + 62) / 63 * 63 < 2 ^ 31 := by omega
  rw [roundupCounters_eq (by omega), roundedUp, hN]
  omega

/-- Zero and the negative settings are rounded up to zero or to a negative number, and the
    largest `int` to a number that does not fit. -/
theorem roundupCounters_nonpos {n : Int32} (h : ¬ FitsCounters n) : ¬ 0 < roundupCounters n := by
  have hhi := n.toInt_lt
  rw [FitsCounters, not_and_or] at h
  by_cases hwrap : n.toInt < -62
  · exact roundupCounters_wrapped hwrap
  · rw [roundupCounters_eq hwrap]
    omega

/-! ## The limit along a run -/

/-- `account_page_error` goes on to `mempage_replace` (page.c:325-335): the page is new and
    the limit is reached. -/
def EntersReplace (c : PageConf) (cputype : CpuType) (s : Store) (e : PageEvent) : Prop :=
  accountsPage c cputype e.m = true ∧ mempageLookup s (pageOf e.m.addr) = none ∧
    ¬ s.corrErrCounters < c.maxCorrErrCounters

/-- At every point of the run there are at most as many tracked pages as the setting
    rounded up, and the next error enters `mempage_replace` only with a cluster. -/
def LimitSafe (rb : Rebalance Slot) (c : PageConf) (n : Int32) (cputype : CpuType)
    (st : Option (Memdb × Store)) (es : List PageEvent) : Prop :=
  ∀ k db s, runState (pageStep rb (c.setup n) cputype) st (es.take k) = some (db, s) →
    s.root.toList.length ≤ roundedUp n ∧
      ∀ e, es[k]? = some e → EntersReplace (c.setup n) cputype s e → s.mpCluster ≠ none

section Limit

variable {rb : Rebalance Slot} {c : PageConf} {n : Int32} {cputype : CpuType} {db : Memdb}
  {s : Store} {e : PageEvent} {es : List PageEvent} {addr : UInt64} {t now : ℤ}

theorem EntersReplace.findCounter (h : EntersReplace c cputype s e) (rb : Rebalance Slot)
    (t now : ℤ) : Page.findCounter rb c s (pageOf e.m.addr) t now =
      recycledCounter rb c s (pageOf e.m.addr) t now := by
  rw [Page.findCounter, h.2.1]
  exact if_neg h.2.2

/-- Without a cluster `mempage_replace` reads through a NULL pointer. -/
theorem recycledCounter_of_mpCluster (h : s.mpCluster = none) :
    recycledCounter rb c s addr t now = none := by
  have hrep : mempageReplace s = none := by
    rw [mempageReplace, replaceCluster, h]
    rfl
  rw [recycledCounter, hrep]
  rfl

/-- Once the limit of a positive setting is reached there is a cluster. -/
theorem AllocInv.mpCluster_of_full (h : AllocInv c s) (hpos : 0 < c.maxCorrErrCounters)
    (hfull : ¬ s.corrErrCounters < c.maxCorrErrCounters) : s.mpCluster ≠ none := by
  rcases h with ⟨-, hzero, -⟩ | ⟨last, hfilling⟩ | ⟨cluster, hrecycling⟩
  · rw [hzero] at hfull
    exact absurd hpos hfull
  · rw [hfilling.current]
    exact Option.some_ne_none last
  · rw [hrecycling.current]
    exact Option.some_ne_none cluster

theorem limitSafe_of_fits (h : FitsCounters n) (db : Memdb) (now : ℤ) (es : List PageEvent) :
    LimitSafe rb c n cputype (some (db, Store.setup now)) es := by
  intro k db₁ s hrun
  have hround : (c.setup n).maxCorrErrCounters = roundedUp n := roundupCounters_of_fits h
  have hpos : 0 < (c.setup n).maxCorrErrCounters := by
    rw [hround]
    exact Int.natCast_pos.mpr (lt_of_lt_of_le (by decide) (le_max_left _ _))
  obtain ⟨db', s', hrun', hinv, -⟩ := mapInv_run rb (c.setup n) cputype db now
    (roundupCounters_clusters hpos) (es.take k)
  rw [hrun] at hrun'
  obtain ⟨-, rfl⟩ := Prod.mk.inj (Option.some.inj hrun')
  refine ⟨?_, fun e _ henters => hinv.alloc.mpCluster_of_full hpos henters.2.2⟩
  have hbound := hinv.bound
  rw [← hinv.count, hround] at hbound
  exact Int.ofNat_le.mp hbound

/-- Errors that are not accounted leave everything as it is. -/
theorem runState_of_not_accounts (h : ∀ e ∈ es, accountsPage c cputype e.m = false) :
    runState (pageStep rb c cputype) (some (db, s)) es = some (db, s) := by
  induction es with
  | nil => rfl
  | cons e es ih =>
    have hstep : (pageStep rb c cputype (some (db, s)) e).1 = some (db, s) := by
      rw [pageStep, accountPageError_of_not_accounts (h e List.mem_cons_self)]
    rw [runState_cons, hstep]
    exact ih fun e' he' => h e' (List.mem_cons_of_mem _ he')

theorem limitSafe_of_not_accounts (h : ∀ e ∈ es, accountsPage (c.setup n) cputype e.m = false)
    (db : Memdb) (now : ℤ) : LimitSafe rb c n cputype (some (db, Store.setup now)) es := by
  intro k db₁ s hrun
  rw [runState_of_not_accounts fun e he => h e (List.mem_of_mem_take he)] at hrun
  obtain ⟨-, rfl⟩ := Prod.mk.inj (Option.some.inj hrun)
  refine ⟨Nat.zero_le _, fun e he henters => ?_⟩
  have hacc := h e (List.mem_of_getElem? he)
  rw [henters.1] at hacc
  cases hacc

/-- With a limit that is not positive the first accounted error enters `mempage_replace`. -/
theorem entersReplace_setup (hmax : ¬ 0 < c.maxCorrErrCounters)
    (hacc : accountsPage c cputype e.m = true) (now : ℤ) :
    EntersReplace c cputype (Store.setup now) e :=
  ⟨hacc, rfl, hmax⟩

theorem not_limitSafe (h : ¬ FitsCounters n) (he : e ∈ es)
    (hacc : accountsPage (c.setup n) cputype e.m = true) (db : Memdb) (now : ℤ) :
    ¬ LimitSafe rb c n cputype (some (db, Store.setup now)) es := by
  intro hsafe
  have hsome : (es.find? fun e => accountsPage (c.setup n) cputype e.m).isSome = true :=
    List.find?_isSome.mpr ⟨e, he, hacc⟩
  obtain ⟨first, hfind⟩ := Option.isSome_iff_exists.mp hsome
  obtain ⟨hfirst, before, after, rfl, hbefore⟩ := List.find?_eq_some_iff_append.mp hfind
  have hrun : runState (pageStep rb (c.setup n) cputype) (some (db, Store.setup now))
      ((before ++ first :: after).take before.length) = some (db, Store.setup now) := by
    rw [List.take_left]
    exact runState_of_not_accounts fun e he => by simpa using hbefore e he
  obtain ⟨-, hcluster⟩ := hsafe before.length db _ hrun
  have hnext : (before ++ first :: after)[before.length]? = some first := by simp
  exact hcluster first hnext (entersReplace_setup (roundupCounters_nonpos h) hfirst now) rfl

end Limit

/-- **The counter limit.** For every setting as an `int`, every configuration, CPU and
    rebalancing of the tree, and every sequence of errors from `page_setup`: the limit is
    kept and `mempage_replace` finds a cluster if and only if the setting is between 1 and
    2147483646, or no error of the sequence is accounted to a page. -/
theorem limit_safe_iff (rb : Rebalance Slot) (c : PageConf) (n : Int32) (cputype : CpuType)
    (db : Memdb) (now : ℤ) (es : List PageEvent) :
    LimitSafe rb c n cputype (some (db, Store.setup now)) es ↔
      (0 < n.toInt ∧ n.toInt < 2 ^ 31 - 1) ∨
        ∀ e ∈ es, accountsPage (c.setup n) cputype e.m = false := by
  constructor
  · intro hsafe
    by_cases hfits : FitsCounters n
    · exact Or.inl hfits
    · refine Or.inr fun e he => Bool.eq_false_iff.mpr fun hacc => ?_
      exact not_limitSafe hfits he hacc db now hsafe
  · rintro (hfits | hnone)
    · exact limitSafe_of_fits hfits db now es
    · exact limitSafe_of_not_accounts hnone db now

/-- A setting outside the range makes the first corrected error with an address read through a
    NULL pointer. -/
theorem correctedError_faults (h : ¬ FitsCounters n) :
    ¬ LimitSafe (Rebalance.plain Slot) accountOnly n .nehalem (some (Memdb.empty, Store.setup 0))
      [correctedError 0x1000] ∧
    accountPageError (Rebalance.plain Slot) (accountOnly.setup n) .nehalem Memdb.empty
      (Store.setup 0) (correctedError 0x1000) = none := by
  have hacc : accountsPage (accountOnly.setup n) .nehalem (correctedError 0x1000).m = true := rfl
  refine ⟨not_limitSafe h List.mem_cons_self hacc _ _, ?_⟩
  have henters := entersReplace_setup (roundupCounters_nonpos h) hacc 0
  rw [accountPageError, if_pos hacc]
  dsimp only
  rw [henters.findCounter, recycledCounter_of_mpCluster rfl]
  rfl

/-- No counters, a negative limit and the largest `int` are such settings. -/
theorem limit_unsafe_settings :
    (¬ LimitSafe (Rebalance.plain Slot) accountOnly 0 .nehalem
        (some (Memdb.empty, Store.setup 0)) [correctedError 0x1000] ∧
      accountPageError (Rebalance.plain Slot) (accountOnly.setup 0) .nehalem Memdb.empty
        (Store.setup 0) (correctedError 0x1000) = none) ∧
    (¬ LimitSafe (Rebalance.plain Slot) accountOnly (-63) .nehalem
        (some (Memdb.empty, Store.setup 0)) [correctedError 0x1000]) ∧
    ¬ LimitSafe (Rebalance.plain Slot) accountOnly 2147483647 .nehalem
        (some (Memdb.empty, Store.setup 0)) [correctedError 0x1000] :=
  ⟨correctedError_faults (by simp [FitsCounters]),
    (correctedError_faults (by simp [FitsCounters])).1,
    (correctedError_faults (by simp [FitsCounters])).1⟩

end Mcelog.Page
