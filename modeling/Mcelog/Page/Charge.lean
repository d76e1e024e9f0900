import Mcelog.Page.Account

/-!
# The counter that is charged

What `account_page_error` does to the one page counter that it charges, as a
function of the counter alone.

* `Mempage.charge`: the counter after the error.
* `accountPageError_of_findCounter`: an accounted error replaces the counter that
  `findCounter` returns by the counter after the error.
* `charge_of_fresh`: the first error on a page.
-/

namespace Mcelog.Page

open Mcelog.Bucket Mcelog.Common Mcelog.Machine Mcelog.Memory

namespace Mempage

/-- The error makes the bucket of the counter overflow. -/
def overflows (c : PageConf) (e : PageEvent) (mp : Mempage) : Bool :=
  (bucketAccount c.pageTriggerConf mp.ce.bucket 1 (timeT e.m) mp.offlineThresholdMultiplier).2

/-- The page is not offlined any more: it is offline, or an attempt failed and there
    is no retry (page.c:359-361). -/
def Settled (c : PageConf) (mp : Mempage) : Prop :=
  (c.offlineRetryBackoffBase = 2 ∧ mp.offlined = .offline) ∨
    (c.offlineRetryBackoffBase = 1 ∧ mp.offlined ≠ .online)

instance (c : PageConf) (mp : Mempage) : Decidable (mp.Settled c) :=
  inferInstanceAs (Decidable (_ ∨ _))

/-- The counter with the error counted. -/
def count (c : PageConf) (e : PageEvent) (mp : Mempage) : Mempage :=
  { mp with ce :=
    { bucket := (bucketAccount c.pageTriggerConf mp.ce.bucket 1 (timeT e.m)
        mp.offlineThresholdMultiplier).1
      count := mp.ce.count + 1 } }

/-- The counter after the error. -/
def charge (c : PageConf) (e : PageEvent) (mp : Mempage) : Mempage :=
  if mp.overflows c e = true ∧ ¬ mp.Settled c then
    (offlineAction c e.sysfs { mp.count c e with triggered := true } (pageOf e.m.addr)).1
  else mp.count c e

end Mempage

section

variable {rb : Rebalance Slot} {c : PageConf} {cputype : CpuType} {db : Memdb} {s s₁ : Store}
  {sl : Slot} {e : PageEvent}

/-- The page trigger on a counter that is settled, and on one that is not. -/
theorem pageTriggered_of_settled (db : Memdb) (addr : UInt64) (e : PageEvent)
    (h : (s.mp sl).Settled c) : pageTriggered c db s sl addr e = (db, s, []) := by
  unfold pageTriggered
  dsimp only
  exact if_pos h

theorem pageTriggered_of_not_settled (db : Memdb) (addr : UInt64) (e : PageEvent)
    (h : ¬ (s.mp sl).Settled c) : (pageTriggered c db s sl addr e).2.1 =
      s.update sl fun mp => (offlineAction c e.sysfs { mp with triggered := true } addr).1 := by
  unfold pageTriggered
  dsimp only
  split_ifs with hdone hsoft
  · exact absurd hdone h
  · rfl
  · rfl

/-- An accounted error replaces the counter that `findCounter` returns by the counter
    after the error. Its effects are those of `findCounter`, and those of the page
    trigger if the bucket overflows. -/
theorem accountPageError_of_findCounter {runs : List Effect} (db : Memdb)
    (hacc : accountsPage c cputype e.m = true)
    (hfind : findCounter rb c s (pageOf e.m.addr) (timeT e.m) e.now = some (s₁, sl, runs)) :
    ∃ db', accountPageError rb c cputype db s e = some
      { db := db'
        store := s₁.update sl (Mempage.charge c e)
        effects := runs ++ if (s₁.mp sl).overflows c e = true then
          (pageTriggered c db (s₁.update sl (Mempage.count c e)) sl (pageOf e.m.addr) e).2.2 else []
        charged := some sl } := by
  rw [accountPageError, if_pos hacc]
  dsimp only
  rw [hfind]
  have hcount : (s₁.update sl fun mp => { mp with ce :=
      { bucket := (bucketAccount c.pageTriggerConf (s₁.mp sl).ce.bucket 1 (timeT e.m)
          (s₁.mp sl).offlineThresholdMultiplier).1
        count := mp.ce.count + 1 } }) = s₁.update sl (Mempage.count c e) := rfl
  have hsettled : ((s₁.update sl (Mempage.count c e)).mp sl).Settled c ↔ (s₁.mp sl).Settled c := by
    rw [update_mp_self]
    rfl
  by_cases hover : (s₁.mp sl).overflows c e = true
  · have hover' := hover
    rw [Mempage.overflows] at hover'
    simp only [Option.bind_eq_bind, Option.bind_some, hcount, hover', hover, if_true]
    by_cases hdone : (s₁.mp sl).Settled c
    · refine ⟨db, ?_⟩
      rw [pageTriggered_of_settled _ _ _ (hsettled.mpr hdone)]
      simp [Store.update, Mempage.charge, hdone]
    · have hstore := pageTriggered_of_not_settled db (pageOf e.m.addr) e
        (fun h => hdone (hsettled.mp h))
      refine ⟨(pageTriggered c db (s₁.update sl (Mempage.count c e)) sl (pageOf e.m.addr) e).1, ?_⟩
      rw [hstore]
      simp [Store.update, Mempage.charge, hover, hdone]
  · have hover' := hover
    rw [Mempage.overflows, Bool.not_eq_true] at hover'
    refine ⟨db, ?_⟩
    simp only [Option.bind_eq_bind, Option.bind_some, hcount, hover', hover]
    simp [Store.update, Mempage.charge, hover]

/-- The offline action leaves the page and the counts alone. -/
theorem offlineAction_frame (c : PageConf) (sysfs : OType → Bool) (mp : Mempage) (addr : UInt64) :
    (offlineAction c sysfs mp addr).1.addr = mp.addr ∧
      (offlineAction c sysfs mp addr).1.ce = mp.ce ∧
      (offlineAction c sysfs mp addr).1.triggered = mp.triggered := by
  unfold offlineAction
  split_ifs
  · exact ⟨rfl, rfl, rfl⟩
  · split
    · exact ⟨rfl, rfl, rfl⟩
    · exact ⟨rfl, rfl, rfl⟩

theorem charge_addr (c : PageConf) (e : PageEvent) (mp : Mempage) :
    (mp.charge c e).addr = mp.addr := by
  unfold Mempage.charge
  split_ifs
  · exact (offlineAction_frame _ _ _ _).1
  · rfl

theorem charge_ce (c : PageConf) (e : PageEvent) (mp : Mempage) :
    (mp.charge c e).ce = (mp.count c e).ce := by
  unfold Mempage.charge
  split_ifs
  · exact (offlineAction_frame _ _ _ _).2.1
  · rfl

/-! ## The first error on a page -/

/-- A counter that was just handed out to the page `addr`. -/
def Mempage.fresh (addr : UInt64) (now : ℤ) : Mempage :=
  { offlined := .online, triggered := false, offlineThresholdMultiplier := 1, addr := addr
    ce := { bucket := bucketInit now, count := 0 } }

theorem fresh_not_settled (c : PageConf) (addr : UInt64) (now : ℤ) :
    ¬ (Mempage.fresh addr now).Settled c := by
  simp [Mempage.Settled, Mempage.fresh]

/-- The first error on a page reaches the threshold exactly if one error does. -/
theorem fresh_overflows (c : PageConf) (e : PageEvent) (addr : UInt64) (now : ℤ) :
    (Mempage.fresh addr now).overflows c e = decide (c.pageTriggerConf.capacity = 1) := by
  have hage : (bucketAge c.pageTriggerConf (bucketInit now) (timeT e.m) 1).count = 0 := by
    have hle := bucketAge_count_le c.pageTriggerConf (bucketInit now) (timeT e.m) 1
    exact UInt32.toNat_inj.mp (Nat.le_zero.mp hle)
  have hth : threshold c.pageTriggerConf 1 = c.pageTriggerConf.capacity := UInt32.mul_one _
  simp only [Mempage.overflows, Mempage.fresh, bucketAccount, hage, hth]
  by_cases hzero : c.pageTriggerConf.capacity = 0
  · simp [hzero]
  · rw [if_neg hzero]
    by_cases hone : c.pageTriggerConf.capacity = 1
    · simp [hone]
    · have hlt : ¬ (0 + 1 : UInt32) ≥ c.pageTriggerConf.capacity := by
        intro hle
        rw [ge_iff_le, UInt32.le_iff_toNat_le] at hle
        have h0 : c.pageTriggerConf.capacity.toNat ≠ 0 :=
          fun h => hzero (UInt32.toNat_inj.mp h)
        have h1 : c.pageTriggerConf.capacity.toNat ≠ 1 :=
          fun h => hone (UInt32.toNat_inj.mp h)
        have h2 : ((0 + 1 : UInt32)).toNat = 1 := rfl
        omega
      rw [if_neg hlt]
      simp [hone]

end

end Mcelog.Page
