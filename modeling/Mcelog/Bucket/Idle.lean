import Mcelog.Bucket.Rate
import Mcelog.Bucket.Threshold

/-!
# A bucket after an idle period

After a period without events `bucket_age` takes at least a whole threshold out of the
bucket, which never holds that much. But the amount is stored in the 32 bits of
`unsigned age`, and for a large capacity a few weeks are enough to exceed them.

* `Reachable.count_lt_threshold`: a bucket holds less than its threshold, or nothing.
* `idle_empties_iff`: when an idle period empties the bucket.
-/

namespace Mcelog.Bucket

section Idle

variable {c : BucketConf} {mult : UInt8} {b : LeakyBucket} {now : ℤ}

/-- Aging the bucket divides by a period that is not 0, and leaves it empty and stamped
    with the current time. -/
def IdleEmpties (c : BucketConf) (mult : UInt8) (b : LeakyBucket) (now : ℤ) : Prop :=
  0 < c.agetime.toNat ∧ bucketAge c b now mult = bucketInit now

/-- The threshold may wrap. -/
theorem Reachable.count_lt_threshold (hb : Reachable c mult b) :
    b.count = 0 ∨ c.capacity ≠ 0 ∧ b.count < threshold c mult := by
  induction hb with
  | init now => exact .inl rfl
  | account inc t hb ih =>
    unfold bucketAccount
    split_ifs with hcapacity
    · exact ih
    · dsimp only
      split_ifs with hfire
      · exact .inl rfl
      · exact .inr ⟨hcapacity, UInt32.not_le.mp hfire⟩

/-- Aging empties the bucket if it takes out as much as there is. -/
theorem bucketAge_eq_init_iff (hidle : (c.agetime.toNat : ℤ) ≤ now - b.tstamp) :
    bucketAge c b now mult = bucketInit now ↔
      b.count.toNat ≤ agedAmount c (now - b.tstamp) mult % 2 ^ 32 := by
  set age := UInt32.ofNat (agedAmount c (now - b.tstamp) mult) with hage
  have hmod : agedAmount c (now - b.tstamp) mult % 2 ^ 32 = age.toNat := by
    rw [hage, UInt32.toNat_ofNat']
  rw [bucketAge_of_ge hidle, hmod, ← hage, bucketInit, LeakyBucket.mk.injEq,
    and_iff_left ⟨rfl, rfl⟩]
  split_ifs with hlt
  · exact iff_of_true rfl (UInt32.lt_iff_toNat_lt.mp hlt).le
  · have hle : age ≤ b.count := UInt32.not_lt.mp hlt
    rw [← UInt32.toNat_inj, UInt32.toNat_sub_of_le _ _ hle]
    have := UInt32.le_iff_toNat_le.mp hle
    simp only [UInt32.toNat_zero]
    omega

/-- An amount that fits in 32 bits empties every bucket. -/
theorem count_le_of_fits (hb : Reachable c mult b) (hagetime : 0 < c.agetime.toNat)
    (hidle : (c.agetime.toNat : ℤ) ≤ now - b.tstamp)
    (hfit : agedAmount c (now - b.tstamp) mult < 2 ^ 32) :
    b.count.toNat ≤ agedAmount c (now - b.tstamp) mult := by
  have hneeded := needed_le_agedAmount mult hagetime hidle
  rcases hb.count_lt_threshold with hzero | ⟨-, hlt⟩
  · rw [hzero]
    exact Nat.zero_le _
  · have hthreshold : (threshold c mult).toNat = eventsNeeded c mult :=
      threshold_toNat (hneeded.trans_lt hfit)
    rw [UInt32.lt_iff_toNat_lt, hthreshold] at hlt
    omega

/-- **Idle periods.** From every reachable bucket, of every configuration and multiplier,
    an idle period empties the bucket if and only if the configured period is not 0 and
    the aged amount fits in 32 bits, or what is left of it modulo `2^32` still covers
    the count. -/
theorem idle_empties_iff (hb : Reachable c mult b)
    (hidle : (c.agetime.toNat : ℤ) ≤ now - b.tstamp) :
    IdleEmpties c mult b now ↔
      0 < c.agetime.toNat ∧ (agedAmount c (now - b.tstamp) mult < 2 ^ 32 ∨
        b.count.toNat ≤ agedAmount c (now - b.tstamp) mult % 2 ^ 32) := by
  unfold IdleEmpties
  rw [bucketAge_eq_init_iff hidle]
  refine and_congr_right fun hagetime => ⟨.inr, ?_⟩
  rintro (hfit | hle)
  · rw [Nat.mod_eq_of_lt hfit]
    exact count_le_of_fits hb hagetime hidle hfit
  · exact hle

/-- 1000 events per second. -/
def thousandPerSecond : BucketConf := { capacity := 1000, agetime := 1, tunit := 's' }

/-- The bucket after 999 of them at once. -/
def nearlyFull : LeakyBucket := (bucketAccount thousandPerSecond (bucketInit 0) 999 0 1).1

theorem nearlyFull_reachable : Reachable thousandPerSecond 1 nearlyFull := .account 999 0 (.init 0)

/-- A minute empties the bucket. -/
theorem nearlyFull_minute :
    Reachable thousandPerSecond 1 nearlyFull ∧ IdleEmpties thousandPerSecond 1 nearlyFull 60 :=
  ⟨nearlyFull_reachable,
    (idle_empties_iff nearlyFull_reachable (by decide)).mpr ⟨by decide, .inl (by decide)⟩⟩

/-- Fifty days do not: of the amount 4294968000, 704 are left modulo `2^32`. -/
theorem nearlyFull_fifty_days :
    parseRate "1000 / 1s".toList { capacity := 0, agetime := 0, tunit := '\x00' } =
      (thousandPerSecond, true) ∧
    Reachable thousandPerSecond 1 nearlyFull ∧
    (thousandPerSecond.agetime.toNat : ℤ) ≤ 4294968 - nearlyFull.tstamp ∧
    ¬ IdleEmpties thousandPerSecond 1 nearlyFull 4294968 := by
  refine ⟨by decide +kernel, nearlyFull_reachable, by decide, ?_⟩
  rintro ⟨-, hempty⟩
  exact absurd hempty (by decide)

end Idle

end Mcelog.Bucket
