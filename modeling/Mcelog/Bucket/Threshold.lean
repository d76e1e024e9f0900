import Mcelog.Bucket.Model
import Mcelog.Common.Run

/-!
# When a threshold fires

A threshold `C` per `T` seconds with multiplier `m` is a bucket that is
accounted one unit per event. With `K = C · m` the documentation promises that
the trigger runs when `K` errors fall into a window of `T` seconds.

Results:

* `sustained_rate_fires`: from every reachable bucket, `2K − 1` consecutive
  events within less than `T` seconds make at least one call return 1.
* `no_false_trigger`: in every run whose events are not older than the stamp
  of the bucket and whose aged amounts fit in 32 bits, a call returns 1 only
  when the last `K` events lie within less than `T` seconds.
* `false_trigger_before_creation`: a bucket stamped later than its events
  fires for two errors 20 seconds apart at a rate of 2 per 10 seconds.
-/

namespace Mcelog.Bucket

open Mcelog.Common

/-- One unit `__bucket_account` call at time `t`. -/
def accountStep (c : BucketConf) (mult : UInt8) (b : LeakyBucket) (t : ℤ) : LeakyBucket × Bool :=
  bucketAccount c b 1 t mult

/-- The buckets that `bucket_init` and `__bucket_account` with the
    configuration `c` and the multiplier `mult` produce. -/
inductive Reachable (c : BucketConf) (mult : UInt8) : LeakyBucket → Prop
  | init (now : ℤ) : Reachable c mult (bucketInit now)
  | account {b : LeakyBucket} (inc : UInt32) (t : ℤ) : Reachable c mult b →
      Reachable c mult (bucketAccount c b inc t mult).1

/-- `K = C · m`, the number of events the threshold asks for. -/
def eventsNeeded (c : BucketConf) (mult : UInt8) : ℕ := c.capacity.toNat * mult.toNat

/-- A threshold as the claims about it assume it: capacity, period and
    multiplier are at least 1 and their product fits in 32 bits. -/
structure ValidThreshold (c : BucketConf) (mult : UInt8) : Prop where
  capacity_pos : 1 ≤ c.capacity.toNat
  agetime_pos : 1 ≤ c.agetime.toNat
  mult_pos : 1 ≤ mult.toNat
  fits : eventsNeeded c mult < 2 ^ 32

section

variable {c : BucketConf} {mult : UInt8}

theorem ValidThreshold.capacity_ne (hv : ValidThreshold c mult) : c.capacity ≠ 0 := by
  intro h
  have := hv.capacity_pos
  simp [h] at this

theorem ValidThreshold.needed_pos (hv : ValidThreshold c mult) : 0 < eventsNeeded c mult :=
  Nat.mul_pos hv.capacity_pos hv.mult_pos

theorem ValidThreshold.threshold_toNat (hv : ValidThreshold c mult) :
    (threshold c mult).toNat = eventsNeeded c mult :=
  Mcelog.Bucket.threshold_toNat hv.fits

/-- Every call leaves fewer units than the threshold behind. -/
theorem bucketAccount_count_lt (hv : ValidThreshold c mult) (b : LeakyBucket) (inc : UInt32)
    (t : ℤ) : (bucketAccount c b inc t mult).1.count.toNat < eventsNeeded c mult := by
  unfold bucketAccount
  rw [if_neg hv.capacity_ne]
  dsimp only
  split_ifs with h
  · simpa using hv.needed_pos
  · rw [← hv.threshold_toNat]
    simpa [UInt32.lt_iff_toNat_lt] using h

theorem accountStep_count_lt (hv : ValidThreshold c mult) (b : LeakyBucket) (t : ℤ) :
    (accountStep c mult b t).1.count.toNat < eventsNeeded c mult :=
  bucketAccount_count_lt hv b 1 t

theorem Reachable.count_lt (hv : ValidThreshold c mult) {b : LeakyBucket}
    (hb : Reachable c mult b) : b.count.toNat < eventsNeeded c mult := by
  cases hb with
  | init now => simpa [bucketInit] using hv.needed_pos
  | account inc t _ => exact bucketAccount_count_lt hv _ inc t

theorem Reachable.runState {b : LeakyBucket} (hb : Reachable c mult b) (ts : List ℤ) :
    Reachable c mult (runState (accountStep c mult) b ts) :=
  runState_invariant (fun _ t h => h.account 1 t) hb ts

/-- A unit account below the threshold fires exactly when it fills the bucket,
    and otherwise counts the event. -/
theorem accountStep_eq (hv : ValidThreshold c mult) {b : LeakyBucket} (t : ℤ)
    (hb : b.count.toNat < eventsNeeded c mult) :
    let b' := bucketAge c b t mult
    ((accountStep c mult b t).2 = true ↔ b'.count.toNat + 1 = eventsNeeded c mult) ∧
    (accountStep c mult b t).1.tstamp = b'.tstamp ∧
    (accountStep c mult b t).1.count.toNat =
      if (accountStep c mult b t).2 then 0 else b'.count.toNat + 1 := by
  intro b'
  have hle : b'.count.toNat ≤ b.count.toNat := bucketAge_count_le c b t mult
  have hfits := hv.fits
  have hadd : (b'.count + 1).toNat = b'.count.toNat + 1 := by
    rw [UInt32.toNat_add]
    exact Nat.mod_eq_of_lt (by simpa using by omega)
  have hge : b'.count + 1 ≥ threshold c mult ↔ b'.count.toNat + 1 = eventsNeeded c mult := by
    rw [ge_iff_le, UInt32.le_iff_toNat_le, hadd, hv.threshold_toNat]
    omega
  unfold accountStep bucketAccount
  rw [if_neg hv.capacity_ne]
  dsimp only
  by_cases h : b'.count + 1 ≥ threshold c mult
  · rw [if_pos h]
    exact ⟨by simp [hge.mp h], rfl, by simp⟩
  · rw [if_neg h]
    exact ⟨by simp [← hge, h], rfl, by rw [if_neg (by simp)]; exact hadd⟩

/-! ## A sustained rate -/

/-- While no event ages the bucket, silent calls only count. -/
theorem silent_length_no_aging (hv : ValidThreshold c mult) :
    ∀ (ts : List ℤ) (b : LeakyBucket), b.count.toNat < eventsNeeded c mult →
      (∀ t ∈ ts, t - b.tstamp < c.agetime.toNat) →
      (∀ o ∈ runOut (accountStep c mult) b ts, o = false) →
      b.count.toNat + ts.length < eventsNeeded c mult := by
  intro ts
  induction ts with
  | nil => intro b hb _ _; simpa using hb
  | cons t ts ih =>
    intro b hb hwin hsilent
    obtain ⟨hfire, hstamp, hcount⟩ := accountStep_eq hv t hb
    rw [bucketAge_of_lt (hwin t (by simp))] at hfire hstamp hcount
    have ho : (accountStep c mult b t).2 = false := hsilent _ (by simp)
    rw [ho, if_neg (by simp)] at hcount
    have hlt := accountStep_count_lt hv b t
    have := ih _ hlt (by rw [hstamp]; exact fun t' h => hwin t' (by simp [h]))
      (fun o h => hsilent o (by simp [h]))
    simp only [List.length_cons]
    omega

/-- Silent calls within one period: at most one of them ages the bucket, so
    fewer than `2K − 1` fit. -/
theorem silent_length (hv : ValidThreshold c mult) :
    ∀ (ts : List ℤ) (b : LeakyBucket), b.count.toNat < eventsNeeded c mult →
      ts.Pairwise (· ≤ ·) → (∀ t ∈ ts, ∀ t' ∈ ts, t' - t < c.agetime.toNat) →
      (∀ o ∈ runOut (accountStep c mult) b ts, o = false) →
      b.count.toNat + ts.length + 2 ≤ 2 * eventsNeeded c mult := by
  intro ts
  induction ts with
  | nil =>
    intro b hb _ _ _
    have := hv.needed_pos
    simp only [List.length_nil]
    omega
  | cons t ts ih =>
    intro b hb hsorted hspan hsilent
    obtain ⟨hfire, hstamp, hcount⟩ := accountStep_eq hv t hb
    have ho : (accountStep c mult b t).2 = false := hsilent _ (by simp)
    rw [ho, if_neg (by simp)] at hcount
    have hlt := accountStep_count_lt hv b t
    have hrest : ∀ o ∈ runOut (accountStep c mult) (accountStep c mult b t).1 ts, o = false :=
      fun o h => hsilent o (by simp [h])
    by_cases hage : (c.agetime.toNat : ℤ) ≤ t - b.tstamp
    · -- the bucket is stamped with `t`: no later event of the window ages it again
      have htstamp : (accountStep c mult b t).1.tstamp = t := by
        rw [hstamp, bucketAge_of_ge hage]
      have := silent_length_no_aging hv ts _ hlt
        (by rw [htstamp]; exact fun t' h => hspan t (by simp) t' (by simp [h])) hrest
      simp only [List.length_cons]
      omega
    · rw [bucketAge_of_lt (by omega)] at hcount
      have := ih _ hlt (List.pairwise_cons.mp hsorted).2
        (fun a ha a' ha' => hspan a (by simp [ha]) a' (by simp [ha'])) hrest
      simp only [List.length_cons]
      omega

end

/-- **A sustained rate is never missed.** In every run of unit accounts at
    non-decreasing times, started from any reachable bucket, among any `2K − 1`
    consecutive events `window` whose times differ by less than `T` at least
    one call returns 1. -/
theorem sustained_rate_fires {c : BucketConf} {mult : UInt8} (hv : ValidThreshold c mult)
    {b : LeakyBucket} (hb : Reachable c mult b) (before window after : List ℤ)
    (hsorted : (before ++ window ++ after).Pairwise (· ≤ ·))
    (hlen : window.length = 2 * eventsNeeded c mult - 1)
    (hspan : ∀ first ∈ window.head?, ∀ last ∈ window.getLast?, last - first < c.agetime.toNat) :
    ∃ i, before.length ≤ i ∧ i < before.length + window.length ∧
      (runOut (accountStep c mult) b (before ++ window ++ after))[i]? = some true := by
  have hK := hv.needed_pos
  have hb' := (hb.runState before).count_lt hv
  have hwin : window.Pairwise (· ≤ ·) :=
    hsorted.sublist ((List.sublist_append_right _ _).trans (List.sublist_append_left _ _))
  -- the events lie between the first and the last one
  have hall : ∀ t ∈ window, ∀ t' ∈ window, t' - t < c.agetime.toNat := by
    intro t ht t' ht'
    have hne : window ≠ [] := by rintro rfl; simp at ht
    have h1 := hspan _ (List.head_mem_head? hne) _ (List.getLast_mem_getLast? hne)
    have h2 := hwin.rel_head ht
    have h3 := hwin.rel_getLast ht'
    omega
  by_contra hno
  push Not at hno
  have hsilent : ∀ o ∈ runOut (accountStep c mult) (runState (accountStep c mult) b before) window,
      o = false := by
    intro o ho
    obtain ⟨i, hi, rfl⟩ := List.mem_iff_getElem.mp ho
    have hi' : i < window.length := by simpa using hi
    have := hno (before.length + i) (by omega) (by omega)
    rw [List.append_assoc, runOut_append, List.getElem?_append_right (by simp), runOut_append,
      List.getElem?_append_left (by simpa using hi')] at this
    simp only [length_runOut, Nat.add_sub_cancel_left] at this
    rw [List.getElem?_eq_getElem hi] at this
    simpa using this
  have := silent_length hv window _ hb' hwin hall hsilent
  omega

/-- A threshold of 2 events per 10 seconds. -/
def twoPerTen : BucketConf := { capacity := 2, agetime := 10, tunit := 's' }

theorem twoPerTen_valid : ValidThreshold twoPerTen 1 := by constructor <;> decide

/-- Three events within 3 seconds after a quiet hour. -/
theorem sustained_rate_fires_twoPerTen :
    ∃ i, 1 ≤ i ∧ i < 1 + 3 ∧
      (runOut (accountStep twoPerTen 1) (bucketInit 0) ([5] ++ [3600, 3601, 3603] ++ []))[i]? =
        some true :=
  sustained_rate_fires twoPerTen_valid (.init 0) [5] [3600, 3601, 3603] []
    (by decide) (by decide) (by decide)

/-! ## No false trigger -/

/-- Whenever a call of the run `ts` on the bucket created at time `w` returns
    1, at least `K` events were accounted and the last `K` of them, the current
    one included, differ by less than `T`. -/
def NoFalseTrigger (c : BucketConf) (mult : UInt8) (w : ℤ) (ts : List ℤ) : Prop :=
  ∀ i, (runOut (accountStep c mult) (bucketInit w) ts)[i]? = some true →
    let recent := (ts.take (i + 1)).drop (i + 1 - eventsNeeded c mult)
    recent.length = eventsNeeded c mult ∧ ∀ a ∈ recent, ∀ b ∈ recent, a - b < c.agetime.toNat

/-- The event is not older than the stamp of the bucket, and the aged amount
    fits in the 32 bits of `unsigned age`. -/
def AgesCleanly (c : BucketConf) (mult : UInt8) (b : LeakyBucket) (t : ℤ) : Prop :=
  b.tstamp ≤ t ∧ agedAmount c (t - b.tstamp) mult < 2 ^ 32

instance (c : BucketConf) (mult : UInt8) (b : LeakyBucket) (t : ℤ) :
    Decidable (AgesCleanly c mult b t) :=
  inferInstanceAs (Decidable (_ ∧ _))

section

variable {c : BucketConf} {mult : UInt8}

/-- The units in the bucket are the last events of `past`, none of them older
    than the stamp. -/
structure CountsRecent (c : BucketConf) (mult : UInt8) (b : LeakyBucket) (past : List ℤ) :
    Prop where
  count_lt : b.count.toNat < eventsNeeded c mult
  count_le : b.count.toNat ≤ past.length
  stamped : ∀ t ∈ past.drop (past.length - b.count.toNat), b.tstamp ≤ t

/-- A whole period takes out at least the threshold. -/
theorem needed_le_agedAmount (mult : UInt8) {diff : ℤ} (hagetime : 0 < c.agetime.toNat)
    (hidle : (c.agetime.toNat : ℤ) ≤ diff) : eventsNeeded c mult ≤ agedAmount c diff mult := by
  rw [agedAmount, Nat.le_div_iff_mul_le hagetime, Nat.mul_comm]
  exact Nat.mul_le_mul_right _ (by omega)

/-- An aging whose amount fits empties a bucket below its threshold. -/
theorem bucketAge_count_zero (hv : ValidThreshold c mult) {b : LeakyBucket} {t : ℤ}
    (hb : b.count.toNat < eventsNeeded c mult)
    (hage : (c.agetime.toNat : ℤ) ≤ t - b.tstamp)
    (hfit : agedAmount c (t - b.tstamp) mult < 2 ^ 32) :
    (bucketAge c b t mult).count = 0 := by
  have hK : eventsNeeded c mult ≤ agedAmount c (t - b.tstamp) mult :=
    needed_le_agedAmount mult hv.agetime_pos hage
  have hlt : UInt32.ofNat (agedAmount c (t - b.tstamp) mult) > b.count := by
    rw [gt_iff_lt, UInt32.lt_iff_toNat_lt, UInt32.toNat_ofNat', Nat.mod_eq_of_lt hfit]
    omega
  rw [bucketAge_of_ge hage]
  exact if_pos hlt

/-- The bucket after aging still counts events of `past`, and the current event
    lies less than a period after its stamp. -/
theorem CountsRecent.age (hv : ValidThreshold c mult) {b : LeakyBucket} {past : List ℤ}
    (h : CountsRecent c mult b past) {t : ℤ} (ht : AgesCleanly c mult b t) :
    CountsRecent c mult (bucketAge c b t mult) past ∧
      (bucketAge c b t mult).tstamp ≤ t ∧ t - (bucketAge c b t mult).tstamp < c.agetime.toNat := by
  by_cases hage : (c.agetime.toNat : ℤ) ≤ t - b.tstamp
  · have hzero := bucketAge_count_zero hv h.count_lt hage ht.2
    have hstamp : (bucketAge c b t mult).tstamp = t := by rw [bucketAge_of_ge hage]
    have hT := hv.agetime_pos
    refine ⟨⟨by simpa [hzero] using hv.needed_pos, by simp [hzero], ?_⟩, by omega, by omega⟩
    simp [hzero]
  · rw [bucketAge_of_lt (by omega)]
    exact ⟨h, ht.1, by omega⟩

/-- After the current event the bucket counts one more event of the history,
    or starts again empty. -/
theorem CountsRecent.step (hv : ValidThreshold c mult) {b : LeakyBucket} {past : List ℤ}
    (h : CountsRecent c mult b past) {t : ℤ} (ht : AgesCleanly c mult b t) :
    CountsRecent c mult (accountStep c mult b t).1 (past ++ [t]) := by
  obtain ⟨-, hstamp, hcount⟩ := accountStep_eq hv t h.count_lt
  obtain ⟨⟨-, hle, hold⟩, hnow, -⟩ := h.age hv ht
  have hlt := accountStep_count_lt hv b t
  cases hfire : (accountStep c mult b t).2 with
  | true =>
    rw [hfire, if_pos rfl] at hcount
    exact ⟨hlt, by omega, by simp [hcount]⟩
  | false =>
    rw [hfire, if_neg (by simp)] at hcount
    refine ⟨hlt, by simp; omega, ?_⟩
    rw [hstamp, hcount, List.length_append, List.length_singleton, Nat.add_sub_add_right,
      List.drop_append_of_le_length (by omega)]
    intro t' ht'
    rcases List.mem_append.mp ht' with ht' | ht'
    · exact hold t' ht'
    · rw [List.mem_singleton.mp ht']
      exact hnow

theorem countsRecent_init (hv : ValidThreshold c mult) (w : ℤ) :
    CountsRecent c mult (bucketInit w) [] :=
  ⟨by simpa [bucketInit] using hv.needed_pos, by simp [bucketInit], by simp⟩

/-- In a run that ages cleanly the bucket counts the most recent events. -/
theorem CountsRecent.run (hv : ValidThreshold c mult) :
    ∀ (ts : List ℤ) (b : LeakyBucket) (past : List ℤ), CountsRecent c mult b past →
      Meets (accountStep c mult) (AgesCleanly c mult) b ts →
      CountsRecent c mult (runState (accountStep c mult) b ts) (past ++ ts) := by
  intro ts
  induction ts with
  | nil => intro b past h _; simpa using h
  | cons t ts ih =>
    intro b past h hm
    have := ih _ _ (h.step hv hm.1) hm.2
    simpa using this

end

/-- **No false trigger.** In every run of unit accounts at non-decreasing times
    in which no event is older than the stamp of the bucket and every aged
    amount fits in 32 bits, a call returns 1 only when the last `C · m` events
    have timestamps that differ by less than `T`. -/
theorem no_false_trigger {c : BucketConf} {mult : UInt8} (hv : ValidThreshold c mult) (w : ℤ)
    (ts : List ℤ) (hsorted : ts.Pairwise (· ≤ ·))
    (hclean : Meets (accountStep c mult) (AgesCleanly c mult) (bucketInit w) ts) :
    NoFalseTrigger c mult w ts := by
  intro i hfire
  rw [runOut_getElem?] at hfire
  obtain ⟨t, hget, hout⟩ := Option.map_eq_some_iff.mp hfire
  obtain ⟨hi, rfl⟩ := List.getElem?_eq_some_iff.mp hget
  have hsplit : ts = ts.take i ++ ts[i] :: ts.drop (i + 1) := by simp
  rw [hsplit, meets_append, meets_cons] at hclean
  have hrun := (countsRecent_init hv w).run hv (ts.take i) _ _ hclean.1
  rw [List.nil_append] at hrun
  generalize hb : runState (accountStep c mult) (bucketInit w) (ts.take i) = b at *
  have hK := ((accountStep_eq hv ts[i] hrun.count_lt).1.mp hout)
  obtain ⟨⟨-, hle, hold⟩, hnow, hperiod⟩ := hrun.age hv hclean.2.1
  have hlen : (ts.take i).length = i := by simp; omega
  rw [hlen] at hle hold
  have htake : ts.take (i + 1) = ts.take i ++ [ts[i]] := by simp
  have hrecent : (ts.take (i + 1)).drop (i + 1 - eventsNeeded c mult) =
      (ts.take i).drop (i - (bucketAge c b ts[i] mult).count.toNat) ++ [ts[i]] := by
    rw [htake, List.drop_append_of_le_length (by omega)]
    congr 2
    omega
  rw [hrecent]
  refine ⟨by simp; omega, ?_⟩
  -- every recent event lies between the stamp and the current event
  have hbounds : ∀ a ∈ (ts.take i).drop (i - (bucketAge c b ts[i] mult).count.toNat) ++ [ts[i]],
      (bucketAge c b ts[i] mult).tstamp ≤ a ∧ a ≤ ts[i] := by
    intro a ha
    rcases List.mem_append.mp ha with ha | ha
    · refine ⟨hold a ha, ?_⟩
      have hs := hsorted
      rw [hsplit, List.pairwise_append] at hs
      exact hs.2.2 a (List.mem_of_mem_drop ha) _ List.mem_cons_self
    · rw [List.mem_singleton.mp ha]
      exact ⟨hnow, le_rfl⟩
  intro a ha b' hb'
  have h1 := hbounds a ha
  have h2 := hbounds b' hb'
  omega

/-- Two events 5 seconds apart, the first one 20 seconds after the bucket was
    created. -/
theorem no_false_trigger_twoPerTen : NoFalseTrigger twoPerTen 1 0 [20, 25] :=
  no_false_trigger twoPerTen_valid 0 [20, 25] (by decide) (by simp [meets_cons]; decide)

/-- **A bucket stamped later than its events fires too early.** At 2 events
    per 10 seconds, a bucket created at time 100 (when the daemon reads the
    records) for two events at 50 and 70 fires, although they are 20 seconds
    apart. -/
theorem false_trigger_before_creation :
    ValidThreshold twoPerTen 1 ∧ [(50 : ℤ), 70].Pairwise (· ≤ ·) ∧
      ¬ NoFalseTrigger twoPerTen 1 100 [50, 70] := by
  refine ⟨twoPerTen_valid, by decide, fun h => ?_⟩
  have := (h 1 (by decide)).2 70 (by decide) 50 (by decide)
  exact absurd this (by decide)

end Mcelog.Bucket
