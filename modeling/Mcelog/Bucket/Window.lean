import Mcelog.Bucket.Threshold
import Mcelog.Memory.Memdb

/-!
# The bucket as a window counter

The proportional leak of `bucket_age` looks like a gradual one, but a bucket never
holds as many units as one period takes out of it. So a bucket is a counter that starts
again with the first event after a period.

* `Window`: the counter.
* `Counts.step`, `Counts.run`: a bucket whose aged amounts fit in 32 bits does what the
  counter does.
* `bucket_is_window`: the same return values, and the same counts after every call.
-/

namespace Mcelog.Bucket

open Mcelog.Common Mcelog.Memory

/-! ## Specification -/

/-- A window: when it started, the units that count towards the threshold, and all
    units. -/
structure Window where
  start : ℤ
  n : ℕ
  total : ℕ
  deriving DecidableEq, Repr

/-- A window without events. -/
def Window.empty (start : ℤ) : Window := { start := start, n := 0, total := 0 }

/-- One call of `__bucket_account`. -/
structure Account where
  inc : UInt32
  time : ℤ
  deriving DecidableEq, Repr

/-- An event `period` seconds or more after the start begins a new window. -/
def Window.age (period : ℕ) (w : Window) (t : ℤ) : Window :=
  if period ≤ t - w.start then .empty t else w

/-- Count the units of an event; `needed` of them fire and count again from 0. -/
def Window.add (needed : ℕ) (w : Window) (inc : ℕ) : Window × Bool :=
  if needed ≤ w.n + inc then ({ w with n := 0, total := w.total + inc }, true)
  else ({ w with n := w.n + inc, total := w.total + inc }, false)

/-- The counter of windows of `period` seconds that fires for `needed` units. -/
def Window.step (period needed : ℕ) (w : Window) (e : Account) : Window × Bool :=
  (w.age period e.time).add needed e.inc.toNat

/-! ## Refinement -/

/-- One call of `__bucket_account` with any increment. -/
def incStep (c : BucketConf) (mult : UInt8) (b : LeakyBucket) (e : Account) : LeakyBucket × Bool :=
  bucketAccount c b e.inc e.time mult

/-- Neither the count nor the aged amount leaves 32 bits. -/
def Fits (c : BucketConf) (mult : UInt8) (b : LeakyBucket) (e : Account) : Prop :=
  eventsNeeded c mult + e.inc.toNat < 2 ^ 32 ∧ agedAmount c (e.time - b.tstamp) mult < 2 ^ 32

instance (c : BucketConf) (mult : UInt8) (b : LeakyBucket) (e : Account) :
    Decidable (Fits c mult b e) :=
  inferInstanceAs (Decidable (_ ∧ _))

/-- The bucket counts what the window counts. -/
structure Counts (needed : ℕ) (b : LeakyBucket) (w : Window) : Prop where
  start : b.tstamp = w.start
  n : b.count.toNat = w.n
  total : (b.count + b.excess).toNat = w.total % 2 ^ 32
  n_lt : w.n < needed

section

variable {c : BucketConf} {mult : UInt8} {b : LeakyBucket} {w : Window} {e : Account}

theorem counts_init {needed : ℕ} (hneeded : 0 < needed) (t : ℤ) :
    Counts needed (bucketInit t) (.empty t) where
  start := rfl
  n := rfl
  total := rfl
  n_lt := hneeded

/-- A bucket below its threshold is emptied when a window ends. -/
theorem Counts.age (hv : ValidThreshold c mult) (h : Counts (eventsNeeded c mult) b w) {t : ℤ}
    (hfit : agedAmount c (t - b.tstamp) mult < 2 ^ 32) :
    Counts (eventsNeeded c mult) (bucketAge c b t mult) (w.age c.agetime.toNat t) := by
  unfold Window.age
  rw [← h.start]
  split_ifs with hage
  · have hzero := bucketAge_count_zero hv (h.n ▸ h.n_lt) hage hfit
    have hbucket : bucketAge c b t mult = bucketInit t := by
      rw [bucketAge_of_ge hage] at hzero ⊢
      exact congrArg (fun count => (⟨count, 0, t⟩ : LeakyBucket)) hzero
    rw [hbucket]
    exact counts_init hv.needed_pos t
  · rw [bucketAge_of_lt (not_le.mp hage)]
    exact h

/-- Below the threshold, an event is counted without a carry. -/
theorem Counts.add (hv : ValidThreshold c mult) (h : Counts (eventsNeeded c mult) b w)
    {inc : UInt32} (hfit : eventsNeeded c mult + inc.toNat < 2 ^ 32) :
    let r := if b.count + inc ≥ threshold c mult then
        (({ b with count := 0, excess := b.excess + (b.count + inc) } : LeakyBucket), true)
      else ({ b with count := b.count + inc }, false)
    r.2 = (w.add (eventsNeeded c mult) inc.toNat).2 ∧
      Counts (eventsNeeded c mult) r.1 (w.add (eventsNeeded c mult) inc.toNat).1 := by
  have hlt := h.n_lt
  have hn := h.n
  have hcount : (b.count + inc).toNat = w.n + inc.toNat := by
    rw [UInt32.toNat_add, hn]
    exact Nat.mod_eq_of_lt (by omega)
  have hge : b.count + inc ≥ threshold c mult ↔ eventsNeeded c mult ≤ w.n + inc.toNat := by
    rw [ge_iff_le, UInt32.le_iff_toNat_le, hcount, hv.threshold_toNat]
  -- the units of the window are `count + excess`, whichever of the two they are moved to
  have htotal : (b.count + inc + b.excess).toNat = (w.total + inc.toNat) % 2 ^ 32 := by
    rw [UInt32.add_assoc, UInt32.add_comm inc, ← UInt32.add_assoc, UInt32.toNat_add, h.total,
      Nat.mod_add_mod]
  unfold Window.add
  by_cases hfire : eventsNeeded c mult ≤ w.n + inc.toNat
  · rw [if_pos (hge.mpr hfire), if_pos hfire]
    refine ⟨rfl, h.start, rfl, ?_, hv.needed_pos⟩
    show (0 + (b.excess + (b.count + inc))).toNat = _
    rw [UInt32.zero_add, UInt32.add_comm b.excess]
    exact htotal
  · rw [if_neg (mt hge.mp hfire), if_neg hfire]
    exact ⟨rfl, h.start, hcount, htotal, not_le.mp hfire⟩

/-- One call does what the counter does. -/
theorem Counts.step (hv : ValidThreshold c mult) (h : Counts (eventsNeeded c mult) b w)
    (hfit : Fits c mult b e) :
    (incStep c mult b e).2 = (w.step c.agetime.toNat (eventsNeeded c mult) e).2 ∧
      Counts (eventsNeeded c mult) (incStep c mult b e).1
        (w.step c.agetime.toNat (eventsNeeded c mult) e).1 := by
  have hadd := (h.age hv hfit.2).add hv hfit.1
  unfold incStep bucketAccount Window.step
  rw [if_neg hv.capacity_ne]
  exact hadd

/-- A run does what the counter does. -/
theorem Counts.run (hv : ValidThreshold c mult) (h : Counts (eventsNeeded c mult) b w)
    {es : List Account} (hfit : Meets (incStep c mult) (Fits c mult) b es) :
    runOut (incStep c mult) b es =
        runOut (Window.step c.agetime.toNat (eventsNeeded c mult)) w es ∧
      Counts (eventsNeeded c mult) (runState (incStep c mult) b es)
        (runState (Window.step c.agetime.toNat (eventsNeeded c mult)) w es) := by
  induction es generalizing b w with
  | nil => exact ⟨rfl, h⟩
  | cons e es ih =>
    obtain ⟨hout, hnext⟩ := h.step hv hfit.1
    obtain ⟨houts, hlast⟩ := ih hnext hfit.2
    exact ⟨by rw [runOut_cons, runOut_cons, hout, houts], hlast⟩

end

/-! ## Main theorem -/

section Main

variable {c : BucketConf} {mult : UInt8} {b : LeakyBucket} {w : Window}

/-- The rate as `bucket_output` prints it, with `count` units. -/
def rateText (c : BucketConf) (count : ℕ) : String :=
  toString count ++ " in " ++ toString (c.agetime / (timeconv c.tunit).1).toNat ++
    (if c.tunit = '\x00' then "" else c.tunit.toString)

theorem Counts.output (hcapacity : c.capacity ≠ 0) {needed : ℕ} (h : Counts needed b w) :
    bucketOutput c b = rateText c (w.total % 2 ^ 32) := by
  rw [bucketOutput, if_neg hcapacity, h.total]
  rfl

/-- Every prefix of the run counts, also the empty one, where no call says that the
    threshold fits. -/
theorem counts_take (hcapacity : 1 ≤ c.capacity.toNat) (hagetime : 1 ≤ c.agetime.toNat)
    (hmult : 1 ≤ mult.toNat) {start : ℤ} {es : List Account}
    (hfit : Meets (incStep c mult) (Fits c mult) (bucketInit start) es) (k : ℕ) :
    runOut (incStep c mult) (bucketInit start) (es.take k) =
        runOut (Window.step c.agetime.toNat (eventsNeeded c mult)) (.empty start) (es.take k) ∧
      Counts (eventsNeeded c mult) (runState (incStep c mult) (bucketInit start) (es.take k))
        (runState (Window.step c.agetime.toNat (eventsNeeded c mult)) (.empty start)
          (es.take k)) := by
  have hinit : Counts (eventsNeeded c mult) (bucketInit start) (.empty start) :=
    counts_init (Nat.mul_pos hcapacity hmult) start
  cases es with
  | nil =>
    rw [List.take_nil]
    exact ⟨rfl, hinit⟩
  | cons e es =>
    have hv : ValidThreshold c mult := ⟨hcapacity, hagetime, hmult, by have := hfit.1.1; omega⟩
    rw [← List.take_append_drop k (e :: es), meets_append] at hfit
    exact hinit.run hv hfit.1

/-- **The bucket is a window counter.** For every capacity, period and multiplier from 1
    on, and every run of accounts from a new bucket in which no count and no aged amount
    leaves 32 bits, the calls return what the counter of windows returns. After every call
    the stamp is the start of the window, the count is the one towards the threshold, and
    `count + excess`, which `bucket_output` and `THRESHOLD_COUNT` print, are the units of
    the window modulo `2^32`. -/
theorem bucket_is_window (c : BucketConf) (mult : UInt8) (hcapacity : 1 ≤ c.capacity.toNat)
    (hagetime : 1 ≤ c.agetime.toNat) (hmult : 1 ≤ mult.toNat) (start : ℤ) (es : List Account)
    (hfit : Meets (incStep c mult) (Fits c mult) (bucketInit start) es) :
    runOut (incStep c mult) (bucketInit start) es =
        runOut (Window.step c.agetime.toNat (eventsNeeded c mult)) (.empty start) es ∧
      ∀ k, let b := runState (incStep c mult) (bucketInit start) (es.take k)
        let w := runState (Window.step c.agetime.toNat (eventsNeeded c mult)) (.empty start)
          (es.take k)
        b.tstamp = w.start ∧ b.count.toNat = w.n ∧
          (b.count + b.excess).toNat = w.total % 2 ^ 32 ∧
          bucketOutput c b = rateText c (w.total % 2 ^ 32) ∧
          ∀ msg md t count args sync reporter,
            (memdbTrigger msg md t ⟨b, count⟩ c args sync reporter).thresholdCount.toNat =
              w.total % 2 ^ 32 := by
  refine ⟨?_, fun k => ?_⟩
  · have hout := (counts_take hcapacity hagetime hmult hfit es.length).1
    rwa [List.take_length] at hout
  · intro b w
    have hcounts : Counts (eventsNeeded c mult) b w :=
      (counts_take hcapacity hagetime hmult hfit k).2
    have hne : c.capacity ≠ 0 := by
      intro h
      simp [h] at hcapacity
    exact ⟨hcounts.start, hcounts.n, hcounts.total, hcounts.output hne,
      fun _ _ _ _ _ _ _ => hcounts.total⟩

/-- Three units at once, a clock that goes back, and a second window. -/
theorem bucket_is_window_twoPerTen :
    let es : List Account := [⟨1, 4⟩, ⟨3, 2⟩, ⟨1, 13⟩, ⟨1, 14⟩]
    (1 ≤ twoPerTen.capacity.toNat ∧ 1 ≤ twoPerTen.agetime.toNat ∧
      Meets (incStep twoPerTen 1) (Fits twoPerTen 1) (bucketInit 0) es) ∧
    runOut (incStep twoPerTen 1) (bucketInit 0) es =
      runOut (Window.step 10 2) (.empty 0) es :=
  ⟨by decide, (bucket_is_window twoPerTen 1 (by decide) (by decide) (by decide) 0 _ (by decide)).1⟩

end Main

end Mcelog.Bucket
