import Mathlib.Tactic

/-!
# The leaky bucket

Model of `leaky-bucket.c`. `unsigned` is `UInt32`, `unsigned char` is `UInt8`,
`time_t` and `long` are `ℤ`.

`bucket_age` computes the aged amount in `double`
(`(diff / (double)c->agetime) * c->capacity * capacity_multiplier`). The
expression is read as the exact rational and truncated; the conversion to
`unsigned` keeps the low 32 bits.
-/

namespace Mcelog.Bucket

/-- `struct bucket_conf` (leaky-bucket.h:9-15). -/
structure BucketConf where
  capacity : UInt32
  agetime : UInt32
  tunit : Char
  log : Bool := false
  trigger : Option String := none
  deriving DecidableEq, Repr

/-- `struct leaky_bucket` (leaky-bucket.h:17-21). -/
structure LeakyBucket where
  count : UInt32
  excess : UInt32
  tstamp : ℤ
  deriving DecidableEq, Repr

/-- `bucket_init` (leaky-bucket.c:151-156); `now` is the result of
    `bucket_time()`. -/
def bucketInit (now : ℤ) : LeakyBucket := { count := 0, excess := 0, tstamp := now }

/-- The exact value of `(diff / agetime) * capacity * capacity_multiplier`,
    truncated (leaky-bucket.c:35). -/
def agedAmount (c : BucketConf) (diff : ℤ) (mult : UInt8) : ℕ :=
  diff.toNat * (c.capacity.toNat * mult.toNat) / c.agetime.toNat

/-- `bucket_age` (leaky-bucket.c:29-43). -/
def bucketAge (c : BucketConf) (b : LeakyBucket) (now : ℤ) (mult : UInt8) : LeakyBucket :=
  let diff := now - b.tstamp
  if diff ≥ c.agetime.toNat then
    let age := UInt32.ofNat (agedAmount c diff mult)
    { count := if age > b.count then 0 else b.count - age
      excess := 0
      tstamp := now }
  else b

/-- `c->capacity * capacity_multiplier` as `__bucket_account` evaluates it
    (leaky-bucket.c:53): an `unsigned` product. -/
def threshold (c : BucketConf) (mult : UInt8) : UInt32 := c.capacity * mult.toUInt32

/-- `__bucket_account` (leaky-bucket.c:46-60): the bucket afterwards and whether
    it overflowed. -/
def bucketAccount (c : BucketConf) (b : LeakyBucket) (inc : UInt32) (t : ℤ) (mult : UInt8) :
    LeakyBucket × Bool :=
  if c.capacity = 0 then (b, false)
  else
    let b := bucketAge c b t mult
    let count := b.count + inc
    if count ≥ threshold c mult then
      ({ b with count := 0, excess := b.excess + count }, true)
    else ({ b with count := count }, false)

/-! ## Output -/

/-- `timeconv` (leaky-bucket.c:68-83): the seconds in a unit, and whether
    the unit is known. -/
def timeconv : Char → UInt32 × Bool
  | 'd' => (24 * 60 * 60, true)
  | 'h' => (60 * 60, true)
  | 'm' => (60, true)
  | 's' | '\x00' => (1, true)
  | _ => (1, false)

/-- `bucket_output` (leaky-bucket.c:86-98). A `tunit` of 0 ends the string. -/
def bucketOutput (c : BucketConf) (b : LeakyBucket) : String :=
  if c.capacity = 0 then "not enabled"
  else
    let unit := (timeconv c.tunit).1
    toString (b.count + b.excess).toNat ++ " in " ++ toString (c.agetime / unit).toNat ++
      (if c.tunit = '\x00' then "" else c.tunit.toString)

/-! ## What one call does -/

theorem bucketAge_of_lt {c : BucketConf} {b : LeakyBucket} {now : ℤ} {mult : UInt8}
    (h : now - b.tstamp < c.agetime.toNat) : bucketAge c b now mult = b := by
  unfold bucketAge
  exact if_neg (not_le.mpr h)

theorem bucketAge_of_ge {c : BucketConf} {b : LeakyBucket} {now : ℤ} {mult : UInt8}
    (h : (c.agetime.toNat : ℤ) ≤ now - b.tstamp) :
    bucketAge c b now mult =
      { count := if UInt32.ofNat (agedAmount c (now - b.tstamp) mult) > b.count then 0
                 else b.count - UInt32.ofNat (agedAmount c (now - b.tstamp) mult)
        excess := 0
        tstamp := now } := by
  unfold bucketAge
  exact if_pos h

/-- Aging never raises the count. -/
theorem bucketAge_count_le (c : BucketConf) (b : LeakyBucket) (now : ℤ) (mult : UInt8) :
    (bucketAge c b now mult).count.toNat ≤ b.count.toNat := by
  unfold bucketAge
  dsimp only
  split_ifs with h1 h2
  · simp
  · rw [UInt32.toNat_sub_of_le _ _ (by simpa using h2)]
    omega
  · exact le_rfl

/-- `capacity * capacity_multiplier` does not wrap. -/
theorem threshold_toNat {c : BucketConf} {mult : UInt8}
    (h : c.capacity.toNat * mult.toNat < 2 ^ 32) :
    (threshold c mult).toNat = c.capacity.toNat * mult.toNat := by
  simp only [threshold, UInt32.toNat_mul, UInt8.toNat_toUInt32]
  exact Nat.mod_eq_of_lt h

end Mcelog.Bucket
