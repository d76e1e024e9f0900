import Mcelog.Bucket.RateText

/-!
# The grammar of rates

The comment of `parse_rate` gives a rate as `capacity / time`, where the capacity is a
number with an optional `k`, `m` or `g` and the time one with an optional `s`, `m`, `h`
or `d`. A capacity with a unit is accepted only if the time has one too: of
`"%u %1s / %u %1s"` three conversions succeed, and three are neither four nor at most
two.

* `Rate`: the rates of the comment, with blanks between their tokens.
* `Rate.read`: how they are read.
* `rate_grammar_iff`: which of them are accepted, with their values.
-/

namespace Mcelog.Bucket

open Mcelog.Common

/-! ## Rates -/

inductive CapacityUnit
  | k | m | g
  deriving DecidableEq, Repr

inductive TimeUnit
  | s | m | h | d
  deriving DecidableEq, Repr

def CapacityUnit.char : CapacityUnit → Char
  | .k => 'k'
  | .m => 'm'
  | .g => 'g'

def CapacityUnit.factor : CapacityUnit → ℕ
  | .k => 1000
  | .m => 1000 ^ 2
  | .g => 1000 ^ 3

def TimeUnit.char : TimeUnit → Char
  | .s => 's'
  | .m => 'm'
  | .h => 'h'
  | .d => 'd'

def TimeUnit.factor : TimeUnit → ℕ
  | .s => 1
  | .m => 60
  | .h => 60 * 60
  | .d => 24 * 60 * 60

/-- A letter in upper or lower case. -/
def cased (upper : Bool) (c : Char) : Char := if upper then c.toUpper else c

/-- White space between two tokens, possibly none. -/
structure Space where
  chars : List Char
  isSpace : ∀ c ∈ chars, isSpace c = true

/-- A rate whose values fit in 32 bits. The units are written in upper or lower case. -/
structure Rate where
  capacity : ℕ
  capacityUnit : Option CapacityUnit
  time : ℕ
  timeUnit : Option TimeUnit
  upperCapacity : Bool := false
  upperTime : Bool := false
  space₁ : Space
  space₂ : Space
  space₃ : Space
  space₄ : Space
  capacity_pos : 1 ≤ capacity
  time_pos : 1 ≤ time
  capacity_lt : capacity * (capacityUnit.elim 1 CapacityUnit.factor) < 2 ^ 32
  time_lt : time * (timeUnit.elim 1 TimeUnit.factor) < 2 ^ 32

/-- The capacity in units of one. -/
def Rate.capacityValue (r : Rate) : ℕ := r.capacity * r.capacityUnit.elim 1 CapacityUnit.factor

/-- The time in seconds. -/
def Rate.timeValue (r : Rate) : ℕ := r.time * r.timeUnit.elim 1 TimeUnit.factor

/-- The unit of the capacity as it is written. -/
def Rate.cunit (r : Rate) : Option Char :=
  r.capacityUnit.map fun u => cased r.upperCapacity u.char

/-- The unit of the time as it is written. -/
def Rate.tunit (r : Rate) : Option Char := r.timeUnit.map fun u => cased r.upperTime u.char

/-- `capacity[unit] / time[unit]` -/
def Rate.text (r : Rate) : List Char :=
  Nat.toDigits 10 r.capacity ++ (r.space₁.chars ++ (r.cunit.toList ++ (r.space₂.chars ++ ('/' ::
    (r.space₃.chars ++ (Nat.toDigits 10 r.time ++ (r.space₄.chars ++ r.tunit.toList)))))))

/-- `parse_rate` accepts the rate with its values, and `bucket_output` prints the time as
    it was given. -/
def Rate.ParsedExactly (r : Rate) : Prop :=
  ∀ c, ∃ c', parseRate r.text c = (c', true) ∧ c'.capacity.toNat = r.capacityValue ∧
    c'.agetime.toNat = r.timeValue ∧ c'.tunit = r.timeUnit.elim '\x00' TimeUnit.char ∧
    ∀ b, bucketOutput c' b = toString (b.count + b.excess).toNat ++ " in " ++ toString r.time ++
      r.timeUnit.elim "" fun u => u.char.toString

/-! ## Reading a rate -/

section Read

variable {l s : List Char} {p : Char → Bool}

theorem dropWhile_space (b : Space) (hs : NoHead isSpace s) :
    (b.chars ++ s).dropWhile Common.isSpace = s := by
  rw [List.dropWhile_append_of_pos b.isSpace, dropWhile_of_noHead hs]

/-- Blanks are no digits. -/
theorem noHead_digit_space (b : Space) (hs : NoHead (isDigitOf 10) s) :
    NoHead (isDigitOf 10) (b.chars ++ s) := by
  cases hb : b.chars with
  | nil => exact hs
  | cons c cs =>
    have hspace := b.isSpace c (hb ▸ List.mem_cons_self)
    refine noHead_cons ?_
    by_contra hdigit
    have hnot := (not_isSpace_of_isDigitOf (by decide : 10 ≤ 16)
      (Bool.eq_true_of_not_eq_false hdigit)).1
    rw [hspace] at hnot
    cases hnot

/-- Units are letters. -/
theorem cased_capacity (upper : Bool) (u : CapacityUnit) :
    isSpace (cased upper u.char) = false ∧ isDigitOf 10 (cased upper u.char) = false ∧
      cased upper u.char ≠ '/' ∧ capacityFactor (cased upper u.char).toLower = some u.factor := by
  cases upper <;> cases u <;> decide

theorem cased_time (upper : Bool) (u : TimeUnit) :
    isSpace (cased upper u.char) = false ∧ isDigitOf 10 (cased upper u.char) = false ∧
      (cased upper u.char).toLower = u.char ∧ timeFactor u.char = some u.factor ∧
      timeconv u.char = (.ofNat u.factor, true) ∧ u.char ≠ '\x00' := by
  cases upper <;> cases u <;> decide

theorem readNumber_printed (n : ℕ) (hs : NoHead (isDigitOf 10) s) :
    readNumber (Nat.toDigits 10 n ++ s) = some (⟨false, n⟩, s) := by
  rw [readNumber_digits (isDigitOf_decimal n) Nat.toDigits_ne_nil
    hs, ofNumeral_decimal]

/-- The time of a rate. -/
theorem readTime_printed (cap : Written) (cunit tunit : Option Char) (n : ℕ) (b b' : Space)
    (htunit : ∀ u ∈ tunit, isSpace u = false ∧ isDigitOf 10 u = false) :
    readTime cap cunit (b.chars ++ (Nat.toDigits 10 n ++ (b'.chars ++ tunit.toList))) =
      some ⟨cap, cunit, ⟨false, n⟩, tunit⟩ := by
  have hspace : NoHead isSpace tunit.toList := by
    intro c hc
    cases tunit with
    | none => cases hc
    | some u => exact Option.some.inj hc ▸ (htunit u rfl).1
  have hdigit : NoHead (isDigitOf 10) tunit.toList := by
    intro c hc
    cases tunit with
    | none => cases hc
    | some u => exact Option.some.inj hc ▸ (htunit u rfl).2
  have hnumber := readNumber_printed n (noHead_digit_space b' hdigit)
  have hstart : NoHead isSpace (Nat.toDigits 10 n ++ (b'.chars ++ tunit.toList)) :=
    noHead_isSpace_toDigits n _
  unfold readTime
  rw [← readNumber_dropWhile, dropWhile_space b hstart, hnumber]
  dsimp only
  rw [dropWhile_space b' hspace]
  cases tunit <;> rfl

theorem Rate.read (r : Rate) :
    readRate r.text = some ⟨⟨false, r.capacity⟩, r.cunit, ⟨false, r.time⟩, r.tunit⟩ := by
  have htunit : ∀ u ∈ r.tunit, isSpace u = false ∧ isDigitOf 10 u = false := by
    intro u hu
    obtain ⟨v, -, rfl⟩ := Option.map_eq_some_iff.mp hu
    exact ⟨(cased_time r.upperTime v).1, (cased_time r.upperTime v).2.1⟩
  have hslash : NoHead isSpace ('/' :: (r.space₃.chars ++ (Nat.toDigits 10 r.time ++
      (r.space₄.chars ++ r.tunit.toList)))) := noHead_cons (by decide)
  have htime := fun cunit => readTime_printed ⟨false, r.capacity⟩ cunit r.tunit r.time r.space₃
    r.space₄ htunit
  unfold readRate Rate.text
  cases hunit : r.cunit with
  | none =>
    rw [Option.toList_none, List.nil_append,
      readNumber_printed _ (noHead_digit_space _ (noHead_digit_space _ (noHead_cons (by decide))))]
    dsimp only
    rw [List.dropWhile_append_of_pos r.space₁.isSpace, dropWhile_space r.space₂ hslash]
    exact htime none
  | some u =>
    obtain ⟨v, -, rfl⟩ := Option.map_eq_some_iff.mp hunit
    obtain ⟨hspace, hdigit, hne, -⟩ := cased_capacity r.upperCapacity v
    rw [Option.toList_some, List.singleton_append,
      readNumber_printed _ (noHead_digit_space _ (noHead_cons hdigit))]
    dsimp only
    rw [dropWhile_space r.space₁ (noHead_cons hspace)]
    dsimp only
    rw [if_neg hne, dropWhile_space r.space₂ hslash]
    exact htime _

end Read

/-! ## Main theorem -/

section Main

variable (r : Rate)

/-- The rate as `parse_rate` reads it. -/
def Rate.asRead : RateText := ⟨⟨false, r.capacity⟩, r.cunit, ⟨false, r.time⟩, r.tunit⟩

theorem Rate.capacityFactor_eq : capacityFactor (lowerUnit r.cunit) =
    some (r.capacityUnit.elim 1 CapacityUnit.factor) := by
  unfold Rate.cunit lowerUnit
  cases r.capacityUnit with
  | none => rfl
  | some u => exact (cased_capacity r.upperCapacity u).2.2.2

theorem Rate.lowerUnit_tunit : lowerUnit r.tunit = r.timeUnit.elim '\x00' TimeUnit.char := by
  unfold Rate.tunit lowerUnit
  cases r.timeUnit with
  | none => rfl
  | some u => exact (cased_time r.upperTime u).2.2.1

theorem Rate.timeFactor_eq : timeFactor (lowerUnit r.tunit) =
    some (r.timeUnit.elim 1 TimeUnit.factor) := by
  rw [r.lowerUnit_tunit]
  cases r.timeUnit with
  | none => rfl
  | some u => exact (cased_time false u).2.2.2.1

theorem Rate.fits : r.asRead.Fits (r.capacityUnit.elim 1 CapacityUnit.factor)
    (r.timeUnit.elim 1 TimeUnit.factor) :=
  ⟨rfl, rfl, r.capacity_lt, r.time_lt⟩

/-- A rate is accepted, unless only its capacity has a unit. -/
theorem Rate.accepted (h : ¬ (r.capacityUnit.isSome ∧ r.timeUnit = none)) :
    r.asRead.Accepted (r.capacityUnit.elim 1 CapacityUnit.factor)
      (r.timeUnit.elim 1 TimeUnit.factor) where
  units hcunit htunit := by
    refine h ⟨?_, Option.map_eq_none_iff.mp htunit⟩
    rwa [Rate.asRead, Rate.cunit, Option.isSome_map] at hcunit
  capacity := r.capacityFactor_eq
  time := r.timeFactor_eq
  cap_ne := by
    rw [Written.stored_eq rfl (capacityFactor_pos r.capacityFactor_eq) r.capacity_lt]
    exact Nat.ne_of_gt r.capacity_pos
  time_ne := by
    rw [Written.stored_eq rfl (timeFactor_pos r.timeFactor_eq) r.time_lt]
    exact Nat.ne_of_gt r.time_pos

/-- The period is printed in its own unit. -/
theorem Rate.output {c : BucketConf} (hcapacity : c.capacity.toNat = r.capacityValue)
    (hagetime : c.agetime.toNat = r.timeValue)
    (htunit : c.tunit = r.timeUnit.elim '\x00' TimeUnit.char) (b : LeakyBucket) :
    bucketOutput c b = toString (b.count + b.excess).toNat ++ " in " ++ toString r.time ++
      r.timeUnit.elim "" fun u => u.char.toString := by
  have hft := timeFactor_pos r.timeFactor_eq
  have hne : c.capacity ≠ 0 := by
    intro hzero
    rw [hzero] at hcapacity
    exact absurd hcapacity.symm (Nat.ne_of_gt
      (Nat.mul_pos r.capacity_pos (capacityFactor_pos r.capacityFactor_eq)))
  have hunit : (timeconv c.tunit).1.toNat = r.timeUnit.elim 1 TimeUnit.factor := by
    rw [htunit]
    cases r.timeUnit with
    | none => rfl
    | some u => cases u <;> rfl
  have hperiod : (c.agetime / (timeconv c.tunit).1).toNat = r.time := by
    rw [UInt32.toNat_div, hagetime, hunit, Rate.timeValue, Nat.mul_div_cancel _ hft]
  rw [bucketOutput, if_neg hne]
  dsimp only
  rw [hperiod, htunit]
  cases r.timeUnit with
  | none => rfl
  | some u => cases u <;> rfl

/-- **The grammar of rates.** Every rate whose products fit in 32 bits, with blanks or
    without and with units in either case, is accepted with exactly its values and
    printed with its own period if and only if its time has a unit or its capacity has
    none. -/
theorem rate_grammar_iff :
    r.ParsedExactly ↔ ¬ (r.capacityUnit.isSome ∧ r.timeUnit = none) := by
  constructor
  · rintro h ⟨hcapacity, htime⟩
    obtain ⟨c', hparse, -⟩ := h noRate
    obtain ⟨r', fc, ft, hread, haccept, -⟩ := parseRate_accepted hparse
    rw [r.read, Option.some.injEq] at hread
    subst hread
    refine haccept.units ?_ (Option.map_eq_none_iff.mpr htime)
    rwa [Rate.cunit, Option.isSome_map]
  · intro h c
    have haccept := r.accepted h
    obtain ⟨hcapacity, hagetime⟩ := r.fits.conf haccept c
    exact ⟨_, parseRate_of_read r.read haccept c, hcapacity, hagetime, r.lowerUnit_tunit,
      r.output hcapacity hagetime r.lowerUnit_tunit⟩

/-- `5k / 60` -/
def fiveThousand : Rate where
  capacity := 5
  capacityUnit := some .k
  time := 60
  timeUnit := none
  space₁ := ⟨[], by decide⟩
  space₂ := ⟨[' '], by decide⟩
  space₃ := ⟨[' '], by decide⟩
  space₄ := ⟨[], by decide⟩
  capacity_pos := by decide
  time_pos := by decide
  capacity_lt := by decide
  time_lt := by decide

/-- A capacity with a unit needs a time with one. -/
theorem fiveThousand_rejected :
    String.ofList fiveThousand.text = "5k / 60" ∧ ¬ fiveThousand.ParsedExactly := by
  refine ⟨by decide +kernel, fun h => ?_⟩
  obtain ⟨c', hparse, -⟩ := h noRate
  have hreject : (parseRate fiveThousand.text noRate).2 = false := by decide +kernel
  rw [hparse] at hreject
  cases hreject

end Main

end Mcelog.Bucket
