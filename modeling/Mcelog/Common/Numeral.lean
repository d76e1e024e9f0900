import Mathlib.Data.List.Basic
import Mathlib.Data.List.Induction
import Mathlib.Data.List.TakeWhile
import Mathlib.Tactic.Ring

/-!
# Numerals

Reading numbers back from the digits that `Nat.toDigits` writes, in any base up
to 16. Upper case digits are read as well.

* `ofNumeral_toDigits`: reading what was written.
* `ofNumeral_leftpad`: leading zeros do not matter.
-/

namespace Mcelog.Common

/-- The characters of a text are checked one by one, not those of all of Unicode. -/
instance (priority := high) decidableBAllChar (text : List Char) (p : Char → Prop)
    [DecidablePred p] : Decidable (∀ c ∈ text, p c) :=
  List.decidableBAll p text

/-- The value of a digit; 16 for a character that is no digit. -/
def digitValue (c : Char) : ℕ :=
  if '0' ≤ c ∧ c ≤ '9' then c.toNat - 48
  else if 'a' ≤ c ∧ c ≤ 'f' then c.toNat - 87
  else if 'A' ≤ c ∧ c ≤ 'F' then c.toNat - 55
  else 16

/-- `c` is a digit of base `b`. -/
def isDigitOf (b : ℕ) (c : Char) : Bool := digitValue c < b

/-- The number with these digits, the most significant one first. -/
def ofNumeral (b : ℕ) (ds : List Char) : ℕ := ds.foldl (fun n c => n * b + digitValue c) 0

section

variable {b n : ℕ}

theorem digitValue_digitChar (h : n < 16) : digitValue n.digitChar = n := by
  revert n
  decide

theorem isDigitOf_digitChar (hn : n < b) (hb : b ≤ 16) : isDigitOf b n.digitChar = true := by
  rw [isDigitOf, digitValue_digitChar (by omega)]
  exact decide_eq_true hn

theorem ofNumeral_concat (b : ℕ) (ds : List Char) (c : Char) :
    ofNumeral b (ds ++ [c]) = ofNumeral b ds * b + digitValue c := by
  rw [ofNumeral, List.foldl_append]
  rfl

theorem ofNumeral_append (b : ℕ) (xs ys : List Char) :
    ofNumeral b (xs ++ ys) = ofNumeral b xs * b ^ ys.length + ofNumeral b ys := by
  induction ys using List.reverseRecOn with
  | nil => simp [ofNumeral]
  | append_singleton ys y ih =>
    rw [← List.append_assoc, ofNumeral_concat, ofNumeral_concat, ih, List.length_append,
      List.length_singleton, Nat.pow_succ]
    ring

/-- A number has one place for each of its digits. -/
theorem ofNumeral_lt_pow {ds : List Char} (hds : ∀ c ∈ ds, isDigitOf b c = true) :
    ofNumeral b ds < b ^ ds.length := by
  induction ds using List.reverseRecOn with
  | nil => exact Nat.one_pos
  | append_singleton ds c ih =>
    have hinit : ofNumeral b ds + 1 ≤ b ^ ds.length :=
      ih fun d hd => hds d (List.mem_append_left _ hd)
    have hc : digitValue c < b :=
      of_decide_eq_true (hds c (List.mem_append_right _ List.mem_cons_self))
    rw [ofNumeral_concat, List.length_append, List.length_singleton, Nat.pow_succ]
    calc ofNumeral b ds * b + digitValue c < (ofNumeral b ds + 1) * b := by
          rw [Nat.add_mul, Nat.one_mul]
          omega
      _ ≤ b ^ ds.length * b := Nat.mul_le_mul_right b hinit

/-- Dropping leading digits makes the number smaller, unless the first is 0. -/
theorem ofNumeral_lt_append {c : Char} (hb : 0 < b) (hc : 0 < digitValue c) (xs ys : List Char) :
    ofNumeral b ys < ofNumeral b (c :: xs ++ ys) := by
  have hhead : 0 < ofNumeral b (c :: xs) := by
    rw [show c :: xs = [c] ++ xs from rfl, ofNumeral_append]
    have : ofNumeral b [c] = digitValue c := by simp [ofNumeral]
    rw [this]
    have : 0 < digitValue c * b ^ xs.length := Nat.mul_pos hc (Nat.pow_pos hb)
    omega
  rw [ofNumeral_append]
  have : 0 < ofNumeral b (c :: xs) * b ^ ys.length := Nat.mul_pos hhead (Nat.pow_pos hb)
  omega

/-- Reading back what `Nat.toDigits` writes. -/
theorem ofNumeral_toDigits (hb : 1 < b) (hb' : b ≤ 16) (n : ℕ) :
    ofNumeral b (Nat.toDigits b n) = n := by
  induction n using Nat.strongRecOn with
  | ind n ih =>
    by_cases hn : n < b
    · rw [Nat.toDigits_of_lt_base hn, ofNumeral, List.foldl_cons, List.foldl_nil, Nat.zero_mul,
        Nat.zero_add, digitValue_digitChar (by omega)]
    · have hlt : n / b < n := Nat.div_lt_self (by omega) hb
      have hmod : n % b < b := Nat.mod_lt _ (by omega)
      rw [Nat.toDigits_of_base_le hb (by omega), ofNumeral_concat, ih _ hlt,
        digitValue_digitChar (by omega), Nat.mul_comm]
      exact Nat.div_add_mod n b

theorem ofNumeral_decimal (n : ℕ) : ofNumeral 10 (Nat.toDigits 10 n) = n :=
  ofNumeral_toDigits (by omega) (by omega) n

theorem ofNumeral_hex (n : ℕ) : ofNumeral 16 (Nat.toDigits 16 n) = n :=
  ofNumeral_toDigits (by omega) (by omega) n

/-- The digits that `Nat.toDigits` writes. -/
theorem exists_digitChar_of_mem_toDigits (hb : 1 < b) (n : ℕ) :
    ∀ c ∈ Nat.toDigits b n, ∃ d < b, c = d.digitChar := by
  induction n using Nat.strongRecOn with
  | ind n ih =>
    intro c hc
    by_cases hn : n < b
    · rw [Nat.toDigits_of_lt_base hn, List.mem_singleton] at hc
      exact ⟨n, hn, hc⟩
    · rw [Nat.toDigits_of_base_le hb (by omega), List.mem_append, List.mem_singleton] at hc
      rcases hc with hc | hc
      · exact ih _ (Nat.div_lt_self (by omega) hb) c hc
      · exact ⟨n % b, Nat.mod_lt _ (by omega), hc⟩

theorem isDigitOf_of_mem_toDigits (hb : 1 < b) (hb' : b ≤ 16) (n : ℕ) :
    ∀ c ∈ Nat.toDigits b n, isDigitOf b c = true := by
  intro c hc
  obtain ⟨d, hd, rfl⟩ := exists_digitChar_of_mem_toDigits hb n c hc
  exact isDigitOf_digitChar hd hb'

theorem isDigitOf_decimal (n : ℕ) : ∀ c ∈ Nat.toDigits 10 n, isDigitOf 10 c = true :=
  isDigitOf_of_mem_toDigits (by omega) (by omega) n

theorem isDigitOf_hex (n : ℕ) : ∀ c ∈ Nat.toDigits 16 n, isDigitOf 16 c = true :=
  isDigitOf_of_mem_toDigits (by omega) (by omega) n

theorem notMem_of_isDigitOf {x : Char} {ds : List Char}
    (hds : ∀ c ∈ ds, isDigitOf b c = true) (hx : isDigitOf b x = false) : x ∉ ds := by
  intro hmem
  rw [hds x hmem] at hx
  cases hx

/-- A larger base gives a larger number. -/
theorem ofNumeral_le_of_le {b' : ℕ} (h : b ≤ b') (ds : List Char) :
    ofNumeral b ds ≤ ofNumeral b' ds := by
  induction ds using List.reverseRecOn with
  | nil => exact le_rfl
  | append_singleton ds c ih =>
    rw [ofNumeral_concat, ofNumeral_concat]
    exact Nat.add_le_add_right (Nat.mul_le_mul ih h) _

/-- Reading the leading decimal digits of a hexadecimal number in decimal gives
    another number, unless it has only one digit. -/
theorem ofNumeral_ten_lt (hn : 10 ≤ n) :
    ofNumeral 10 ((Nat.toDigits 16 n).takeWhile (isDigitOf 10)) < n := by
  have hvalue := ofNumeral_hex n
  have hsplit := List.takeWhile_append_dropWhile (p := isDigitOf 10) (l := Nat.toDigits 16 n)
  have hle := ofNumeral_le_of_le (by decide : 10 ≤ 16)
    ((Nat.toDigits 16 n).takeWhile (isDigitOf 10))
  obtain hpost | ⟨init, c, hpost⟩ :=
    ((Nat.toDigits 16 n).dropWhile (isDigitOf 10)).eq_nil_or_concat'
  · -- all digits are decimal: compare the last one and what is before it
    rw [hpost, List.append_nil] at hsplit
    obtain hnil | ⟨init, c, hcat⟩ := (Nat.toDigits 16 n).eq_nil_or_concat'
    · exact absurd hnil Nat.toDigits_ne_nil
    · have hc : isDigitOf 10 c = true :=
        List.mem_takeWhile_imp (hsplit.symm ▸ hcat ▸ List.mem_append_right _ List.mem_cons_self)
      have hlt : digitValue c < 10 := of_decide_eq_true hc
      have hinit := ofNumeral_le_of_le (by decide : 10 ≤ 16) init
      rw [hsplit]
      rw [hcat, ofNumeral_concat] at hvalue ⊢
      omega
  · -- a digit is left, so that the others count at least sixteen times as much
    have hlen : 1 ≤ ((Nat.toDigits 16 n).dropWhile (isDigitOf 10)).length := by
      rw [hpost]
      simp
    rw [← hsplit, ofNumeral_append] at hvalue
    have hpow : 16 ≤ 16 ^ ((Nat.toDigits 16 n).dropWhile (isDigitOf 10)).length := by
      calc 16 = 16 ^ 1 := rfl
        _ ≤ _ := Nat.pow_le_pow_right (by decide) hlen
    have hmul := Nat.mul_le_mul_left
      (ofNumeral 16 ((Nat.toDigits 16 n).takeWhile (isDigitOf 10))) hpow
    omega

/-- Leading zeros do not change the number. -/
theorem ofNumeral_leftpad (b w : ℕ) (ds : List Char) :
    ofNumeral b (ds.leftpad w '0') = ofNumeral b ds := by
  have hzeros : ∀ k, (List.replicate k '0').foldl (fun n c => n * b + digitValue c) 0 = 0 := by
    intro k
    induction k with
    | zero => rfl
    | succ k ih =>
      rw [List.replicate_succ, List.foldl_cons, Nat.zero_mul]
      exact ih
  rw [List.leftpad, ofNumeral, List.foldl_append, hzeros]
  rfl

theorem isDigitOf_of_mem_leftpad {w : ℕ} {ds : List Char} (hb : 0 < b)
    (hds : ∀ c ∈ ds, isDigitOf b c = true) : ∀ c ∈ ds.leftpad w '0', isDigitOf b c = true := by
  intro c hc
  rw [List.leftpad, List.mem_append] at hc
  rcases hc with hc | hc
  · rw [(List.mem_replicate.mp hc).2]
    exact decide_eq_true hb
  · exact hds c hc

end

/-! ## Signed numbers -/

/-- `%d` -/
def printInt (n : ℤ) : List Char :=
  if n < 0 then '-' :: Nat.toDigits 10 n.natAbs else Nat.toDigits 10 n.natAbs

end Mcelog.Common
