import Mathlib.Data.Nat.Bitwise
import Mcelog.Cache.Cpumap

/-!
# The CPUs of a cache

`cpulist` writes the set bits of a mask as decimal numbers into the environment of the cache
trigger. It tests bit `i` in word `i / 32` for each `i` below the size of the buffer in bits.

* `testBit_maskWords`: the words of a mask have the bits of its number.
* `cpulist_eq`: the bits that are set are listed in ascending order.
* `affected_cpus_exact`: from the text of a file to the list.
-/

namespace Mcelog.Cache

open Mcelog.Common

/-- `test_bit` (yellow.c:32), none where the word lies behind the mask. -/
def testBit (cpumask : List UInt32) (i : UInt32) : Option Bool :=
  cpumask[i.toNat / 32]?.map fun word => word &&& (1 <<< (i % 32)) != 0

/-- One turn of the loop of `cpulist`, with the text so far and `k`, which counts the CPUs. -/
def cpulistStep (cpumask : List UInt32) (st : List Char × ℕ) (i : ℕ) : Option (List Char × ℕ) := do
  if ← testBit cpumask (.ofNat i) then
    return (st.1 ++ (if 0 < st.2 then [' '] else []) ++ Nat.toDigits 10 i, st.2 + 1)
  else return st

/-- `cpulist` (yellow.c:41-59), none where it reads behind the mask. -/
def cpulist (pre : List Char) (cpumask : List UInt32) (cpumasklen : UInt32) :
    Option (List Char) := do
  let (text, _) ← (List.range (cpumasklen * 8).toNat).foldlM (cpulistStep cpumask) (pre, 0)
  return text

/-- Numbers with blanks between them. -/
def blankSeparated (cpus : List ℕ) : List Char := [' '].intercalate (cpus.map (Nat.toDigits 10))

section

variable {groups gs : List (List Char)} {g : List Char} {cpumask : List UInt32} {i n : ℕ}

/-! ## The bits of a mask -/

theorem testBit_eq {word : UInt32} (hi : i < 2 ^ 32) (hword : cpumask[i / 32]? = some word) :
    testBit cpumask (.ofNat i) = some (word.toNat.testBit (i % 32)) := by
  have hplace : (UInt32.ofNat i).toNat = i := UInt32.toNat_ofNat_of_lt' hi
  have hpow : ((1 : UInt32) <<< (UInt32.ofNat i % 32)).toNat = 2 ^ (i % 32) := by
    have hlt : 2 ^ (i % 32) < 2 ^ 32 := Nat.pow_lt_pow_right (by omega) (Nat.mod_lt _ (by omega))
    rw [UInt32.toNat_shiftLeft, UInt32.toNat_mod, hplace]
    show 1 <<< (i % 32 % 32) % 2 ^ 32 = 2 ^ (i % 32)
    rw [Nat.mod_mod, Nat.one_shiftLeft, Nat.mod_eq_of_lt hlt]
  have hiff : (word &&& (1 <<< (UInt32.ofNat i % 32)) != 0) = true ↔
      word.toNat.testBit (i % 32) = true := by
    have hbit : 0 < 2 ^ (i % 32) := Nat.two_pow_pos _
    rw [bne_iff_ne, ne_eq, ← UInt32.toNat_inj, UInt32.toNat_and, hpow, Nat.and_two_pow]
    cases word.toNat.testBit (i % 32) <;> simp
  rw [testBit, hplace, hword, Option.map_some, Bool.eq_iff_iff.mpr hiff]

theorem ofNumeral_group_lt (h : Mask groups) (hg : g ∈ groups) : ofNumeral 16 g < 2 ^ 32 := by
  calc ofNumeral 16 g < 16 ^ g.length := ofNumeral_lt_pow (h.digits g hg)
    _ ≤ 16 ^ 8 := Nat.pow_le_pow_right (by omega) (h.width g hg).2
    _ = 2 ^ 32 := by norm_num

theorem maskNumber_concat (gs : List (List Char)) (g : List Char) :
    maskNumber (gs ++ [g]) = 2 ^ 32 * maskNumber gs + ofNumeral 16 g := by
  rw [maskNumber, List.foldl_append, List.foldl_cons, List.foldl_nil, Nat.mul_comm]
  rfl

/-- Word `i / 32` has the bit of the number. By induction on the groups, from the last one:
    the last group is word 0, and the other groups are the words from 1 on. -/
theorem maskWords_testBit (hlt : ∀ g ∈ groups, ofNumeral 16 g < 2 ^ 32)
    (hi : i < 32 * groups.length) :
    ∃ word, (maskWords groups)[i / 32]? = some word ∧
      word.toNat.testBit (i % 32) = (maskNumber groups).testBit i := by
  induction groups using List.reverseRecOn generalizing i with
  | nil => exact absurd hi (Nat.not_lt_zero i)
  | append_singleton gs g ih =>
    have hg := hlt g (List.mem_append_right _ List.mem_cons_self)
    rw [List.length_append, List.length_singleton] at hi
    rw [maskWords_concat, maskNumber_concat, Nat.testBit_two_pow_mul_add _ hg]
    by_cases hlow : i < 32
    · refine ⟨UInt32.ofNat (ofNumeral 16 g), ?_, ?_⟩
      · rw [Nat.div_eq_of_lt hlow, List.getElem?_cons_zero]
      · rw [UInt32.toNat_ofNat_of_lt' hg, Nat.mod_eq_of_lt hlow, if_pos hlow]
    · obtain ⟨word, hword, hbit⟩ :=
        ih (i := i - 32) (fun x hx => hlt x (List.mem_append_left _ hx)) (by omega)
      refine ⟨word, ?_, ?_⟩
      · rw [show i / 32 = (i - 32) / 32 + 1 by omega, List.getElem?_cons_succ, hword]
      · rw [if_neg hlow, ← hbit, show i % 32 = (i - 32) % 32 by omega]

/-- **The words of a mask have the bits of its number.** -/
theorem testBit_maskWords (h : Mask groups) (hi : i < 2 ^ 32) (hlt : i < 32 * groups.length) :
    testBit (maskWords groups) (.ofNat i) = some ((maskNumber groups).testBit i) := by
  obtain ⟨word, hword, hbit⟩ :=
    maskWords_testBit (fun g hg => ofNumeral_group_lt h hg) hlt
  rw [testBit_eq hi hword, hbit]

/-- The number has no bit from there on. -/
theorem maskNumber_lt (hlt : ∀ g ∈ groups, ofNumeral 16 g < 2 ^ 32) :
    maskNumber groups < 2 ^ (32 * groups.length) := by
  induction groups using List.reverseRecOn with
  | nil => exact Nat.one_pos
  | append_singleton gs g ih =>
    have hg := hlt g (List.mem_append_right _ List.mem_cons_self)
    have hgs := ih fun x hx => hlt x (List.mem_append_left _ hx)
    rw [maskNumber_concat, List.length_append, List.length_singleton, Nat.mul_add, Nat.pow_add]
    calc 2 ^ 32 * maskNumber gs + ofNumeral 16 g < 2 ^ 32 * (maskNumber gs + 1) := by omega
      _ ≤ 2 ^ 32 * 2 ^ (32 * gs.length) := Nat.mul_le_mul_left _ hgs
      _ = 2 ^ (32 * gs.length) * 2 ^ (32 * 1) := by rw [Nat.mul_one, Nat.mul_comm]

/-! ## The list -/

theorem blankSeparated_concat (cpus : List ℕ) (i : ℕ) :
    blankSeparated (cpus ++ [i]) =
      blankSeparated cpus ++ (if 0 < cpus.length then [' '] else []) ++ Nat.toDigits 10 i := by
  by_cases hnil : cpus = []
  · subst hnil
    rw [List.nil_append, blankSeparated, List.map_singleton, List.intercalate_singleton]
    rfl
  · have hne : cpus.map (Nat.toDigits 10) ≠ [] := fun h => hnil (List.map_eq_nil_iff.mp h)
    rw [blankSeparated, List.map_append, List.map_singleton, intercalate_concat hne,
      if_pos (List.length_pos_of_ne_nil hnil)]
    rfl

/-- The loop up to `n` has written the set bits below `n`. -/
theorem foldlM_cpulistStep {set : ℕ → Bool} (pre : List Char)
    (hset : ∀ i < n, testBit cpumask (.ofNat i) = some (set i)) :
    (List.range n).foldlM (cpulistStep cpumask) (pre, 0) =
      some (pre ++ blankSeparated ((List.range n).filter set),
        ((List.range n).filter set).length) := by
  induction n with
  | zero =>
    show some (pre, 0) = some (pre ++ [], 0)
    rw [List.append_nil]
  | succ n ih =>
    rw [List.range_succ, List.foldlM_append, ih fun i hi => hset i (by omega),
      Option.bind_eq_bind, Option.bind_some, List.foldlM_cons, List.filter_append]
    cases hbit : set n with
    | false =>
      have hstep : ∀ st, cpulistStep cpumask st n = some st := by
        intro st
        rw [cpulistStep, hset n (by omega), hbit]
        rfl
      rw [hstep, List.filter_cons_of_neg (by simp [hbit]), List.filter_nil, List.append_nil]
      rfl
    | true =>
      have hstep : ∀ st, cpulistStep cpumask st n =
          some (st.1 ++ (if 0 < st.2 then [' '] else []) ++ Nat.toDigits 10 n, st.2 + 1) := by
        intro st
        rw [cpulistStep, hset n (by omega), hbit]
        rfl
      rw [hstep, List.filter_cons_of_pos hbit, List.filter_nil, blankSeparated_concat,
        List.length_append, List.length_singleton, List.append_assoc, List.append_assoc,
        List.append_assoc]
      rfl

/-- `cpulist` over the words of fewer than 2^27 groups. -/
theorem cpulist_eq (h : Mask groups) (hlt : groups.length < 2 ^ 27) (pre : List Char) :
    cpulist pre (maskWords groups) (4 * UInt32.ofNat groups.length) =
      some (pre ++ blankSeparated
        ((List.range (32 * groups.length)).filter (maskNumber groups).testBit)) := by
  have hbits : (4 * UInt32.ofNat groups.length * 8).toNat = 32 * groups.length := by
    rw [UInt32.toNat_mul, UInt32.toNat_mul, UInt32.toNat_ofNat]
    show 4 * (groups.length % 2 ^ 32) % 2 ^ 32 * 8 % 2 ^ 32 = 32 * groups.length
    omega
  have hset : ∀ i < 32 * groups.length,
      testBit (maskWords groups) (.ofNat i) = some ((maskNumber groups).testBit i) :=
    fun i hi => testBit_maskWords h (by omega) hi
  rw [cpulist, hbits, foldlM_cpulistStep pre hset]
  rfl

/-- The set bits in ascending order. -/
theorem filter_range_testBit {m : ℕ} (hm : m < 2 ^ n) :
    ((List.range n).filter m.testBit).Pairwise (· < ·) ∧
      ∀ i, i ∈ (List.range n).filter m.testBit ↔ m.testBit i = true := by
  constructor
  · exact List.pairwise_lt_range.filter _
  · intro i
    rw [List.mem_filter, List.mem_range]
    constructor
    · exact fun hi => hi.2
    · intro hbit
      refine ⟨?_, hbit⟩
      by_contra hge
      have hnone : m.testBit i = false :=
        Nat.testBit_lt_two_pow (hm.trans_le (Nat.pow_le_pow_right (by omega) (by omega)))
      rw [hnone] at hbit
      cases hbit

/-- **The CPUs of a mask are listed exactly.** The mask takes four bytes for each group, its
    words fill them, and the list has each CPU once whose bit is set in the number of the
    mask, in ascending order. -/
theorem affected_cpus_exact (h : Mask groups) {content : List Char}
    (hread : readField content = maskText groups) :
    ∃ words cpus, (cpumapLen (readField content)).toNat = 4 * groups.length ∧
      parseCpumap (readField content) (cpumapLen (readField content)) = some words ∧
      words.length = groups.length ∧
      readCpuMap content = some (some (words, cpumapLen (readField content))) ∧
      cpus.Pairwise (· < ·) ∧ (∀ i, i ∈ cpus ↔ (maskNumber groups).testBit i = true) ∧
      ∀ pre, cpulist pre words (cpumapLen (readField content)) =
        some (pre ++ blankSeparated cpus) := by
  have hfew := length_groups_of_readField h hread
  have hlen : (cpumapLen (maskText groups)).toNat = 4 * groups.length :=
    cpumapLen_toNat h (by omega)
  obtain ⟨hsorted, hmem⟩ :=
    filter_range_testBit (maskNumber_lt fun g hg => ofNumeral_group_lt h hg)
  refine ⟨maskWords groups, _, ?_, ?_, ?_, ?_, hsorted, hmem, ?_⟩
  · rw [hread, hlen]
  · rw [hread, parseCpumap_groups h (by omega)]
  · exact length_maskWords groups
  · rw [readCpuMap_groups h hread, hread, cpumapLen_groups h]
  · intro pre
    rw [hread, cpumapLen_groups h]
    exact cpulist_eq h (by omega) pre

/-- The groups `9` and `80000001`: CPUs 0, 31, 32 and 35. -/
theorem affected_cpus_two_groups :
    Mask ["9".toList, "80000001".toList] ∧
      readField "9,80000001\n".toList = maskText ["9".toList, "80000001".toList] ∧
      ∃ words cpus, (cpumapLen (readField "9,80000001\n".toList)).toNat = 4 * 2 ∧
        parseCpumap (readField "9,80000001\n".toList)
          (cpumapLen (readField "9,80000001\n".toList)) = some words ∧
        words.length = 2 ∧
        readCpuMap "9,80000001\n".toList =
          some (some (words, cpumapLen (readField "9,80000001\n".toList))) ∧
        cpus.Pairwise (· < ·) ∧
        (∀ i, i ∈ cpus ↔ (maskNumber ["9".toList, "80000001".toList]).testBit i = true) ∧
        ∀ pre, cpulist pre words (cpumapLen (readField "9,80000001\n".toList)) =
          some (pre ++ blankSeparated cpus) := by
  have hmask : Mask ["9".toList, "80000001".toList] := ⟨by simp, by decide, by decide⟩
  have hread : readField "9,80000001\n".toList = maskText ["9".toList, "80000001".toList] := by
    decide
  exact ⟨hmask, hread, affected_cpus_exact hmask hread⟩

end

end Mcelog.Cache
