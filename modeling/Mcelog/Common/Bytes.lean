import Mathlib.Data.List.Basic

/-!
# Reading bytes

A region of memory is the list of its bytes. A read is `none` where it leaves the region;
numbers are little-endian.

* `readShort_isSome`, `readWord_isSome`: a number is read where its bytes are in the region.
* `readString`: a C string, up to the NUL that ends it.
-/

namespace Mcelog.Common

variable {t : List UInt8} {k : ℕ}

/-- The 16-bit number at `k`. -/
def readShort (t : List UInt8) (k : ℕ) : Option UInt16 := do
  let low ← t[k]?
  let high ← t[k + 1]?
  return UInt16.ofNat (low.toNat + 256 * high.toNat)

/-- The 32-bit number at `k`. -/
def readWord (t : List UInt8) (k : ℕ) : Option UInt32 := do
  let low ← readShort t k
  let high ← readShort t (k + 2)
  return UInt32.ofNat (low.toNat + 65536 * high.toNat)

/-- The C string at the start of the bytes. -/
def readString (t : List UInt8) : Option (List UInt8) :=
  if 0 ∈ t then some (t.takeWhile (· ≠ 0)) else none

/-- Both halves of a number have to be read. -/
theorem halves_isSome {α β : Type*} {low high : Option α} {f : α → α → β} :
    (low.bind fun a => high.bind fun b => some (f a b)).isSome = true ↔
      low.isSome = true ∧ high.isSome = true := by
  cases low <;> cases high <;> simp

theorem readShort_isSome : (readShort t k).isSome = true ↔ k + 2 ≤ t.length := by
  refine halves_isSome.trans ?_
  rw [isSome_getElem?, isSome_getElem?]
  omega

theorem readWord_isSome : (readWord t k).isSome = true ↔ k + 4 ≤ t.length := by
  refine halves_isSome.trans ?_
  rw [readShort_isSome, readShort_isSome]
  omega

theorem readString_isSome : (readString t).isSome = true ↔ 0 ∈ t := by
  unfold readString
  split <;> simp_all

end Mcelog.Common
