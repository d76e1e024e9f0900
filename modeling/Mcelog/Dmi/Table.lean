import Mathlib.Tactic
import Mcelog.Common.Bytes
import Mcelog.Common.Walk

/-!
# The SMBIOS table

`opendmi` copies the table of the firmware to `entries`, `dmi_length` bytes long, and takes
the number of its entries from the firmware as well. An entry is a formatted area, which
starts with type, length and handle, and behind it strings that end in two NULs. A pointer
into the table is an offset here. A read is `none` where it leaves the table.

* `checkEntry`: whether the strings of an entry end within the table, and where.
* `fillHandles`: the entry that each handle stands for.
* `dmiCollect`: the entries of one type.
* `nextEntry`: the end of the strings of an entry, by what it is.
-/

namespace Mcelog.Dmi

open Mcelog.Common

/-- `entries`, up to `dmi_length` -/
abbrev Table := List UInt8

/-- The types of entries that are collected (dmi.h:8-13). -/
inductive DmiType
  | memoryArray
  | memoryDevice
  | memoryArrayAddr
  | memoryMappedAddr
  deriving DecidableEq, Repr

/-- The type as it stands in an entry. -/
def DmiType.code : DmiType → UInt8
  | .memoryArray => 16
  | .memoryDevice => 17
  | .memoryArrayAddr => 19
  | .memoryMappedAddr => 20

/-! ## Fields of an entry -/

/-- `e->type` -/
def typeOf (t : Table) (e : ℕ) : Option UInt8 := t[e]?

/-- `e->length` -/
def lengthOf (t : Table) (e : ℕ) : Option UInt8 := t[e + 1]?

/-- `e->handle` -/
def handleOf (t : Table) (e : ℕ) : Option UInt16 := readShort t (e + 2)

/-- What a print under `if (verbose > level)` reads. -/
def printed {α : Type*} (level verbose : ℤ) (read : Option α) : Option Unit :=
  if level < verbose then read.map fun _ => () else some ()

/-! ## Walking the table -/

/-- The two loops of `check_entry` over the bytes from `s` on (dmi.c:93-109). They end before
    `end`, so that `*next` is never NULL. -/
def skipStrings (verbose : ℤ) : List UInt8 → ℕ → Option (Option ℕ)
  | b :: c :: rest, s =>
    -- `while (s < end-1 && *s)`
    if b ≠ 0 then skipStrings verbose (c :: rest) (s + 1)
    -- `while (*s)`
    else if c ≠ 0 then
      (printed 3 verbose (readString (c :: rest))).bind fun _ =>
        skipStrings verbose (c :: rest) (s + 1)
    else some (some (s + 2))
  -- `s >= end-1`
  | _, _ => some none

/-- `check_entry` (dmi.c:84-111): the entry behind `e`, or none if `e` is truncated. -/
def checkEntry (t : Table) (verbose : ℤ) (e : ℕ) : Option (Option ℕ) := do
  let length ← lengthOf t e
  let s := e + length.toNat
  printed 3 verbose (handleOf t e)
  printed 3 verbose (readString (t.drop s))
  let next ← skipStrings verbose (t.drop s) s
  if next = none then printed 0 verbose (handleOf t e)
  return next

/-- `handle_to_entry`, which has 0xffff slots. A store behind the last one is kept apart. -/
structure HandleMap where
  slot : ℕ → Option ℕ
  overrun : Bool

/-- `sizeof(void *) * 0xffff` bytes -/
def handleSlots : ℕ := 0xffff

/-- What `xalloc` returns. -/
def HandleMap.empty : HandleMap := ⟨fun _ => none, false⟩

/-- `handle_to_entry[handle] = e` -/
def HandleMap.store (m : HandleMap) (handle e : ℕ) : HandleMap :=
  if handle < handleSlots then { m with slot := Function.update m.slot handle (some e) }
  else { m with overrun := true }

/-- The body of the loop of `fill_handles`. -/
def fillHandle (t : Table) (m : HandleMap) (e : ℕ) : Option HandleMap := do
  let handle ← handleOf t e
  return m.store handle.toNat e

/-- `fill_handles` (dmi.c:129-140) -/
def fillHandles (t : Table) (verbose : ℤ) (numentries : ℕ) : Option HandleMap :=
  walk (checkEntry t verbose) (fillHandle t) numentries 0 HandleMap.empty

/-- The body of the loop of `dmi_collect` (dmi.c:511-525). -/
def collectEntry (t : Table) (verbose : ℤ) (type : DmiType) (minsize : ℕ) (r : List ℕ) (e : ℕ) :
    Option (List ℕ) := do
  let found ← typeOf t e
  if found ≠ type.code then return r
  let length ← lengthOf t e
  if length.toNat < minsize then
    printed 0 verbose (handleOf t e)
    return r
  let disabled ←
    if type = .memoryDevice then (readShort t (e + 12)).map (· == 0) else some false
  if disabled then
    printed 0 verbose (handleOf t e)
    return r
  return r ++ [e]

/-- `dmi_collect` (dmi.c:498-529) -/
def dmiCollect (t : Table) (verbose : ℤ) (numentries : ℕ) (type : DmiType) (minsize : ℕ) :
    Option (List ℕ) :=
  walk (checkEntry t verbose) (collectEntry t verbose type minsize) numentries 0 []

/-- The end of the last field that an entry has to have for `collect_dmi_dimms`: its
    `dev_handle`, `device_locator`, `location` or `array_handle` (dmi.c:475-492). -/
def DmiType.minsize : DmiType → ℕ
  | .memoryArray => 5
  | .memoryDevice => 17
  | .memoryArrayAddr => 14
  | .memoryMappedAddr => 14

/-! ## Where an entry ends -/

/-- Two NULs within the table. -/
def DoubleNul (t : Table) (p : ℕ) : Prop := t[p]? = some 0 ∧ t[p + 1]? = some 0

instance (t : Table) (p : ℕ) : Decidable (DoubleNul t p) :=
  inferInstanceAs (Decidable (_ ∧ _))

/-- The first two NULs from `s` on. -/
def stringsEnd (t : Table) (s : ℕ) : Option ℕ :=
  (List.range t.length).find? fun p => s ≤ p ∧ DoubleNul t p

/-- The end of the entry at `e`: its strings start behind its formatted area. -/
def nextEntry (t : Table) (e : ℕ) : Option ℕ := do
  let length ← lengthOf t e
  let p ← stringsEnd t (e + length.toNat)
  return p + 2

section

variable {t : Table} {verbose : ℤ} {e s p : ℕ}

theorem DoubleNul.lt (h : DoubleNul t p) : p + 2 ≤ t.length := by
  have hlt := (List.getElem?_eq_some_iff.mp h.2).1
  omega

/-- The two NULs seen from another place. -/
theorem doubleNul_drop : DoubleNul (t.drop s) p ↔ DoubleNul t (s + p) := by
  rw [DoubleNul, List.getElem?_drop, List.getElem?_drop, ← Nat.add_assoc, DoubleNul]

theorem mem_of_stringsEnd (h : stringsEnd t s = some p) : s ≤ p ∧ DoubleNul t p := by
  have hp := List.find?_some h
  exact of_decide_eq_true hp

theorem stringsEnd_isSome : (stringsEnd t s).isSome = true ↔ ∃ p, s ≤ p ∧ DoubleNul t p := by
  rw [stringsEnd, List.find?_isSome]
  constructor
  · rintro ⟨p, -, hp⟩
    exact ⟨p, of_decide_eq_true hp⟩
  · rintro ⟨p, hs, hnul⟩
    have hlt := hnul.lt
    exact ⟨p, List.mem_range.mpr (by omega), decide_eq_true ⟨hs, hnul⟩⟩

/-- Strings that start with the two NULs. -/
theorem stringsEnd_of_doubleNul (h : DoubleNul t s) : stringsEnd t s = some s := by
  have hlt := h.lt
  rw [stringsEnd, List.find?_range_eq_some]
  refine ⟨decide_eq_true ⟨le_refl s, h⟩, List.mem_range.mpr (by omega), fun q hq => ?_⟩
  have hnot : ¬ s ≤ q := by omega
  simp [hnot]

/-- Any other byte is skipped. -/
theorem stringsEnd_succ (h : ¬ DoubleNul t s) : stringsEnd t s = stringsEnd t (s + 1) := by
  rw [stringsEnd, stringsEnd]
  congr 1
  funext p
  have hiff : s ≤ p ∧ DoubleNul t p ↔ s + 1 ≤ p ∧ DoubleNul t p := by
    refine and_congr_left fun hp => ⟨fun hs => ?_, fun hs => by omega⟩
    rcases Nat.eq_or_lt_of_le hs with rfl | hlt
    · exact absurd hp h
    · exact hlt
  exact decide_eq_decide.mpr hiff

end

end Mcelog.Dmi
