import Mathlib.Algebra.Order.Group.Nat

/-!
# Machine check records

`struct mce` with its layout, the bits of the status registers, and the bit
field helpers of `bitfield.h`.
-/

namespace Mcelog.Machine

/-- `struct mce` (mcelog.h:14-39), without its padding. -/
structure Mce where
  status : UInt64 := 0
  misc : UInt64 := 0
  addr : UInt64 := 0
  mcgstatus : UInt64 := 0
  ip : UInt64 := 0
  tsc : UInt64 := 0
  time : UInt64 := 0
  cpuvendor : UInt8 := 0
  cpuid : UInt32 := 0
  cs : UInt8 := 0
  bank : UInt8 := 0
  cpu : UInt8 := 0
  finished : UInt8 := 0
  extcpu : UInt32 := 0
  socketid : UInt32 := 0
  apicid : UInt32 := 0
  mcgcap : UInt64 := 0
  synd : UInt64 := 0
  ipid : UInt64 := 0
  ppin : UInt64 := 0
  microcode : UInt32 := 0
  kflags : UInt64 := 0
  deriving DecidableEq, Repr

/-! ## Layout -/

/-- `offsetof(struct mce, socketid)` -/
def offsetofSocketid : ℕ := 72

/-- `endof_field(struct mce, socketid)` -/
def endofSocketid : ℕ := 76

/-- `offsetof(struct mce, mcgcap)` -/
def offsetofMcgcap : ℕ := 80

/-! ## Status bits

`MCI_STATUS_*` and `MCG_*` of mcelog.h:67-87, those that the modelled code reads.
 -/

def mciStatusVal : UInt64 := (1 : UInt64) <<< 63
def mciStatusOver : UInt64 := (1 : UInt64) <<< 62
def mciStatusUc : UInt64 := (1 : UInt64) <<< 61
def mciStatusEn : UInt64 := (1 : UInt64) <<< 60
def mciStatusMiscv : UInt64 := (1 : UInt64) <<< 59
def mciStatusAddrv : UInt64 := (1 : UInt64) <<< 58
def mciStatusPcc : UInt64 := (1 : UInt64) <<< 57
def mciStatusS : UInt64 := (1 : UInt64) <<< 56
def mciStatusAr : UInt64 := (1 : UInt64) <<< 55
def mciStatusFwst : UInt64 := (1 : UInt64) <<< 37
def mcgStatusRipv : UInt64 := (1 : UInt64) <<< 0
def mcgStatusEipv : UInt64 := (1 : UInt64) <<< 1
def mcgStatusMcip : UInt64 := (1 : UInt64) <<< 2
def mcgStatusLmces : UInt64 := (1 : UInt64) <<< 3
def mcgCmciP : UInt64 := (1 : UInt64) <<< 10
def mcgTesP : UInt64 := (1 : UInt64) <<< 11
def mcgSerP : UInt64 := (1 : UInt64) <<< 24

/-! ## Bit fields -/

/-- `MASK` (bitfield.h:31) -/
def mask (x : UInt64) : UInt64 := (1 <<< (1 + x)) - 1

/-- `EXTRACT` (bitfield.h:32) -/
def extract (v a b : UInt64) : UInt64 := (v >>> a) &&& mask (b - a)

/-- `test_prefix` (bitfield.h:34-37) -/
def testPrefix (nr value : UInt32) : Bool := value >>> nr == 1

/-- `test_prefix` finds the position of the highest set bit. -/
theorem testPrefix_iff {nr value : UInt32} (hnr : nr.toNat < 32) :
    testPrefix nr value = true ↔
      2 ^ nr.toNat ≤ value.toNat ∧ value.toNat < 2 ^ (nr.toNat + 1) := by
  have hpos : 0 < 2 ^ nr.toNat := Nat.two_pow_pos _
  rw [testPrefix, beq_iff_eq, ← UInt32.toNat_inj, UInt32.toNat_shiftRight,
    Nat.shiftRight_eq_div_pow, Nat.mod_eq_of_lt hnr, Nat.pow_succ]
  show value.toNat / 2 ^ nr.toNat = 1 ↔ _
  rw [Nat.div_eq_iff hpos]
  omega

/-- No value has two prefixes. -/
theorem testPrefix_unique {n m value : UInt32} (hn : n.toNat < 32) (hm : m.toNat < 32)
    (h : testPrefix n value = true) (h' : testPrefix m value = true) : n = m := by
  obtain ⟨hle, hlt⟩ := (testPrefix_iff hn).mp h
  obtain ⟨hle', hlt'⟩ := (testPrefix_iff hm).mp h'
  have h1 : n.toNat < m.toNat + 1 :=
    (Nat.pow_lt_pow_iff_right (by omega)).mp (lt_of_le_of_lt hle hlt')
  have h2 : m.toNat < n.toNat + 1 :=
    (Nat.pow_lt_pow_iff_right (by omega)).mp (lt_of_le_of_lt hle' hlt)
  exact UInt32.toNat_inj.mp (by omega)

end Mcelog.Machine
