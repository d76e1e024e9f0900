import Mcelog.Filter.Model

/-!
# What is a memory error

The filter classifies the MCA error code to account memory errors, the decoder
classifies it to print them.

* `accounted_iff_decoded`: the two agree on a record exactly if it is not a
  filtered memory error on an Intel CPU. `intel_memory_error` compares the code
  with the filtering bit 12 still in it.
-/

namespace Mcelog.Filter

open Mcelog.Bucket Mcelog.Common Mcelog.Decode Mcelog.Machine Mcelog.Memory Mcelog.Page

/-- The vendors whose memory errors are accounted. -/
def AccountingCpu (cputype : CpuType) : Prop :=
  cputype.isIntelCpu = true ∨ cputype.isZhaoxinCpu = true

/-- `*ismemerr` after the `decode_mca` of the CPU's vendor, for any MISC register,
    tracking state, CPU, socket and bank. -/
def decodedAsMemoryError (cputype : CpuType) (status misc track : UInt64) (cpu socket : ℤ)
    (bank : UInt8) : Bool :=
  if cputype.isIntelCpu then (intelDecodeMca cputype status misc track cpu socket bank).ismemerr
  else (zhaoxinDecodeMca status misc track socket cpu).ismemerr

/-- The record is accounted: `memory_error` and `account_page_error` are called. -/
def isAccounted (c : Conf) (cputype : CpuType) (db : Memdb) (m : Mce) (recordlen : ℕ) : Bool :=
  accountCalls c cputype db m recordlen ≠ []

/-- A memory error of an Intel CPU with the corrected filtering bit set. -/
def FilteredIntelMemoryError (cputype : CpuType) (status : UInt64) : Prop :=
  cputype.isIntelCpu = true ∧ filtered (mcaOf status) = true ∧
    testPrefix 7 (clearFiltered (mcaOf status)) = true

theorem intelMemoryError_ne_nil (imcLog : Bool) (cputype : CpuType) (db : Memdb) (m : Mce)
    (recordlen : ℕ) : intelMemoryError imcLog cputype db m recordlen ≠ [] ↔
      testPrefix 7 (mcaOf m.status) = true := by
  rw [intelMemoryError, testPrefix, beq_iff_eq]
  split_ifs with h
  · simp [h]
  · simp [h]

theorem zhaoxinMemoryError_ne_nil (cputype : CpuType) (m : Mce) (recordlen : ℕ) :
    zhaoxinMemoryError cputype m recordlen ≠ [] ↔
      testPrefix 7 (clearFiltered (mcaOf m.status)) = true := by
  rw [zhaoxinMemoryError, testPrefix, beq_iff_eq]
  split_ifs with h
  · simp [h]
  · simp [h]

/-- A code with the filtering bit has no prefix 7. -/
theorem testPrefix_seven_of_filtered {mca : UInt32} (h : filtered mca = true) :
    testPrefix 7 mca = false := by
  have hle := le_of_filtered h
  by_contra hp
  have hrange : 128 ≤ mca.toNat ∧ mca.toNat < 256 :=
    (testPrefix_iff (by decide)).mp (Bool.eq_true_of_not_eq_false hp)
  omega

/-- The filter's test on the code, vendor by vendor. -/
theorem isAccounted_eq {c : Conf} {cputype : CpuType} (hfilter : c.filterBogus = true)
    (hcpu : AccountingCpu cputype) (db : Memdb) (m : Mce) (recordlen : ℕ) :
    isAccounted c cputype db m recordlen =
      if cputype.isIntelCpu then testPrefix 7 (mcaOf m.status)
      else testPrefix 7 (clearFiltered (mcaOf m.status)) := by
  rw [isAccounted, accountCalls, if_neg (by simp [hfilter]), Bool.eq_iff_iff, decide_eq_true_iff]
  by_cases hi : cputype.isIntelCpu = true
  · rw [if_pos hi, if_pos hi]
    exact intelMemoryError_ne_nil _ _ _ _ _
  · have hz := hcpu.resolve_left hi
    have hk8 : cputype ≠ .k8 := by
      rintro rfl
      cases hz
    rw [if_neg hi, if_neg hi, if_neg hk8, if_pos hz]
    exact zhaoxinMemoryError_ne_nil _ _ _

/-- The decoder's test on the code is the same for both vendors. -/
theorem decodedAsMemoryError_eq (cputype : CpuType) (status misc track : UInt64)
    (cpu socket : ℤ) (bank : UInt8) :
    decodedAsMemoryError cputype status misc track cpu socket bank =
      testPrefix 7 (clearFiltered (mcaOf status)) := by
  rw [decodedAsMemoryError, intelDecodeMca_ismemerr, zhaoxinDecodeMca_ismemerr, decodedMca_eq,
    ite_self]

/-- **Exactly when accounting and decoding agree.** For every record, Intel or
    Zhaoxin CPU type and record length, and every state, with filtering enabled:
    the record is accounted iff `decode_mca` sets `*ismemerr`, if and only if it
    is not a memory error with the filtering bit on an Intel CPU. -/
theorem accounted_iff_decoded (c : Conf) (cputype : CpuType) (db : Memdb) (m : Mce)
    (recordlen : ℕ) (track : UInt64) (cpu socket : ℤ) (hfilter : c.filterBogus = true)
    (hcpu : AccountingCpu cputype) :
    (isAccounted c cputype db m recordlen =
        decodedAsMemoryError cputype m.status m.misc track cpu socket m.bank) ↔
      ¬ FilteredIntelMemoryError cputype m.status := by
  rw [isAccounted_eq hfilter hcpu, decodedAsMemoryError_eq, FilteredIntelMemoryError]
  by_cases hi : cputype.isIntelCpu = true
  · rw [if_pos hi]
    cases hf : filtered (mcaOf m.status) with
    | false =>
      rw [clearFiltered_of_not_filtered hf]
      simp
    | true =>
      rw [testPrefix_seven_of_filtered hf]
      simp [hi]
  · rw [if_neg hi]
    simp [hi]

/-- Default settings without any tracking. -/
def plainConf : Conf :=
  let off : BucketConf := { capacity := 0, agetime := 0, tunit := '\x00' }
  { filterBogus := true, filterMemoryErrors := false, imcLog := false
    memdb := { dimms := ⟨off, off, "DIMM"⟩, sockets := ⟨off, off, "Socket"⟩
               memdbEnabled := true, sockdbEnabled := true }
    page := { pageTriggerConf := off, mpReplacementTriggerConf := off, offline := .account
              maxCorrErrCounters := 4158 }
    rb := Rebalance.plain Slot }

/-- A memory read error without the filtering bit. -/
theorem accounted_iff_decoded_read_error :
    isAccounted plainConf .skylakeXeon Memdb.empty { status := 0x90, bank := 13 } 128 =
      decodedAsMemoryError .skylakeXeon 0x90 0 0 0 0 13 :=
  (accounted_iff_decoded plainConf .skylakeXeon Memdb.empty { status := 0x90, bank := 13 } 128 0 0 0
    rfl (Or.inl rfl)).mpr (by rintro ⟨-, hf, -⟩; revert hf; decide)

/-- The same error with the filtering bit is printed as a memory error and not
    accounted. -/
theorem filtered_error_not_accounted :
    isAccounted plainConf .skylakeXeon Memdb.empty { status := 0x1090, bank := 13 } 128 = false ∧
      decodedAsMemoryError .skylakeXeon 0x1090 0 0 0 0 13 = true := by
  decide

end Mcelog.Filter
