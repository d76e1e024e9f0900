import Mcelog.Common.Layout
import Mcelog.Machine.Mce

/-!
# Records of the kernel

The kernel writes records of its own length. `process` works on a copy in a `struct mce`, with
zeros where the record is shorter, so that the decoders read no byte behind it.

* `Mce.ofBytes`: a `struct mce` in memory.
* `kernel_record_roundtrip`: the copy has the fields of the record as far as the record has
  them.
-/

namespace Mcelog.Machine

open Mcelog.Common

/-- The fields of `struct mce` (mcelog.h:14-39). -/
def mceFields : List (LayoutField Mce) :=
  [ ⟨0, 8, fun m => m.status.toNat⟩,
    ⟨8, 8, fun m => m.misc.toNat⟩,
    ⟨16, 8, fun m => m.addr.toNat⟩,
    ⟨24, 8, fun m => m.mcgstatus.toNat⟩,
    ⟨32, 8, fun m => m.ip.toNat⟩,
    ⟨40, 8, fun m => m.tsc.toNat⟩,
    ⟨48, 8, fun m => m.time.toNat⟩,
    ⟨56, 1, fun m => m.cpuvendor.toNat⟩,
    ⟨60, 4, fun m => m.cpuid.toNat⟩,
    ⟨64, 1, fun m => m.cs.toNat⟩,
    ⟨65, 1, fun m => m.bank.toNat⟩,
    ⟨66, 1, fun m => m.cpu.toNat⟩,
    ⟨67, 1, fun m => m.finished.toNat⟩,
    ⟨68, 4, fun m => m.extcpu.toNat⟩,
    ⟨72, 4, fun m => m.socketid.toNat⟩,
    ⟨76, 4, fun m => m.apicid.toNat⟩,
    ⟨80, 8, fun m => m.mcgcap.toNat⟩,
    ⟨88, 8, fun m => m.synd.toNat⟩,
    ⟨96, 8, fun m => m.ipid.toNat⟩,
    ⟨104, 8, fun m => m.ppin.toNat⟩,
    ⟨112, 4, fun m => m.microcode.toNat⟩,
    ⟨120, 8, fun m => m.kflags.toNat⟩ ]

/-- The padding of `struct mce`: `pad1`, `pad2`, and the bytes before `kflags`. -/
def mcePadding : List (LayoutField Mce) :=
  [⟨57, 1, fun _ => 0⟩, ⟨58, 2, fun _ => 0⟩, ⟨116, 4, fun _ => 0⟩]

/-- All bytes of a `struct mce`. -/
def mceLayout : List (LayoutField Mce) :=
  mceFields.take 8 ++ (mcePadding.take 2 ++ ((mceFields.drop 8).take 13 ++
    (mcePadding.drop 2 ++ mceFields.drop 21)))

/-- A `struct mce` in memory. -/
def Mce.ofBytes (bytes : List UInt8) : Mce where
  status := .ofNat (fieldAt bytes 0 8)
  misc := .ofNat (fieldAt bytes 8 8)
  addr := .ofNat (fieldAt bytes 16 8)
  mcgstatus := .ofNat (fieldAt bytes 24 8)
  ip := .ofNat (fieldAt bytes 32 8)
  tsc := .ofNat (fieldAt bytes 40 8)
  time := .ofNat (fieldAt bytes 48 8)
  cpuvendor := .ofNat (fieldAt bytes 56 1)
  cpuid := .ofNat (fieldAt bytes 60 4)
  cs := .ofNat (fieldAt bytes 64 1)
  bank := .ofNat (fieldAt bytes 65 1)
  cpu := .ofNat (fieldAt bytes 66 1)
  finished := .ofNat (fieldAt bytes 67 1)
  extcpu := .ofNat (fieldAt bytes 68 4)
  socketid := .ofNat (fieldAt bytes 72 4)
  apicid := .ofNat (fieldAt bytes 76 4)
  mcgcap := .ofNat (fieldAt bytes 80 8)
  synd := .ofNat (fieldAt bytes 88 8)
  ipid := .ofNat (fieldAt bytes 96 8)
  ppin := .ofNat (fieldAt bytes 104 8)
  microcode := .ofNat (fieldAt bytes 112 4)
  kflags := .ofNat (fieldAt bytes 120 8)

/-- `memset(&m, 0, sizeof(struct mce))` and `memcpy` of the record, as far as it fits
    (mcelog.c:1262-1264). -/
def zeroPadded (record : List UInt8) : List UInt8 :=
  record.take 128 ++ List.replicate (128 - (record.take 128).length) 0

/-- The record of the kernel, with `recordlen` bytes. A kernel that knows more than `struct mce`
    puts `more` behind it. -/
def kernelRecord (recordlen : ℕ) (m : Mce) (more : List UInt8) : List UInt8 :=
  (encode mceLayout m ++ more).take recordlen

theorem contiguous_mceLayout : Contiguous 0 mceLayout := by
  repeat' first | exact trivial | refine ⟨rfl, ?_⟩

theorem length_encode_mceLayout (m : Mce) : (encode mceLayout m).length = 128 := by
  rw [length_encode]
  rfl

theorem mem_mceLayout {f : LayoutField Mce} (hf : f ∈ mceFields) : f ∈ mceLayout := by
  have hsplit : mceFields = mceFields.take 8 ++ ((mceFields.drop 8).take 13 ++ mceFields.drop 21) :=
    rfl
  rw [hsplit] at hf
  simp only [mceLayout, List.mem_append] at hf ⊢
  tauto

/-- The fields of a `struct mce` are its bytes. -/
theorem Mce.get_ofBytes (bytes : List UInt8) {f : LayoutField Mce} (hf : f ∈ mceFields) :
    f.get (Mce.ofBytes bytes) = fieldAt bytes f.off f.width := by
  have h8 : ∀ off, (UInt64.ofNat (fieldAt bytes off 8)).toNat = fieldAt bytes off 8 := fun off =>
    UInt64.toNat_ofNat_of_lt (fieldAt_lt bytes off 8)
  have h4 : ∀ off, (UInt32.ofNat (fieldAt bytes off 4)).toNat = fieldAt bytes off 4 := fun off =>
    UInt32.toNat_ofNat_of_lt (fieldAt_lt bytes off 4)
  have h1 : ∀ off, (UInt8.ofNat (fieldAt bytes off 1)).toNat = fieldAt bytes off 1 := fun off =>
    UInt8.toNat_ofNat_of_lt (fieldAt_lt bytes off 1)
  simp only [mceFields, List.mem_cons, List.not_mem_nil, or_false] at hf
  rcases hf with rfl | rfl | rfl | rfl | rfl | rfl | rfl | rfl | rfl | rfl | rfl | rfl | rfl | rfl |
    rfl | rfl | rfl | rfl | rfl | rfl | rfl | rfl <;>
  first | exact h8 _ | exact h4 _ | exact h1 _

/-- **The copy of a record.** Whatever the length of the kernel's records and whatever it puts
    behind the fields that are known, each field of the copy has the bytes of the field that are
    in the record: all of them, the lowest ones, or none, where it is 0. -/
theorem kernel_record_roundtrip (recordlen : ℕ) (m : Mce) (more : List UInt8) :
    ∀ f ∈ mceFields, f.get (Mce.ofBytes (zeroPadded (kernelRecord recordlen m more))) =
      f.get m % 256 ^ min (recordlen - f.off) f.width := by
  intro f hf
  have hin : f.off + f.width ≤ 128 := by
    have hall : ∀ f ∈ mceFields, f.off + f.width ≤ 128 := by
      simp [mceFields]
    exact hall f hf
  have htake : (kernelRecord recordlen m more).take 128 =
      (encode mceLayout m).take (min 128 recordlen) := by
    rw [kernelRecord, List.take_take, List.take_append_of_le_length]
    rw [length_encode_mceLayout]
    exact min_le_left ..
  have hread := fieldAt_encode contiguous_mceLayout (mem_mceLayout hf) m (min 128 recordlen)
  rw [Nat.sub_zero] at hread
  rw [Mce.get_ofBytes _ hf, zeroPadded, fieldAt_append_zeros, htake, hread]
  congr 2
  omega

/-- A kernel whose records end after four bytes gives the lower half of the status. -/
theorem kernel_record_roundtrip_short :
    (Mce.ofBytes (zeroPadded (kernelRecord 4 { status := 0x9c00000000000151 } []))).status.toNat =
      0x151 :=
  kernel_record_roundtrip 4 { status := 0x9c00000000000151 } [] ⟨0, 8, fun m => m.status.toNat⟩
    List.mem_cons_self

end Mcelog.Machine
