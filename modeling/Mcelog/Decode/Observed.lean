import Mcelog.Decode.Record

/-!
# What is observed of the decoders

Bit 12 of the status says that corrected errors are filtered, not what the error is.
`decode_mca` reports and clears it. This module compares the decoders on two records that
differ in this bit only, up to the line that reports it.

* `intelDecodeMca_flipStatus`, `zhaoxinDecodeMca_flipStatus`: `decode_mca` runs the same
  triggers.
* `snbDecodeModel_flipStatus` and its siblings: the decoders of models that do not read the
  bit.
-/

namespace Mcelog.Decode

open Mcelog.Machine

/-! ## What can be observed -/

/-- An event, as it can be told from outside. -/
inductive Observed
  | action (a : Action)
  | runUnknownTrigger (socket cpu : ℤ) (log : Mce)
  | call (f : ModelFunction)
  /-- the table and the text that is printed with it -/
  | bitfield (fields : List Field) (text : String)
  | numfield (fields : List Numfield) (text : String)
  deriving DecidableEq, Repr

/-- The filtering bit of a status. -/
def filteringBit : UInt64 := 0x1000

/-- The line that reports the filtering bit. -/
def filteringLine : Action :=
  .print "corrected filtering (some unreported errors in same region)\n"

/-- The line for the filtering bit is left out, and the record of the trigger for unknown
    errors is taken without the bit. -/
def observe : Event → Option Observed
  | .action a => if a = filteringLine then none else some (.action a)
  | .runUnknownTrigger socket cpu log =>
    some (.runUnknownTrigger socket cpu { log with status := log.status &&& ~~~filteringBit })
  | .call f => some (.call f)
  | .bitfield status fields => some (.bitfield fields (decodeBitfield status fields))
  | .numfield status fields => some (.numfield fields (decodeNumfield status fields))

/-- What is observed of a list of events. -/
def effect (events : List Event) : List Observed := events.filterMap observe

/-- What is observed of a decoder. -/
def DecodeResult.observed (r : DecodeResult) : List Observed × Bool :=
  (effect r.events, r.ismemerr)

@[simp]
theorem effect_nil : effect [] = [] := rfl

@[simp]
theorem effect_append (l l' : List Event) : effect (l ++ l') = effect l ++ effect l' :=
  List.filterMap_append

@[simp]
theorem effect_cons (e : Event) (l : List Event) :
    effect (e :: l) = (observe e).toList ++ effect l := by
  cases h : observe e <;> simp [effect, h]

/-! ## Flipping the bit -/

/-- The record that differs only in the filtering bit. -/
def flipStatus (status : UInt64) : UInt64 := status ^^^ filteringBit

@[inherit_doc flipStatus]
def flipFiltering (m : Mce) : Mce := { m with status := flipStatus m.status }

@[simp]
theorem flipFiltering_status (m : Mce) : (flipFiltering m).status = flipStatus m.status := rfl

@[simp]
theorem flipFiltering_bank (m : Mce) : (flipFiltering m).bank = m.bank := rfl

theorem flipStatus_flipStatus (status : UInt64) : flipStatus (flipStatus status) = status := by
  rw [flipStatus, flipStatus, UInt64.xor_assoc, UInt64.xor_self, UInt64.xor_zero]

theorem flipFiltering_flipFiltering (m : Mce) : flipFiltering (flipFiltering m) = m := by
  simp only [flipFiltering, flipStatus_flipStatus]

theorem xor_and (s t c : UInt64) : (s ^^^ t) &&& c = (s &&& c) ^^^ (t &&& c) := by
  apply UInt64.toNat_inj.mp
  rw [UInt64.toNat_and, UInt64.toNat_xor, UInt64.toNat_xor, UInt64.toNat_and, UInt64.toNat_and,
    Nat.and_xor_distrib_right]

theorem and_flipStatus {c : UInt64} (h : filteringBit &&& c = 0) (status : UInt64) :
    flipStatus status &&& c = status &&& c := by
  rw [flipStatus, xor_and, h, UInt64.xor_zero]

theorem shiftRight_flipStatus {a : UInt64} (h : filteringBit >>> a = 0) (status : UInt64) :
    flipStatus status >>> a = status >>> a := by
  rw [flipStatus, UInt64.shiftRight_xor, h, UInt64.xor_zero]

theorem extract_flipStatus {a b : UInt64} (h : extract filteringBit a b = 0) (status : UInt64) :
    extract (flipStatus status) a b = extract status a b := by
  rw [extract] at h
  rw [extract, flipStatus, UInt64.shiftRight_xor, xor_and, h, UInt64.xor_zero, extract]

theorem observe_bitfield_flipStatus {fields : List Field}
    (h : (fields.all fun f => filteringBit >>> f.startBit = 0) = true) (status : UInt64) :
    observe (.bitfield (flipStatus status) fields) = observe (.bitfield status fields) := by
  have hfields : (fields.all fun f =>
      flipStatus status >>> f.startBit = status >>> f.startBit) = true := by
    refine List.all_eq_true.mpr fun f hf => ?_
    exact decide_eq_true (shiftRight_flipStatus
      (of_decide_eq_true (List.all_eq_true.mp h f hf)) status)
  show some (Observed.bitfield fields _) = some (Observed.bitfield fields _)
  rw [decodeBitfield_congr hfields]

theorem observe_numfield_flipStatus {fields : List Numfield}
    (h : (fields.all fun f => filteringBit >>> f.start = 0) = true) (status : UInt64) :
    observe (.numfield (flipStatus status) fields) = observe (.numfield status fields) := by
  have hfields : (fields.all fun f =>
      flipStatus status >>> f.start = status >>> f.start) = true := by
    refine List.all_eq_true.mpr fun f hf => ?_
    exact decide_eq_true (shiftRight_flipStatus
      (of_decide_eq_true (List.all_eq_true.mp h f hf)) status)
  show some (Observed.numfield fields _) = some (Observed.numfield fields _)
  rw [decodeNumfield_congr hfields]

/-! ## Decoders that do not read the bit -/

/-- The code without the bit is read alike. -/
theorem pcuErrors_flipStatus (status : UInt64) :
    pcuErrors (flipStatus status) = pcuErrors status := by
  have hmask : ∀ s, extract s 0 15 &&& ~~~((1 : UInt64) <<< 12) =
      s &&& (mask 15 &&& ~~~((1 : UInt64) <<< 12)) := by
    intro s
    show s >>> 0 &&& mask 15 &&& ~~~((1 : UInt64) <<< 12) = _
    rw [UInt64.shiftRight_zero, UInt64.and_assoc]
  unfold pcuErrors
  rw [hmask, hmask, and_flipStatus (by decide)]

section Blind

variable (cputype : CpuType) (bank : UInt8) (status misc : UInt64)

theorem snbDecodeModel_flipStatus :
    effect (SandyBridge.snbDecodeModel cputype bank (flipStatus status)) =
      effect (SandyBridge.snbDecodeModel cputype bank status) := by
  unfold SandyBridge.snbDecodeModel
  simp (disch := decide) only [apply_ite effect, effect_cons, observe_bitfield_flipStatus]

theorem ivbDecodeModel_flipStatus :
    effect (IvyBridge.ivbDecodeModel cputype bank (flipStatus status)) =
      effect (IvyBridge.ivbDecodeModel cputype bank status) := by
  unfold IvyBridge.ivbDecodeModel
  simp (disch := decide) only [apply_ite effect, effect_cons, observe_bitfield_flipStatus]

theorem hswDecodeModel_flipStatus :
    effect (Haswell.hswDecodeModel bank (flipStatus status)) =
      effect (Haswell.hswDecodeModel bank status) := by
  unfold Haswell.hswDecodeModel
  simp (disch := decide) only [apply_ite effect, effect_cons, effect_append,
    observe_bitfield_flipStatus, extract_flipStatus, pcuErrors_flipStatus]

theorem bdwDeDecodeModel_flipStatus :
    effect (BroadwellDe.bdwDeDecodeModel bank (flipStatus status)) =
      effect (BroadwellDe.bdwDeDecodeModel bank status) := by
  unfold BroadwellDe.bdwDeDecodeModel
  simp (disch := decide) only [apply_ite effect, effect_cons, effect_append,
    observe_bitfield_flipStatus, extract_flipStatus, pcuErrors_flipStatus]

theorem bdwEpexDecodeModel_flipStatus :
    effect (BroadwellEpex.bdwEpexDecodeModel bank (flipStatus status)) =
      effect (BroadwellEpex.bdwEpexDecodeModel bank status) := by
  unfold BroadwellEpex.bdwEpexDecodeModel
  simp (disch := decide) only [apply_ite effect, effect_cons, effect_append,
    observe_bitfield_flipStatus, extract_flipStatus, pcuErrors_flipStatus]

theorem skylakeSDecodeModel_flipStatus :
    effect (SkylakeXeon.skylakeSDecodeModel bank (flipStatus status)) =
      effect (SkylakeXeon.skylakeSDecodeModel bank status) := by
  unfold SkylakeXeon.skylakeSDecodeModel
  simp (disch := decide) only [apply_ite effect, apply_ite observe, effect_cons, effect_append,
    observe_bitfield_flipStatus, extract_flipStatus, pcuErrors_flipStatus]

theorem denvertonDecodeModel_flipStatus :
    effect (Denverton.denvertonDecodeModel bank (flipStatus status)) =
      effect (Denverton.denvertonDecodeModel bank status) := by
  unfold Denverton.denvertonDecodeModel
  simp (disch := decide) only [apply_ite effect, effect_cons, observe_bitfield_flipStatus]

theorem i10nmDecodeModel_flipStatus :
    effect (I10nm.i10nmDecodeModel cputype bank (flipStatus status) misc) =
      effect (I10nm.i10nmDecodeModel cputype bank status misc) := by
  have hmisc : I10nm.i10nmImcMisc (flipStatus status) misc = I10nm.i10nmImcMisc status misc := by
    unfold I10nm.i10nmImcMisc
    rw [extract_flipStatus (by decide)]
  unfold I10nm.i10nmDecodeModel
  cases I10nm.bankType cputype bank <;>
    simp (disch := decide) only [hmisc, apply_ite effect, effect_cons, effect_append,
      observe_bitfield_flipStatus, extract_flipStatus]

theorem graniteDecodeModel_flipStatus :
    Granite.graniteDecodeModel bank (flipStatus status) misc =
      Granite.graniteDecodeModel bank status misc := by
  have hmisc : Granite.graniteImcMisc (flipStatus status) misc =
      Granite.graniteImcMisc status misc := by
    unfold Granite.graniteImcMisc
    rw [extract_flipStatus (by decide)]
  unfold Granite.graniteDecodeModel
  simp (disch := decide) only [hmisc, extract_flipStatus]

end Blind

section Kh

variable (m : Mce)

theorem kh40000CpuError_flipFiltering :
    effect (Kh40000.decodeCpuError (flipFiltering m)) = effect (Kh40000.decodeCpuError m) := by
  simp (disch := decide) only [Kh40000.decodeCpuError, flipFiltering, apply_ite effect,
    effect_cons, extract_flipStatus, observe_bitfield_flipStatus, observe_numfield_flipStatus]

theorem kh40000SvidError_flipFiltering :
    effect (Kh40000.decodeSvidError (flipFiltering m)) = effect (Kh40000.decodeSvidError m) := by
  simp (disch := decide) only [Kh40000.decodeSvidError, flipFiltering, apply_ite effect,
    effect_cons, effect_append, and_flipStatus, observe_bitfield_flipStatus]

theorem kh40000ZpiError_flipFiltering :
    effect (Kh40000.decodeZpiError (flipFiltering m)) = effect (Kh40000.decodeZpiError m) := by
  simp (disch := decide) only [Kh40000.decodeZpiError, flipFiltering, apply_ite effect,
    effect_cons, effect_append, and_flipStatus, observe_bitfield_flipStatus]

theorem kh40000PcieError_flipFiltering :
    effect (Kh40000.decodePcieError (flipFiltering m)) = effect (Kh40000.decodePcieError m) := by
  simp (disch := decide) only [Kh40000.decodePcieError, flipFiltering, effect_cons,
    observe_bitfield_flipStatus]

theorem kh50000CpuError_flipFiltering :
    effect (Kh50000.decodeCpuError (flipFiltering m)) = effect (Kh50000.decodeCpuError m) := by
  simp (disch := decide) only [Kh50000.decodeCpuError, flipFiltering, effect_cons,
    observe_bitfield_flipStatus, observe_numfield_flipStatus]

theorem kh50000PcieError_flipFiltering :
    effect (Kh50000.decodePcieError (flipFiltering m)) = effect (Kh50000.decodePcieError m) := by
  simp (disch := decide) only [Kh50000.decodePcieError, flipFiltering, effect_cons,
    observe_bitfield_flipStatus]

theorem kh50000ZdiZpiError_flipFiltering :
    effect (Kh50000.decodeZdiZpiError (flipFiltering m)) =
      effect (Kh50000.decodeZdiZpiError m) := by
  simp (disch := decide) only [Kh50000.decodeZdiZpiError, Kh50000.deviceName, flipFiltering,
    apply_ite effect, effect_cons, effect_append, and_flipStatus, observe_bitfield_flipStatus,
    observe_numfield_flipStatus]

theorem kh50000SvidError_flipFiltering :
    effect (Kh50000.decodeSvidError (flipFiltering m)) = effect (Kh50000.decodeSvidError m) := by
  simp (disch := decide) only [Kh50000.decodeSvidError, flipFiltering, apply_ite effect,
    effect_cons, effect_append, and_flipStatus, observe_bitfield_flipStatus]
  rfl

theorem kh50000HifError_flipFiltering :
    effect (Kh50000.decodeHifError (flipFiltering m)) = effect (Kh50000.decodeHifError m) := by
  simp (disch := decide) only [Kh50000.decodeHifError, flipFiltering, effect_cons,
    observe_bitfield_flipStatus]
  rfl

end Kh

/-! ## `decode_mca` -/

theorem decodedMca_eq_toUInt32 (status : UInt64) :
    decodedMca status = (status &&& 0xefff).toUInt32 := by
  rw [decodedMca_eq, clearFiltered, mcaOf, UInt64.toUInt32_and, UInt64.toUInt32_and,
    UInt32.and_assoc]
  rfl

/-- The code that `decode_mca` sees does not depend on the bit. -/
@[simp]
theorem decodedMca_flipStatus (status : UInt64) :
    decodedMca (flipStatus status) = decodedMca status := by
  rw [decodedMca_eq_toUInt32, and_flipStatus (by decide), decodedMca_eq_toUInt32]

/-- The line for the filtering bit is not observed. -/
theorem effect_reportFiltered (mca : UInt32) :
    effect ((reportFiltered mca).1.map .action) = [] := by
  unfold reportFiltered
  split_ifs <;> rfl

theorem decodeBus_flipStatus (mca : UInt32) (socket cpu : ℤ) (getPPStr : ℕ → String)
    (reporter : String) (status misc : UInt64) :
    decodeBus mca socket cpu getPPStr reporter (flipStatus status) misc =
      decodeBus mca socket cpu getPPStr reporter status misc := by
  unfold decodeBus
  rw [and_flipStatus (by decide), and_flipStatus (by decide)]

theorem decodeMemoryError_flipStatus (status : UInt64) :
    decodeMemoryError (flipStatus status) = decodeMemoryError status := by
  unfold decodeMemoryError
  rw [and_flipStatus (by decide), extract_flipStatus (by decide)]

/-- Two results of `decode_mca` that are told apart by the filtering line only. -/
structure McaResult.Same (r r' : McaResult) : Prop where
  effect : effect (r.actions.map .action) = effect (r'.actions.map .action)
  ret : r.ret = r'.ret
  ismemerr : r.ismemerr = r'.ismemerr

theorem intelDecodeMca_flipStatus (cputype : CpuType) (status misc track : UInt64)
    (cpu socket : ℤ) (bank : UInt8) :
    McaResult.Same (intelDecodeMca cputype (flipStatus status) misc track cpu socket bank)
      (intelDecodeMca cputype status misc track cpu socket bank) := by
  have hmca := decodedMca_flipStatus status
  have heff' := effect_reportFiltered (mcaOf (flipStatus status))
  have heff := effect_reportFiltered (mcaOf status)
  unfold decodedMca at hmca
  unfold intelDecodeMca
  simp only [decodeBus_flipStatus]
  revert hmca heff' heff
  generalize reportFiltered (mcaOf (flipStatus status)) = r'
  generalize reportFiltered (mcaOf status) = r
  obtain ⟨start', mca'⟩ := r'
  obtain ⟨start, mca⟩ := r
  rintro rfl heff' heff
  dsimp only at heff heff' ⊢
  split_ifs <;> exact ⟨by simp only [List.map_append, effect_append, heff, heff'], rfl, rfl⟩

theorem zhaoxinDecodeMca_flipStatus (status misc track : UInt64) (socket cpu : ℤ) :
    McaResult.Same (zhaoxinDecodeMca (flipStatus status) misc track socket cpu)
      (zhaoxinDecodeMca status misc track socket cpu) := by
  have hmca := decodedMca_flipStatus status
  have heff' := effect_reportFiltered (mcaOf (flipStatus status))
  have heff := effect_reportFiltered (mcaOf status)
  unfold decodedMca at hmca
  unfold zhaoxinDecodeMca
  simp only [decodeBus_flipStatus, decodeMemoryError_flipStatus]
  revert hmca heff' heff
  generalize reportFiltered (mcaOf (flipStatus status)) = r'
  generalize reportFiltered (mcaOf status) = r
  obtain ⟨start', mca'⟩ := r'
  obtain ⟨start, mca⟩ := r
  rintro rfl heff' heff
  dsimp only at heff heff' ⊢
  split_ifs <;> exact ⟨by simp only [List.map_append, effect_append, heff, heff'], rfl, rfl⟩

/-- The trigger for unknown errors is given the same record, up to the bit. -/
theorem observe_runUnknownTrigger_flipFiltering (m : Mce) (socket cpu : ℤ) :
    observe (.runUnknownTrigger socket cpu (flipFiltering m)) =
      observe (.runUnknownTrigger socket cpu m) := by
  simp only [observe, flipFiltering]
  rw [and_flipStatus (by decide)]

theorem mcaEvents_flipFiltering {r r' : McaResult} (h : McaResult.Same r' r) (socket cpu : ℤ)
    (m : Mce) :
    effect (mcaEvents socket cpu (flipFiltering m) r') = effect (mcaEvents socket cpu m r) := by
  unfold mcaEvents
  simp only [effect_append, apply_ite effect, effect_cons, h.effect, h.ret,
    observe_runUnknownTrigger_flipFiltering]

/-! ## The lines before the decoder of the model -/

theorem intelTrack_flipStatus (status : UInt64) (mcgcap : UInt32) :
    intelTrack (flipStatus status) mcgcap = intelTrack status mcgcap := by
  unfold intelTrack
  rw [and_flipStatus (by decide), shiftRight_flipStatus (by decide)]

theorem zhaoxinTrack_flipStatus (status mcgcap : UInt64) :
    zhaoxinTrack (flipStatus status) mcgcap = zhaoxinTrack status mcgcap := by
  unfold zhaoxinTrack
  rw [and_flipStatus (by decide), shiftRight_flipStatus (by decide)]

theorem checkForMirror_flipStatus (cputype : CpuType) (bank : UInt8) (status misc : UInt64) :
    checkForMirror cputype bank (flipStatus status) misc =
      checkForMirror cputype bank status misc := by
  have hce : ∀ banks fo mc, ceType banks fo mc bank (flipStatus status) misc =
      ceType banks fo mc bank status misc := by
    intro banks fo mc
    unfold ceType
    rw [and_flipStatus (by decide)]
  cases cputype <;> first | rfl | exact hce _ _ _

theorem intelMciLines_flipStatus (cputype : CpuType) (status misc : UInt64) (mcgcap : UInt32)
    (bank : UInt8) :
    intelMciLines cputype (flipStatus status) misc mcgcap bank =
      intelMciLines cputype status misc mcgcap bank := by
  unfold intelMciLines
  simp (disch := decide) only [and_flipStatus, shiftRight_flipStatus, checkForMirror_flipStatus,
    intelTrack_flipStatus]

theorem zhaoxinMciLines_flipStatus (status mcgcap : UInt64) :
    zhaoxinMciLines (flipStatus status) mcgcap = zhaoxinMciLines status mcgcap := by
  unfold zhaoxinMciLines
  simp (disch := decide) only [and_flipStatus, shiftRight_flipStatus, zhaoxinTrack_flipStatus]

end Mcelog.Decode
