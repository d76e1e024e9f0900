import Mcelog.Decode.Observed

/-!
# The corrected filtering bit

`decode_intel_mc` and `decode_zhaoxin_mc` on two records that differ only in the corrected
filtering bit. The decoders of the models read the status again, and some of them compare
the error code with the bit still in it.

* `filtering_bit_iff`: the records for which the bit changes nothing but the line that
  reports it.
-/

namespace Mcelog.Decode

open Mcelog.Machine

/-! ## The code with the bit -/

theorem filtered_eq_testBit (mca : UInt32) : filtered mca = mca.toNat.testBit 12 := by
  have hand : (mca &&& ((1 : UInt32) <<< 12)).toNat = (mca.toNat.testBit 12).toNat * 2 ^ 12 := by
    rw [UInt32.toNat_and]
    exact Nat.and_two_pow _ 12
  have hiff : filtered mca = true ↔ mca.toNat.testBit 12 = true := by
    rw [filtered, bne_iff_ne, ne_eq, ← UInt32.toNat_inj, hand]
    cases mca.toNat.testBit 12 <;> simp
  exact Bool.eq_iff_iff.mpr hiff

theorem mcaOf_toNat (status : UInt64) : (mcaOf status).toNat = status.toNat % 2 ^ 16 := by
  have hand : (status &&& 0xffff).toNat = status.toNat % 2 ^ 16 := by
    rw [UInt64.toNat_and]
    exact Nat.and_two_pow_sub_one_eq_mod _ 16
  rw [mcaOf, UInt64.toNat_toUInt32, hand]
  omega

theorem filtered_mcaOf (status : UInt64) :
    filtered (mcaOf status) = status.toNat.testBit 12 := by
  rw [filtered_eq_testBit, mcaOf_toNat, Nat.testBit_mod_two_pow]
  simp

/-- One of the two records has the bit. -/
theorem filtered_flipStatus (status : UInt64) :
    filtered (mcaOf (flipStatus status)) = !filtered (mcaOf status) := by
  have hbit : filteringBit.toNat.testBit 12 = true := by decide
  rw [filtered_mcaOf, filtered_mcaOf, flipStatus, UInt64.toNat_xor, Nat.testBit_xor, hbit,
    Bool.xor_true]

/-- If one record is without the bit, the other has it. -/
theorem filtered_flipStatus_of_not {status : UInt64} (h : filtered (mcaOf status) = false) :
    filtered (mcaOf (flipStatus status)) = true := by
  rw [filtered_flipStatus, h, Bool.not_false]

/-- Without the bit, the code is the one that `decode_mca` sees. -/
theorem mcaOf_of_not_filtered {status : UInt64} (h : filtered (mcaOf status) = false) :
    mcaOf status = decodedMca status := by
  rw [decodedMca_eq, clearFiltered_of_not_filtered h]

section Filtered

variable {mca : UInt32} (h : filtered mca = true)

include h

/-- A code with the bit is none of the codes below it. -/
theorem ne_of_filtered {c : UInt32} (hc : c.toNat < 4096) : mca ≠ c := by
  rintro rfl
  have := le_of_filtered h
  omega

theorem testPrefix_of_filtered {nr : UInt32} (hnr : nr.toNat < 12) : testPrefix nr mca = false := by
  by_contra hp
  have hlt := ((testPrefix_iff (by omega)).mp (Bool.not_eq_false _ ▸ hp)).2
  have hle := le_of_filtered h
  have hpow : 2 ^ (nr.toNat + 1) ≤ 2 ^ 12 := Nat.pow_le_pow_right (by omega) (by omega)
  omega

end Filtered

/-- `EXTRACT(status, 0, 15)` is the code as well. -/
theorem extract_code_eq_iff (c : UInt32) {status : UInt64} :
    extract status 0 15 = c.toUInt64 ↔ mcaOf status = c := by
  have hextract : extract status 0 15 = (mcaOf status).toUInt64 := by
    apply UInt64.toNat_inj.mp
    rw [UInt32.toNat_toUInt64, mcaOf_toNat, extract, UInt64.shiftRight_zero, UInt64.toNat_and]
    exact Nat.and_two_pow_sub_one_eq_mod _ 16
  rw [hextract, UInt32.toUInt64_inj]

/-- With the bit, `EXTRACT(status, 0, 15)` is none of the codes below it. -/
theorem extract_code_flipStatus_ne {status : UInt64} (h : filtered (mcaOf status) = false)
    {c : UInt32} (hc : c.toNat < 4096) : extract (flipStatus status) 0 15 ≠ c.toUInt64 := by
  rw [ne_eq, extract_code_eq_iff]
  exact ne_of_filtered (filtered_flipStatus_of_not h) hc

/-! ## Decoders that compare the code with the bit -/

/-- The decoders of bus errors are chosen by the code. -/
def busDecoded : CpuType → Bool
  | .p6old | .dunnington | .core2 | .tulsa | .p4 | .nehalem | .xeon75xx => true
  | _ => false

/-- The codes, without the bit, that the decoder of the model compares with. -/
def modelCompares (cputype : CpuType) (m : Mce) : Bool :=
  let mca := decodedMca m.status
  match cputype with
  | .nehalem => testPrefix 11 mca || mca == 1 || testPrefix 7 mca
  | .xeon75xx => mca == 1
  | .dunnington | .tulsa => mca == 0xe0f || mca == 0x400
  | .sapphirerapids | .emeraldrapids =>
    m.bank == 4 && mca == 0x40c && extract m.status 16 19 != 0
  | .diamondrapids => m.bank == 4 && mca == 0x40b
  | _ => false

section Compares

variable {status : UInt64}

theorem nehalemDecodeModel_of_filtered (h : filtered (mcaOf status) = true) (misc : UInt64) :
    nehalemDecodeModel status misc = [] := by
  have h11 : ¬ mcaOf status >>> 11 = 1 := by
    simpa [testPrefix] using testPrefix_of_filtered h (by decide : (11 : UInt32).toNat < 12)
  have h7 : ¬ mcaOf status >>> 7 = 1 := by
    simpa [testPrefix] using testPrefix_of_filtered h (by decide : (7 : UInt32).toNat < 12)
  unfold nehalemDecodeModel
  simp only [h11, ne_of_filtered h (by decide : (1 : UInt32).toNat < 4096), h7, if_false]

theorem nehalemDecodeModel_effect_eq_nil_iff (status misc : UInt64) :
    effect (nehalemDecodeModel status misc) = [] ↔
      (testPrefix 11 (mcaOf status) || mcaOf status == 1 || testPrefix 7 (mcaOf status)) =
        false := by
  unfold nehalemDecodeModel testPrefix
  dsimp only
  split_ifs <;> simp_all [observe]

theorem xeon75xxDecodeModel_of_filtered (h : filtered (mcaOf status) = true) :
    xeon75xxDecodeModel status = [] := by
  unfold xeon75xxDecodeModel
  rw [if_neg (ne_of_filtered h (by decide))]

theorem xeon75xxDecodeModel_effect_eq_nil_iff (status : UInt64) :
    effect (xeon75xxDecodeModel status) = [] ↔ (mcaOf status == 1) = false := by
  unfold xeon75xxDecodeModel
  split_ifs <;> simp_all [observe]

/-- The code of an internal error, as `dunnington.c` and `tulsa.c` write it. -/
theorem internal_code_eq : (1 : UInt32) <<< 10 = 0x400 := rfl

theorem dunningtonDecodeModel_of_filtered (h : filtered (mcaOf status) = true) :
    dunningtonDecodeModel status = [] := by
  unfold dunningtonDecodeModel
  rw [if_neg (ne_of_filtered h (by decide)), if_neg (ne_of_filtered h (by decide))]

theorem dunningtonDecodeModel_effect_eq_nil_iff (status : UInt64) :
    effect (dunningtonDecodeModel status) = [] ↔
      (mcaOf status == 0xe0f || mcaOf status == 0x400) = false := by
  unfold dunningtonDecodeModel dunningtonDecodeBus dunningtonDecodeInternal
  rw [internal_code_eq]
  split_ifs <;> simp_all [observe]

/-- The lines of `tulsa_decode_model` that do not depend on the code (tulsa.c:121-127). -/
def tulsaLines (status misc : UInt64) : List Event :=
  .numfield status corrNumbers ::
    (if status &&& ((1 : UInt64) <<< 52) ≠ 0 then [.numfield status eccNumbers] else []) ++
    if status &&& mciStatusMiscv ≠ 0 then
      [say ("MISC format " ++ hexText ((status >>> 40) &&& 3).toNat ++ " value " ++
        hexText misc.toNat ++ "\n")]
    else []

/-- The branches of `tulsa_decode_model` on the code (tulsa.c:128-132). -/
def tulsaBranch (status : UInt64) : List Event :=
  if mcaOf status = 0xe0f then tulsaDecodeBus status
  else if mcaOf status = (1 : UInt32) <<< 10 then tulsaDecodeInternal status
  else []

theorem tulsaLines_flipStatus (status misc : UInt64) :
    effect (tulsaLines (flipStatus status) misc) = effect (tulsaLines status misc) := by
  unfold tulsaLines
  simp (disch := decide) only [apply_ite effect, effect_cons, effect_append, and_flipStatus,
    shiftRight_flipStatus, observe_numfield_flipStatus]

theorem tulsaBranch_of_filtered (h : filtered (mcaOf status) = true) : tulsaBranch status = [] := by
  unfold tulsaBranch
  rw [if_neg (ne_of_filtered h (by decide)), if_neg (ne_of_filtered h (by decide))]

theorem tulsaBranch_effect_eq_nil_iff (status : UInt64) :
    effect (tulsaBranch status) = [] ↔
      (mcaOf status == 0xe0f || mcaOf status == 0x400) = false := by
  unfold tulsaBranch tulsaDecodeBus tulsaDecodeInternal
  rw [internal_code_eq]
  split_ifs <;> simp_all [observe]

/-- With the bit, only the lines are left of `tulsa_decode_model`. -/
theorem tulsaDecodeModel_flipStatus (h : filtered (mcaOf status) = false) (misc : UInt64) :
    effect (tulsaDecodeModel status misc) =
      effect (tulsaDecodeModel (flipStatus status) misc) ++ effect (tulsaBranch status) := by
  have hflip := filtered_flipStatus_of_not h
  have heq : ∀ s, tulsaDecodeModel s misc = tulsaLines s misc ++ tulsaBranch s := by
    intro s
    simp [tulsaDecodeModel, tulsaLines, tulsaBranch]
  rw [heq, heq, effect_append, effect_append, tulsaLines_flipStatus,
    tulsaBranch_of_filtered hflip, effect_nil, List.append_nil]

theorem sapphireDecodeModel_of_bank_ne {bank : UInt8} (hbank : bank ≠ 4) (status misc : UInt64) :
    effect (Sapphire.sapphireDecodeModel bank (flipStatus status) misc) =
      effect (Sapphire.sapphireDecodeModel bank status misc) := by
  have hmisc : ∀ hbm, Sapphire.sapphireImcMisc hbm (flipStatus status) misc =
      Sapphire.sapphireImcMisc hbm status misc := by
    intro hbm
    unfold Sapphire.sapphireImcMisc
    rw [extract_flipStatus (by decide)]
  have hpcu : Sapphire.bankType bank ≠ .pcu := by
    unfold Sapphire.bankType
    rw [if_neg hbank]
    split_ifs <;> decide
  unfold Sapphire.sapphireDecodeModel Sapphire.decodeM2m Sapphire.decodeImc
  cases hbt : Sapphire.bankType bank
  case pcu => exact absurd hbt hpcu
  all_goals
    simp (disch := decide) only [hmisc, apply_ite effect, effect_cons, effect_append,
      observe_bitfield_flipStatus, extract_flipStatus]

/-- The two tables are told apart as soon as one of them is used. -/
theorem nonzeroBitfield_effect_eq_iff (f : UInt64) :
    effect (nonzeroBitfield f Sapphire.pcu3) = effect (nonzeroBitfield f Sapphire.pcu4) ↔
      f = 0 := by
  have hne : Sapphire.pcu3 ≠ Sapphire.pcu4 := by decide
  unfold nonzeroBitfield
  split_ifs with hf
  · simp [observe, hne, hf]
  · simpa using hf

/-- The PCU bank has one table for the code `0x40C` and one for the others. -/
theorem sapphireDecodeModel_flipStatus_iff (h : filtered (mcaOf status) = false) (bank : UInt8)
    (misc : UInt64) :
    effect (Sapphire.sapphireDecodeModel bank (flipStatus status) misc) =
        effect (Sapphire.sapphireDecodeModel bank status misc) ↔
      (bank == 4 && mcaOf status == 0x40c && extract status 16 19 != 0) = false := by
  by_cases hbank : bank = 4
  · subst hbank
    have hpcu : ∀ s, Sapphire.sapphireDecodeModel 4 s misc =
        say "PCU: " :: nonzeroBitfield (extract s 24 31) Sapphire.pcu1 ++
          nonzeroBitfield (extract s 20 23) Sapphire.pcu2 ++
          nonzeroBitfield (extract s 16 19)
            (if extract s 0 15 ≠ 0x40C then Sapphire.pcu3 else Sapphire.pcu4) := fun _ => rfl
    have hcode : ∀ s, extract s 0 15 = 0x40C ↔ mcaOf s = 0x40c := fun _ =>
      extract_code_eq_iff 0x40c
    have hne : ¬ extract (flipStatus status) 0 15 = 0x40C :=
      extract_code_flipStatus_ne h (c := 0x40c) (by decide)
    rw [hpcu, hpcu, if_pos hne]
    simp (disch := decide) only [extract_flipStatus, effect_append, List.append_cancel_left_eq,
      effect_cons]
    by_cases hc : mcaOf status = 0x40c
    · rw [if_neg (not_not.mpr ((hcode _).mpr hc)), nonzeroBitfield_effect_eq_iff]
      simp [hc]
    · rw [if_pos (mt (hcode _).mp hc)]
      simp [hc]
  · exact iff_of_true (sapphireDecodeModel_of_bank_ne hbank _ _) (by simp [hbank])

/-- Bank 4 has a text of its own for the code `0x40b`, and tables for the others. -/
theorem diamondDecodeModel_flipFiltering_iff {m : Mce} (h : filtered (mcaOf m.status) = false) :
    effect (Diamond.diamondDecodeModel (flipFiltering m)) =
        effect (Diamond.diamondDecodeModel m) ↔
      (m.bank == 4 && mcaOf m.status == 0x40b) = false := by
  have hcode : ∀ s, extract s 0 15 = 0x040b ↔ mcaOf s = 0x40b := fun _ =>
    extract_code_eq_iff 0x40b
  have hne : ¬ extract (flipStatus m.status) 0 15 = 0x040b :=
    extract_code_flipStatus_ne h (c := 0x40b) (by decide)
  have hmisc : Diamond.diamondImcMisc (flipStatus m.status) m.misc =
      Diamond.diamondImcMisc m.status m.misc := by
    unfold Diamond.diamondImcMisc
    rw [extract_flipStatus (by decide)]
  unfold Diamond.diamondDecodeModel
  simp (disch := decide) only [flipFiltering, Diamond.diamondImh, hmisc, extract_flipStatus]
  by_cases hbank : m.bank = 4
  · rw [if_pos hbank, if_pos hbank, if_neg hne]
    by_cases hc : mcaOf m.status = 0x40b
    · rw [if_pos ((hcode _).mpr hc)]
      refine iff_of_false ?_ (by simp [hbank, hc])
      unfold switchBitfield
      split <;> simp [observe, say, filteringLine]
    · rw [if_neg (mt (hcode _).mp hc)]
      simp [hc]
  · simp [hbank]

end Compares

/-! ## Intel -/

/-- The decoders of bus errors can be told from nothing. -/
theorem busModel_effect_eq_nil_iff (cputype : CpuType) (status : UInt64) :
    effect (busModel cputype status) = [] ↔ busDecoded cputype = false := by
  cases cputype <;>
    simp [busModel, busDecoded, p6oldDecodeModel, core2DecodeModel, p4DecodeModel, observe]

section Intel

variable {m : Mce} (hclear : filtered (mcaOf m.status) = false)

include hclear

/-- The decoder of the model is the same for both records unless it compares the code. -/
theorem intelModel_flipFiltering_iff (cputype : CpuType) :
    effect (intelModel cputype (flipFiltering m)) = effect (intelModel cputype m) ↔
      modelCompares cputype m = false := by
  have hflip := filtered_flipStatus_of_not hclear
  have hmca := mcaOf_of_not_filtered hclear
  unfold modelCompares
  rw [← hmca]
  cases cputype with
  | nehalem =>
    show effect (nehalemDecodeModel (flipStatus m.status) m.misc) =
      effect (nehalemDecodeModel m.status m.misc) ↔ _
    rw [nehalemDecodeModel_of_filtered hflip, effect_nil, eq_comm,
      nehalemDecodeModel_effect_eq_nil_iff]
  | xeon75xx =>
    show effect (xeon75xxDecodeModel (flipStatus m.status)) =
      effect (xeon75xxDecodeModel m.status) ↔ _
    rw [xeon75xxDecodeModel_of_filtered hflip, effect_nil, eq_comm,
      xeon75xxDecodeModel_effect_eq_nil_iff]
  | dunnington =>
    show effect (dunningtonDecodeModel (flipStatus m.status)) =
      effect (dunningtonDecodeModel m.status) ↔ _
    rw [dunningtonDecodeModel_of_filtered hflip, effect_nil, eq_comm,
      dunningtonDecodeModel_effect_eq_nil_iff]
  | tulsa =>
    show effect (tulsaDecodeModel (flipStatus m.status) m.misc) =
      effect (tulsaDecodeModel m.status m.misc) ↔ _
    rw [tulsaDecodeModel_flipStatus hclear, List.self_eq_append_right,
      tulsaBranch_effect_eq_nil_iff]
  | sapphirerapids => exact sapphireDecodeModel_flipStatus_iff hclear m.bank m.misc
  | emeraldrapids => exact sapphireDecodeModel_flipStatus_iff hclear m.bank m.misc
  | diamondrapids => exact diamondDecodeModel_flipFiltering_iff hclear
  | sandyBridge => exact iff_of_true (snbDecodeModel_flipStatus _ _ _) rfl
  | sandyBridgeEp => exact iff_of_true (snbDecodeModel_flipStatus _ _ _) rfl
  | ivyBridgeEpex => exact iff_of_true (ivbDecodeModel_flipStatus _ _ _) rfl
  | haswellEpex => exact iff_of_true (hswDecodeModel_flipStatus _ _) rfl
  | broadwellDe => exact iff_of_true (bdwDeDecodeModel_flipStatus _ _) rfl
  | broadwellEpex => exact iff_of_true (bdwEpexDecodeModel_flipStatus _ _) rfl
  | skylakeXeon => exact iff_of_true (skylakeSDecodeModel_flipStatus _ _) rfl
  | icelakeXeon => exact iff_of_true (i10nmDecodeModel_flipStatus _ _ _ _) rfl
  | icelakeDe => exact iff_of_true (i10nmDecodeModel_flipStatus _ _ _ _) rfl
  | tremontD => exact iff_of_true (i10nmDecodeModel_flipStatus _ _ _ _) rfl
  | graniterapids =>
    exact iff_of_true (congrArg effect (graniteDecodeModel_flipStatus _ _ _)) rfl
  | sierraforest =>
    exact iff_of_true (congrArg effect (graniteDecodeModel_flipStatus _ _ _)) rfl
  | clearwaterforest =>
    exact iff_of_true (congrArg effect (graniteDecodeModel_flipStatus _ _ _)) rfl
  | denverton => exact iff_of_true (denvertonDecodeModel_flipStatus _ _) rfl
  | _ => exact iff_of_true rfl rfl

/-- Where bus errors have a decoder of their own, the bit can only take events away from the
    decoder of the model. -/
theorem intelModel_length_le {cputype : CpuType} (hbus : busDecoded cputype = true) :
    (effect (intelModel cputype (flipFiltering m))).length ≤
      (effect (intelModel cputype m)).length := by
  have hflip := filtered_flipStatus_of_not hclear
  cases cputype with
  | nehalem =>
    show (effect (nehalemDecodeModel (flipStatus m.status) m.misc)).length ≤ _
    rw [nehalemDecodeModel_of_filtered hflip]
    exact Nat.zero_le _
  | xeon75xx =>
    show (effect (xeon75xxDecodeModel (flipStatus m.status))).length ≤ _
    rw [xeon75xxDecodeModel_of_filtered hflip]
    exact Nat.zero_le _
  | dunnington =>
    show (effect (dunningtonDecodeModel (flipStatus m.status))).length ≤ _
    rw [dunningtonDecodeModel_of_filtered hflip]
    exact Nat.zero_le _
  | tulsa =>
    show (effect (tulsaDecodeModel (flipStatus m.status) m.misc)).length ≤
      (effect (tulsaDecodeModel m.status m.misc)).length
    rw [tulsaDecodeModel_flipStatus hclear, List.length_append]
    omega
  | p6old => exact le_refl _
  | core2 => exact le_refl _
  | p4 => exact le_refl _
  | _ => simp [busDecoded] at hbus

/-- The decoders behind `decode_mci`: bus errors, then the model. -/
theorem intelTail_flipFiltering_iff (cputype : CpuType) :
    effect (intelModel cputype (flipFiltering m)) =
        effect (if testPrefix 11 (mcaOf m.status) then busModel cputype m.status else []) ++
          effect (intelModel cputype m) ↔
      (busDecoded cputype && testPrefix 11 (mcaOf m.status) || modelCompares cputype m) =
        false := by
  rw [Bool.or_eq_false_iff, ← intelModel_flipFiltering_iff hclear cputype]
  have hbus : effect (if testPrefix 11 (mcaOf m.status) then busModel cputype m.status else []) =
      [] ↔ (busDecoded cputype && testPrefix 11 (mcaOf m.status)) = false := by
    split_ifs with h11
    · rw [busModel_effect_eq_nil_iff, h11, Bool.and_true]
    · simp [h11]
  rw [← hbus]
  constructor
  · intro heq
    cases hdec : busDecoded cputype with
    | false =>
      have hnil := hbus.mpr (by rw [hdec, Bool.false_and])
      rw [hnil, List.nil_append] at heq
      exact ⟨hnil, heq⟩
    | true =>
      -- The first list is not longer than its own end.
      have hle := intelModel_length_le hclear hdec
      rw [heq, List.length_append] at hle
      have hnil : effect
          (if testPrefix 11 (mcaOf m.status) then busModel cputype m.status else []) = [] :=
        List.length_eq_zero_iff.mp (by omega)
      rw [hnil, List.nil_append] at heq
      exact ⟨hnil, heq⟩
  · rintro ⟨hnil, heq⟩
    rw [hnil, heq, List.nil_append]

end Intel

/-- The records for which `decode_intel_mc` depends on the bit. -/
def intelCompares (cputype : CpuType) (m : Mce) : Bool :=
  m.bank != mceThermalBank &&
    (busDecoded cputype && testPrefix 11 (decodedMca m.status) || modelCompares cputype m)

theorem decodeIntelMc_iff_of_not_filtered {m : Mce} (hclear : filtered (mcaOf m.status) = false)
    (cputype : CpuType) (size : ℕ) :
    (decodeIntelMc cputype size (flipFiltering m)).observed =
        (decodeIntelMc cputype size m).observed ↔
      intelCompares cputype m = false := by
  have h11 := testPrefix_of_filtered (filtered_flipStatus_of_not hclear)
    (by decide : (11 : UInt32).toNat < 12)
  have hmca := intelDecodeMca_flipStatus cputype m.status m.misc
    (intelTrack m.status m.mcgcap.toUInt32) (cpuOf m) (socketOf size m) m.bank
  unfold intelCompares decodeIntelMc DecodeResult.observed
  rw [← mcaOf_of_not_filtered hclear]
  by_cases hthermal : m.bank = mceThermalBank
  · have hthermal' : (flipFiltering m).bank = mceThermalBank := hthermal
    have htext : decodeThermal (flipFiltering m).status (cpuOf m) =
        decodeThermal m.status (cpuOf m) := by
      unfold decodeThermal flipFiltering
      rw [and_flipStatus (by decide)]
    refine iff_of_true ?_ (by simp [hthermal])
    simp only [if_pos hthermal, if_pos hthermal', effect_append, effect_cons]
    show (effect (decodeThermal (flipFiltering m).status (cpuOf m)) ++ _, false) = _
    rw [htext, observe_runUnknownTrigger_flipFiltering]
    rfl
  · have hthermal' : ¬ (flipFiltering m).bank = mceThermalBank := hthermal
    have hbank : (m.bank != mceThermalBank) = true := bne_iff_ne.mpr hthermal
    simp only [if_neg hthermal, if_neg hthermal', flipFiltering_status, effect_append, h11]
    rw [hbank, Bool.true_and, ← intelTail_flipFiltering_iff hclear cputype]
    show (effect (decodeMcg m.mcgstatus) ++
        effect (intelMciLines cputype (flipStatus m.status) m.misc m.mcgcap.toUInt32 m.bank) ++
        effect (mcaEvents (socketOf size m) (cpuOf m) (flipFiltering m)
          (intelDecodeMca cputype (flipStatus m.status) m.misc
            (intelTrack (flipStatus m.status) m.mcgcap.toUInt32) (cpuOf m) (socketOf size m)
            m.bank)) ++
        [] ++ effect (intelModel cputype (flipFiltering m)),
      (intelDecodeMca cputype (flipStatus m.status) m.misc
        (intelTrack (flipStatus m.status) m.mcgcap.toUInt32) (cpuOf m) (socketOf size m)
        m.bank).ismemerr) = _ ↔ _
    rw [intelTrack_flipStatus, intelMciLines_flipStatus, mcaEvents_flipFiltering hmca,
      hmca.ismemerr, Prod.mk.injEq, List.append_nil, List.append_assoc _ (effect (ite _ _ _)),
      List.append_cancel_left_eq]
    exact and_iff_left rfl

/-! ## Zhaoxin -/

/-- What the cache threshold trigger of the models asks for besides the code
    (zhaoxin-kh40000.c:183-186, 209-214). -/
def cacheYellow (m : Mce) : Bool :=
  extract m.status 30 31 == 1 && m.mcgcap &&& mcgTesP != 0 && m.status &&& mciStatusUc == 0 &&
    extract m.status 53 54 == 2

/-- The records for which `decode_zhaoxin_mc` depends on the bit: the code `0x1` of the cache
    and memory banks of the models. -/
def zhaoxinCompares (cputype : CpuType) (m : Mce) : Bool :=
  decodedMca m.status == 1 &&
    match cputype with
    | .zhaoxinKh40000 =>
      (m.bank == 1 || m.bank == 0x11) && cacheYellow m || m.bank == 9 || m.bank == 0xA
    | .zhaoxinKh50000 =>
      (m.bank == 1 || m.bank == 0x11) && cacheYellow m ||
        (9 ≤ m.bank && m.bank ≤ 0x10) || (0x12 ≤ m.bank && m.bank ≤ 0x15)
    | _ => false

section Zhaoxin

variable {m : Mce} (hclear : filtered (mcaOf m.status) = false)

include hclear

/-- The trigger for the caches is lost with the bit. -/
theorem khYellow_flipFiltering (level : ℤ) (levelStr : String) :
    khYellow (flipFiltering m) level levelStr = [] := by
  have hcode : extract (flipFiltering m).status 0 15 ≠ 0x1 :=
    extract_code_flipStatus_ne hclear (c := 1) (by decide)
  unfold khYellow
  rw [if_pos (Or.inr (Or.inr (Or.inl hcode)))]

omit hclear in
theorem khYellow_effect_eq_nil_iff (hvalid : extract m.status 30 31 = 0x1) (level : ℤ)
    (levelStr : String) :
    effect (khYellow m level levelStr) = [] ↔ (mcaOf m.status == 1 && cacheYellow m) = false := by
  have hcode : extract m.status 0 15 = 0x1 ↔ mcaOf m.status = 1 := extract_code_eq_iff 1
  have hyes : (mcaOf m.status == 1 && cacheYellow m) = true ↔
      ¬ (m.mcgcap &&& mcgTesP = 0 ∨ m.status &&& mciStatusUc ≠ 0 ∨ extract m.status 0 15 ≠ 0x1 ∨
        extract m.status 53 54 ≠ 0x2) := by
    simp only [ne_eq, hcode, cacheYellow, hvalid, Bool.and_eq_true, beq_iff_eq, bne_iff_ne]
    tauto
  rw [← Bool.not_eq_true, hyes, not_not]
  unfold khYellow
  split_ifs with h
  · exact iff_of_true rfl h
  · exact iff_of_false (by simp [observe, filteringLine]) h

/-- A cache bank whose lines before the trigger do not depend on the bit. -/
theorem append_khYellow_iff (hvalid : extract m.status 30 31 = 0x1) {lines lines' : List Event}
    (hlines : effect lines' = effect lines) (level : ℤ) (levelStr : String) :
    effect (lines' ++ khYellow (flipFiltering m) level levelStr) =
        effect (lines ++ khYellow m level levelStr) ↔
      (mcaOf m.status == 1 && cacheYellow m) = false := by
  rw [effect_append, effect_append, hlines, List.append_cancel_left_eq,
    khYellow_flipFiltering hclear, effect_nil, eq_comm, khYellow_effect_eq_nil_iff hvalid]

/-- The cache banks of a model, which differ only in the lines before the trigger. -/
theorem cacheBanks_iff (hbank : m.bank = 1 ∨ m.bank = 0x11) {pl2 pl2' llc llc' : List Event}
    (hpl2 : effect pl2' = effect pl2) (hllc : effect llc' = effect llc) :
    effect (if extract (flipFiltering m).status 30 31 ≠ 0x1 then []
        else if (flipFiltering m).bank = 1 then pl2' ++ khYellow (flipFiltering m) 2 "Level-2"
        else if (flipFiltering m).bank = 0x11 then llc' ++ khYellow (flipFiltering m) 3 "Level-3"
        else []) =
      effect (if extract m.status 30 31 ≠ 0x1 then []
        else if m.bank = 1 then pl2 ++ khYellow m 2 "Level-2"
        else if m.bank = 0x11 then llc ++ khYellow m 3 "Level-3"
        else []) ↔
      (mcaOf m.status == 1 && cacheYellow m) = false := by
  rw [flipFiltering_status, flipFiltering_bank, extract_flipStatus (by decide)]
  by_cases hvalid : extract m.status 30 31 = 0x1
  · rw [if_neg (not_not.mpr hvalid), if_neg (not_not.mpr hvalid)]
    obtain hone | hllcBank := hbank
    · rw [if_pos hone, if_pos hone]
      exact append_khYellow_iff hclear hvalid hpl2 2 "Level-2"
    · have hone : ¬ m.bank = 1 := by
        rw [hllcBank]
        decide
      rw [if_neg hone, if_neg hone, if_pos hllcBank, if_pos hllcBank]
      exact append_khYellow_iff hclear hvalid hllc 3 "Level-3"
  · rw [if_pos hvalid, if_pos hvalid]
    simp [cacheYellow, hvalid]

theorem kh40000CacheError_iff (hbank : m.bank = 1 ∨ m.bank = 0x11) :
    effect (Kh40000.decodeCacheError (flipFiltering m)) =
        effect (Kh40000.decodeCacheError m) ↔
      (mcaOf m.status == 1 && cacheYellow m) = false := by
  refine cacheBanks_iff hclear hbank ?_ ?_ <;>
    simp (disch := decide) only [flipFiltering_status, effect_cons, observe_bitfield_flipStatus,
      observe_numfield_flipStatus]

theorem kh50000CacheError_iff (hbank : m.bank = 1 ∨ m.bank = 0x11) :
    effect (Kh50000.decodeCacheError (flipFiltering m)) =
        effect (Kh50000.decodeCacheError m) ↔
      (mcaOf m.status == 1 && cacheYellow m) = false := by
  refine cacheBanks_iff hclear hbank ?_ ?_ <;>
    simp (disch := decide) only [flipFiltering_status, effect_cons, observe_bitfield_flipStatus,
      observe_numfield_flipStatus]

/-- "DVAD Error" is lost with the bit. -/
theorem kh40000MemError_iff :
    effect (Kh40000.decodeMemError (flipFiltering m)) = effect (Kh40000.decodeMemError m) ↔
      (mcaOf m.status == 1) = false := by
  have hcode : ∀ s, extract s 0 15 = 0x1 ↔ mcaOf s = 1 := fun _ => extract_code_eq_iff 1
  have hne : ¬ extract (flipStatus m.status) 0 15 = 0x1 :=
    extract_code_flipStatus_ne hclear (c := 1) (by decide)
  unfold Kh40000.decodeMemError
  rw [flipFiltering_status, and_flipStatus (by decide), if_neg hne]
  by_cases hone : mcaOf m.status = 1
  · rw [if_pos ((hcode _).mpr hone)]
    refine iff_of_false ?_ (by simp [hone])
    simp [observe, say, filteringLine]
  · rw [if_neg (mt (hcode _).mp hone)]
    refine iff_of_true ?_ (by simp [hone])
    simp (disch := decide) only [effect_cons, effect_append, apply_ite effect,
      observe_bitfield_flipStatus]
    rfl

omit hclear in
theorem extract_code_flipStatus (status : UInt64) :
    extract (flipStatus status) 0 15 = flipStatus (extract status 0 15) := by
  rw [extract, flipStatus, UInt64.shiftRight_xor, xor_and]
  rfl

/-- The channel and the access do not depend on the bit, but "DVAD Error" does. -/
theorem kh50000MemError_iff :
    effect (Kh50000.decodeMemError (flipFiltering m)) = effect (Kh50000.decodeMemError m) ↔
      (mcaOf m.status == 1) = false := by
  have hcode : ∀ s, extract s 0 15 = 0x1 ↔ mcaOf s = 1 := fun _ => extract_code_eq_iff 1
  have hne : ¬ flipStatus (extract m.status 0 15) = 0x1 := by
    rw [← extract_code_flipStatus]
    exact extract_code_flipStatus_ne hclear (c := 1) (by decide)
  unfold Kh50000.decodeMemError
  rw [flipFiltering_status, and_flipStatus (by decide), extract_code_flipStatus]
  by_cases hone : mcaOf m.status = 1
  · rw [(hcode _).mpr hone]
    refine iff_of_false ?_ (by simp [hone])
    have hset : Kh50000.memErrorCode (flipStatus 0x1) = [] := rfl
    have hone' : Kh50000.memErrorCode 0x1 = [say "DVAD Error, "] := rfl
    rw [hset, hone']
    simp [observe, say, filteringLine]
  · refine iff_of_true ?_ (by simp [hone])
    unfold Kh50000.memErrorCode
    rw [if_neg hne, if_neg (mt (hcode _).mp hone)]
    simp (disch := decide) only [effect_cons, effect_append, apply_ite effect,
      observe_bitfield_flipStatus, and_flipStatus, extract_flipStatus]
    rfl

theorem kh40000DecodeModel_iff :
    effect (Kh40000.kh40000DecodeModel (flipFiltering m)) =
        effect (Kh40000.kh40000DecodeModel m) ↔
      (mcaOf m.status == 1 && ((m.bank == 1 || m.bank == 0x11) && cacheYellow m ||
        m.bank == 9 || m.bank == 0xA)) = false := by
  unfold Kh40000.kh40000DecodeModel
  rw [flipFiltering_bank]
  split_ifs with hcpu hcache hsvid hzpi hpcie hmem
  · exact iff_of_true (kh40000CpuError_flipFiltering m) (by simp [hcpu])
  · rw [kh40000CacheError_iff hclear hcache]
    obtain h | h := hcache <;> simp [h]
  · exact iff_of_true (kh40000SvidError_flipFiltering m) (by simp [hsvid])
  · exact iff_of_true (kh40000ZpiError_flipFiltering m) (by simp [hzpi])
  · exact iff_of_true (kh40000PcieError_flipFiltering m) (by simp [hpcie])
  · rw [kh40000MemError_iff hclear]
    obtain h | h := hmem <;> simp [h]
  · rw [not_or] at hcache hmem
    exact iff_of_true rfl (by simp [hcache, hmem])

theorem kh50000DecodeModel_iff :
    effect (Kh50000.kh50000DecodeModel (flipFiltering m)) =
        effect (Kh50000.kh50000DecodeModel m) ↔
      (mcaOf m.status == 1 && ((m.bank == 1 || m.bank == 0x11) && cacheYellow m ||
        (9 ≤ m.bank && m.bank ≤ 0x10) || (0x12 ≤ m.bank && m.bank ≤ 0x15))) = false := by
  unfold Kh50000.kh50000DecodeModel
  rw [flipFiltering_bank]
  split_ifs with hcpu hcache hpcie hzdi hsvid hmem hhif
  · exact iff_of_true (kh50000CpuError_flipFiltering m) (by simp [hcpu])
  · rw [kh50000CacheError_iff hclear hcache]
    obtain h | h := hcache <;> simp [h]
  · refine iff_of_true (kh50000PcieError_flipFiltering m) ?_
    obtain h | h := hpcie <;> simp [h]
  · refine iff_of_true (kh50000ZdiZpiError_flipFiltering m) ?_
    obtain h | h | h | h := hzdi <;> simp [h]
  · refine iff_of_true (kh50000SvidError_flipFiltering m) ?_
    obtain h | h | h := hsvid <;> simp [h]
  · have hin : (9 ≤ m.bank && m.bank ≤ 0x10 || 0x12 ≤ m.bank && m.bank ≤ 0x15) = true := by
      simpa using hmem
    rw [kh50000MemError_iff hclear, Bool.or_assoc, hin, Bool.or_true, Bool.and_true]
  · have hout : (9 ≤ m.bank && m.bank ≤ 0x10 || 0x12 ≤ m.bank && m.bank ≤ 0x15) = false := by
      simpa using hmem
    rw [not_or] at hcache
    refine iff_of_true (kh50000HifError_flipFiltering m) ?_
    rw [Bool.or_assoc, hout]
    simp [hcache]
  · have hout : (9 ≤ m.bank && m.bank ≤ 0x10 || 0x12 ≤ m.bank && m.bank ≤ 0x15) = false := by
      simpa using hmem
    rw [not_or] at hcache
    refine iff_of_true rfl ?_
    rw [Bool.or_assoc, hout]
    simp [hcache]

theorem zhaoxinModel_flipFiltering_iff (cputype : CpuType) :
    effect (zhaoxinModel cputype (flipFiltering m)) = effect (zhaoxinModel cputype m) ↔
      zhaoxinCompares cputype m = false := by
  unfold zhaoxinCompares
  rw [← mcaOf_of_not_filtered hclear]
  cases cputype with
  | zhaoxinKh40000 => exact kh40000DecodeModel_iff hclear
  | zhaoxinKh50000 => exact kh50000DecodeModel_iff hclear
  | _ => exact iff_of_true rfl (Bool.and_false _)

theorem decodeZhaoxinMc_iff_of_not_filtered (cputype : CpuType) (recordlen : ℕ) :
    (decodeZhaoxinMc cputype recordlen (flipFiltering m)).observed =
        (decodeZhaoxinMc cputype recordlen m).observed ↔
      zhaoxinCompares cputype m = false := by
  have hmca := zhaoxinDecodeMca_flipStatus m.status m.misc (zhaoxinTrack m.status m.mcgcap)
    (socketOf recordlen m) (cpuOf m)
  rw [← zhaoxinModel_flipFiltering_iff hclear cputype]
  unfold decodeZhaoxinMc DecodeResult.observed
  simp only [effect_append]
  show (effect (decodeMcg m.mcgstatus) ++
      effect (zhaoxinMciLines (flipStatus m.status) m.mcgcap) ++
      effect (mcaEvents (socketOf recordlen m) (cpuOf m) (flipFiltering m)
        (zhaoxinDecodeMca (flipStatus m.status) m.misc
          (zhaoxinTrack (flipStatus m.status) m.mcgcap) (socketOf recordlen m) (cpuOf m))) ++
      effect (zhaoxinModel cputype (flipFiltering m)),
    (zhaoxinDecodeMca (flipStatus m.status) m.misc
      (zhaoxinTrack (flipStatus m.status) m.mcgcap) (socketOf recordlen m)
      (cpuOf m)).ismemerr) = _ ↔ _
  rw [zhaoxinTrack_flipStatus, zhaoxinMciLines_flipStatus, mcaEvents_flipFiltering hmca,
    hmca.ismemerr, Prod.mk.injEq, List.append_cancel_left_eq]
  exact and_iff_left rfl

end Zhaoxin

/-! ## Both records -/

theorem intelCompares_flipFiltering (cputype : CpuType) (m : Mce) :
    intelCompares cputype (flipFiltering m) = intelCompares cputype m := by
  simp (disch := decide) only [intelCompares, modelCompares, flipFiltering, decodedMca_flipStatus,
    extract_flipStatus]

theorem zhaoxinCompares_flipFiltering (cputype : CpuType) (m : Mce) :
    zhaoxinCompares cputype (flipFiltering m) = zhaoxinCompares cputype m := by
  simp (disch := decide) only [zhaoxinCompares, cacheYellow, flipFiltering, decodedMca_flipStatus,
    extract_flipStatus, and_flipStatus]
  rfl

/-- **The corrected filtering bit.** For every CPU type and every pair of records that differ
    only in the filtering bit, the decoders run the same triggers with the same arguments, take
    the same branches and print the same lines but the one that reports the bit, if and only if
    the record's code without the bit is none of those that the decoder of the model compares
    with. -/
theorem filtering_bit_iff (cputype : CpuType) (size : ℕ) (m : Mce) :
    ((decodeIntelMc cputype size (flipFiltering m)).observed =
        (decodeIntelMc cputype size m).observed ↔
      intelCompares cputype m = false) ∧
    ((decodeZhaoxinMc cputype size (flipFiltering m)).observed =
        (decodeZhaoxinMc cputype size m).observed ↔
      zhaoxinCompares cputype m = false) := by
  cases hm : filtered (mcaOf m.status) with
  | false =>
    exact ⟨decodeIntelMc_iff_of_not_filtered hm cputype size,
      decodeZhaoxinMc_iff_of_not_filtered hm cputype size⟩
  | true =>
    -- The record without the bit is the flipped one.
    have hflip : filtered (mcaOf (flipFiltering m).status) = false := by
      rw [flipFiltering_status, filtered_flipStatus, hm, Bool.not_true]
    have hintel := decodeIntelMc_iff_of_not_filtered hflip cputype size
    have hzhaoxin := decodeZhaoxinMc_iff_of_not_filtered hflip cputype size
    rw [flipFiltering_flipFiltering, intelCompares_flipFiltering, eq_comm] at hintel
    rw [flipFiltering_flipFiltering, zhaoxinCompares_flipFiltering, eq_comm] at hzhaoxin
    exact ⟨hintel, hzhaoxin⟩

/-- A corrected error of the second level cache of a KH-40000, past its threshold. -/
def khCacheRecord : Mce := { status := 0x0040000040000001, bank := 1, mcgcap := mcgTesP }

/-- A bus error of a Core 2. -/
def core2BusRecord : Mce := { status := 0x0000000000000e0f }

/-- With the filtering bit, the cache threshold trigger is not run, and bus errors are not
    decoded. -/
theorem filtering_bit_misread :
    .action (.runYellowTrigger 0 2 2 "Generic" "Level-2" 0) ∈
        (decodeZhaoxinMc .zhaoxinKh40000 120 khCacheRecord).events ∧
      .action (.runYellowTrigger 0 2 2 "Generic" "Level-2" 0) ∉
        (decodeZhaoxinMc .zhaoxinKh40000 120 (flipFiltering khCacheRecord)).events ∧
      .call .core2DecodeModel ∈ (decodeIntelMc .core2 120 core2BusRecord).events ∧
      .call .core2DecodeModel ∉
        (decodeIntelMc .core2 120 (flipFiltering core2BusRecord)).events := by
  decide

end Mcelog.Decode
