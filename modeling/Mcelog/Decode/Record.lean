import Mcelog.Decode.Bridge
import Mcelog.Decode.Core
import Mcelog.Decode.Diamond
import Mcelog.Decode.Granite
import Mcelog.Decode.I10nm
import Mcelog.Decode.Kh
import Mcelog.Decode.Sapphire

/-!
# Decoding a record

Model of `decode_intel_mc` (p4.c) and `decode_zhaoxin_mc` (zhaoxin.c): the lines for the
status registers, `decode_mca`, the trigger for unknown errors, and the decoder of the model.
-/

namespace Mcelog.Decode

open Mcelog.Machine

/-- `if (c) Wprintf(text)` -/
def sayIf (c : Prop) [Decidable c] (text : String) : List Event := if c then [say text] else []

/-- What a decoder does with a record, and whether it sets `*ismemerr`. -/
structure DecodeResult where
  events : List Event
  ismemerr : Bool := false
  deriving DecidableEq, Repr

/-- `size > offsetof(struct mce, socketid) ? (int)log->socketid : -1` -/
def socketOf (size : ℕ) (log : Mce) : ℤ :=
  if size > offsetofSocketid then log.socketid.toInt32.toInt else -1

/-- `decode_mcg` (p4.c:368-380, zhaoxin.c:115-127) -/
def decodeMcg (mcgstatus : UInt64) : List Event :=
  say "MCG status:" ::
    sayIf (mcgstatus &&& mcgStatusRipv ≠ 0) "RIPV " ++
    sayIf (mcgstatus &&& mcgStatusEipv ≠ 0) "EIPV " ++
    sayIf (mcgstatus &&& mcgStatusMcip ≠ 0) "MCIP " ++
    sayIf (mcgstatus &&& mcgStatusLmces ≠ 0) "LMCE " ++
    [say "\n"]

/-- The actions of `decode_mca`, and `run_unknown_trigger` if it asks for it. -/
def mcaEvents (socket cpu : ℤ) (log : Mce) (mca : McaResult) : List Event :=
  mca.actions.map .action ++ if mca.ret then [.runUnknownTrigger socket cpu log] else []

/-! ## Intel -/

/-- `MCE_THERMAL_BANK` (mcelog.h:58-60) -/
def mceThermalBank : UInt8 := 128

/-- `decode_thermal` (p4.c:382-392) -/
def decodeThermal (status : UInt64) (cpu : ℤ) : List Event :=
  if status &&& 1 ≠ 0 then
    [say ("Processor " ++ toString cpu ++
        " heated above trip temperature. Throttling enabled.\n"),
      say "Please check your system cooling. Performance will be impacted\n"]
  else
    [say ("Processor " ++ toString cpu ++ " below trip temperature. Throttling disabled\n")]

/-- `decode_tracking` (p4.c:280-291) -/
def decodeTracking (track : UInt64) : List Event :=
  sayIf (track ≠ 0) ("Threshold based error status: " ++
    ["", "green", "yellow\n" ++
      "Large number of corrected cache errors. System operating, but might lead\n" ++
      "to uncorrected errors soon", "res3"].getD track.toNat "" ++ "\n")

/-- `arstate` (p4.c:293-298) -/
def intelArstate : List String := ["UCNA", "AR", "SRAO", "SRAR"]

/-- `ce_types` (p4.c:300-304) -/
def ceTypes : List String :=
  ["ecc", "mirroring with channel failover", "mirroring. Primary channel scrubbed successfully"]

/-- `i10nm_ce_type` (i10nm.c:432-446) -/
def i10nmCeType : UInt8 → UInt64 → UInt64 → ℕ :=
  ceType [12, 16, 20, 24] ((1 : UInt64) <<< 63) ((1 : UInt64) <<< 62)

/-- `check_for_mirror` (p4.c:306-320) -/
def checkForMirror (cputype : CpuType) (bank : UInt8) (status misc : UInt64) : ℕ :=
  match cputype with
  | .broadwellEpex => BroadwellEpex.bdwEpexCeType bank status misc
  | .skylakeXeon => SkylakeXeon.skylakeSCeType bank status misc
  | .icelakeXeon => i10nmCeType bank status misc
  | _ => 0

/-- `track` of `decode_mci` (p4.c:360-363) -/
def intelTrack (status : UInt64) (mcgcap : UInt32) : UInt64 :=
  if (mcgcap = 0 ∨ mcgcap.toUInt64 &&& mcgTesP ≠ 0) ∧ status &&& mciStatusUc = 0 then
    (status >>> 53) &&& 3
  else 0

/-- The lines that `decode_mci` prints for the status bits (p4.c:327-364) -/
def intelMciLines (cputype : CpuType) (status misc : UInt64) (mcgcap : UInt32) (bank : UInt8) :
    List Event :=
  let i := checkForMirror cputype bank status misc
  say "MCi status:\n" ::
    sayIf (status &&& mciStatusVal = 0) "Machine check not valid\n" ++
    sayIf (status &&& mciStatusOver ≠ 0) "Error overflow\n" ++
    [say (if status &&& mciStatusUc ≠ 0 then "Uncorrected error\n"
      else if i ≠ 0 then "Corrected error by " ++ ceTypes.getD i "" ++ "\n"
      else "Corrected error\n")] ++
    sayIf (status &&& mciStatusEn ≠ 0) "Error enabled\n" ++
    sayIf (status &&& mciStatusMiscv ≠ 0) "MCi_MISC register valid\n" ++
    sayIf (status &&& mciStatusAddrv ≠ 0) "MCi_ADDR register valid\n" ++
    (if status &&& mciStatusPcc ≠ 0 then [say "Processor context corrupt\n"]
    else sayIf (status &&& (mciStatusS ||| mciStatusAr) ≠ 0)
      (intelArstate.getD ((status >>> 55) &&& 3).toNat "" ++ "\n")) ++
    sayIf (mcgcap.toUInt64 &&& mcgSerP ≠ 0 ∧ status &&& mciStatusFwst ≠ 0)
      "Firmware may have updated this error\n" ++
    decodeTracking (intelTrack status mcgcap) ++
    [say "MCA: "]

/-- The decoders of bus errors (p4.c:411-429) -/
def busModel (cputype : CpuType) (status : UInt64) : List Event :=
  match cputype with
  | .p6old => p6oldDecodeModel status
  | .dunnington | .core2 | .nehalem | .xeon75xx => core2DecodeModel status
  | .tulsa | .p4 => p4DecodeModel (status &&& 0xffff0000).toUInt32
  | _ => []

/-- "Model specific addon information" (p4.c:431-483) -/
def intelModel (cputype : CpuType) (log : Mce) : List Event :=
  let bank := log.bank
  let status := log.status
  let misc := log.misc
  match cputype with
  | .nehalem => nehalemDecodeModel status misc
  | .dunnington => dunningtonDecodeModel status
  | .tulsa => tulsaDecodeModel status misc
  | .xeon75xx => xeon75xxDecodeModel status
  | .sandyBridge | .sandyBridgeEp => SandyBridge.snbDecodeModel cputype bank status
  | .ivyBridgeEpex => IvyBridge.ivbDecodeModel cputype bank status
  | .haswellEpex => Haswell.hswDecodeModel bank status
  | .broadwellDe => BroadwellDe.bdwDeDecodeModel bank status
  | .broadwellEpex => BroadwellEpex.bdwEpexDecodeModel bank status
  | .skylakeXeon => SkylakeXeon.skylakeSDecodeModel bank status
  | .icelakeXeon | .icelakeDe | .tremontD => I10nm.i10nmDecodeModel cputype bank status misc
  | .sapphirerapids | .emeraldrapids => Sapphire.sapphireDecodeModel bank status misc
  | .graniterapids | .sierraforest | .clearwaterforest =>
    Granite.graniteDecodeModel bank status misc
  | .diamondrapids => Diamond.diamondDecodeModel log
  | .denverton => Denverton.denvertonDecodeModel bank status
  | _ => []

/-- `decode_intel_mc` (p4.c:394-484) -/
def decodeIntelMc (cputype : CpuType) (size : ℕ) (log : Mce) : DecodeResult :=
  let socket := socketOf size log
  let cpu := cpuOf log
  if log.bank = mceThermalBank then
    { events := decodeThermal log.status cpu ++ [.runUnknownTrigger socket cpu log] }
  else
    let mcgcap := log.mcgcap.toUInt32
    let mca := intelDecodeMca cputype log.status log.misc (intelTrack log.status mcgcap) cpu socket
      log.bank
    { events := decodeMcg log.mcgstatus ++
        intelMciLines cputype log.status log.misc mcgcap log.bank ++
        mcaEvents socket cpu log mca ++
        (if testPrefix 11 (mcaOf log.status) then busModel cputype log.status else []) ++
        intelModel cputype log
      ismemerr := mca.ismemerr }

/-! ## Zhaoxin -/

/-- `arstate` of `decode_mci` (zhaoxin.c:361-366) -/
def zhaoxinArstate : List String :=
  ["Uncorrected No Action Required (UCNA)", "Action Required (AR)",
    "Software Recoverable Action Optional (SRAO)", "Software Recoverable Action Required (SRAR)"]

/-- `track` of `decode_mci` (zhaoxin.c:392-394) -/
def zhaoxinTrack (status mcgcap : UInt64) : UInt64 :=
  if mcgcap &&& mcgTesP ≠ 0 ∧ status &&& mciStatusUc = 0 then (status >>> 53) &&& 3 else 0

/-- The lines that `decode_mci` prints for the status bits (zhaoxin.c:369-400) -/
def zhaoxinMciLines (status mcgcap : UInt64) : List Event :=
  let track := zhaoxinTrack status mcgcap
  say "MCi status:\n" ::
    sayIf (status &&& mciStatusVal = 0) "Machine check not valid\n" ++
    sayIf (status &&& mciStatusOver ≠ 0) "Error overflow\n" ++
    sayIf (status &&& mciStatusEn ≠ 0) "Error enabled\n" ++
    sayIf (status &&& mciStatusMiscv ≠ 0) "MCi_MISC register valid\n" ++
    sayIf (status &&& mciStatusAddrv ≠ 0) "MCi_ADDR register valid\n" ++
    (if status &&& mciStatusUc ≠ 0 then
      say "Uncorrected error\n" ::
        if status &&& mciStatusPcc ≠ 0 then [say "Processor context corrupt\n"]
        else sayIf (status &&& (mciStatusS ||| mciStatusAr) ≠ 0)
          (zhaoxinArstate.getD ((status >>> 55) &&& 3).toNat "" ++ "\n")
    else [say "Corrected error\n"]) ++
    sayIf (track = 1) "Threshold based error status: green\n" ++
    sayIf (track = 2) "Threshold based error status: yellow\n" ++
    [say "MCA: "]

/-- The decoder of the model (zhaoxin.c:413-422) -/
def zhaoxinModel (cputype : CpuType) (m : Mce) : List Event :=
  match cputype with
  | .zhaoxinKh40000 => Kh40000.kh40000DecodeModel m
  | .zhaoxinKh50000 => Kh50000.kh50000DecodeModel m
  | _ => []

/-- `decode_zhaoxin_mc` (zhaoxin.c:404-423) -/
def decodeZhaoxinMc (cputype : CpuType) (recordlen : ℕ) (m : Mce) : DecodeResult :=
  let socket := socketOf recordlen m
  let cpu := cpuOf m
  let mca := zhaoxinDecodeMca m.status m.misc (zhaoxinTrack m.status m.mcgcap) socket cpu
  { events := decodeMcg m.mcgstatus ++ zhaoxinMciLines m.status m.mcgcap ++
      mcaEvents socket cpu m mca ++ zhaoxinModel cputype m
    ismemerr := mca.ismemerr }

end Mcelog.Decode
