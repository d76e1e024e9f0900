import Mcelog.Decode.Bitfield

/-!
# Ice Lake and Tremont

The tables and the decoder of `i10nm.c`.
-/

namespace Mcelog.Decode.I10nm

open Mcelog.Machine

/-- `pcu_1` (i10nm.c:31-84) -/
def pcu1Str : List (Option String) := strings [
    one 0x0D "MCA_LLC_BIST_ACTIVE_TIMEOUT", one 0x0E "MCA_DMI_TRAINING_TIMEOUT",
    one 0x0F "MCA_DMI_STRAP_SET_ARRIVAL_TIMEOUT", one 0x10 "MCA_DMI_CPU_RESET_ACK_TIMEOUT",
    one 0x11 "MCA_MORE_THAN_ONE_LT_AGENT", one 0x14 "MCA_INCOMPATIBLE_PCH_TYPE",
    one 0x1E "MCA_BIOS_RST_CPL_INVALID_SEQ", one 0x1F "MCA_BIOS_INVALID_PKG_STATE_CONFIG",
    one 0x2D "MCA_PCU_PMAX_CALIB_ERROR", one 0x2E "MCA_TSC100_SYNC_TIMEOUT",
    one 0x3A "MCA_GPSB_TIMEOUT", one 0x3B "MCA_PMSB_TIMEOUT",
    one 0x3E "MCA_IOSFSB_PMREQ_CMP_TIMEOUT", one 0x40 "MCA_SVID_VCCIN_VR_ICC_MAX_FAILURE",
    one 0x42 "MCA_SVID_VCCIN_VR_VOUT_FAILURE", one 0x43 "MCA_SVID_CPU_VR_CAPABILITY_ERROR",
    one 0x44 "MCA_SVID_CRITICAL_VR_FAILED", one 0x45 "MCA_SVID_SA_ITD_ERROR",
    one 0x46 "MCA_SVID_READ_REG_FAILED", one 0x47 "MCA_SVID_WRITE_REG_FAILED",
    one 0x4A "MCA_SVID_PKGC_REQUEST_FAILED", one 0x4B "MCA_SVID_IMON_REQUEST_FAILED",
    one 0x4C "MCA_SVID_ALERT_REQUEST_FAILED", one 0x4D "MCA_SVID_MCP_VR_RAMP_ERROR",
    one 0x56 "MCA_FIVR_PD_HARDERR", one 0x58 "MCA_WATCHDOG_TIMEOUT_PKGC_SECONDARY",
    one 0x59 "MCA_WATCHDOG_TIMEOUT_PKGC_MAIN", one 0x5A "MCA_WATCHDOG_TIMEOUT_PKGS_MAIN",
    one 0x5B "MCA_WATCHDOG_TIMEOUT_MSG_CH_FSM", one 0x5C "MCA_WATCHDOG_TIMEOUT_BULK_CR_FSM",
    one 0x5D "MCA_WATCHDOG_TIMEOUT_IOSFSB_FSM", one 0x60 "MCA_PKGS_SAFE_WP_TIMEOUT",
    one 0x61 "MCA_PKGS_CPD_UNCPD_TIMEOUT", one 0x62 "MCA_PKGS_INVALID_REQ_PCH",
    one 0x63 "MCA_PKGS_INVALID_REQ_INTERNAL", one 0x64 "MCA_PKGS_INVALID_RSP_INTERNAL",
    span 0x65 0x7A "MCA_PKGS_RESET_PREP_TIMEOUT", one 0x7B "MCA_PKGS_SMBUS_VPP_PAUSE_TIMEOUT",
    one 0x7C "MCA_PKGS_SMBUS_MCP_PAUSE_TIMEOUT", one 0x7D "MCA_PKGS_SMBUS_SPD_PAUSE_TIMEOUT",
    one 0x80 "MCA_PKGC_DISP_BUSY_TIMEOUT", one 0x81 "MCA_PKGC_INVALID_RSP_PCH",
    one 0x83 "MCA_PKGC_WATCHDOG_HANG_CBZ_DOWN", one 0x84 "MCA_PKGC_WATCHDOG_HANG_CBZ_UP",
    one 0x87 "MCA_PKGC_WATCHDOG_HANG_C2_BLKMASTER", one 0x88 "MCA_PKGC_WATCHDOG_HANG_C2_PSLIMIT",
    one 0x89 "MCA_PKGC_WATCHDOG_HANG_SETDISP", one 0x8B "MCA_PKGC_ALLOW_L1_ERROR",
    one 0x90 "MCA_RECOVERABLE_DIE_THERMAL_TOO_HOT", one 0xA0 "MCA_ADR_SIGNAL_TIMEOUT",
    one 0xA1 "MCA_BCLK_FREQ_OC_ABOVE_THRESHOLD", one 0xB0 "MCA_DISPATCHER_RUN_BUSY_TIMEOUT"]

/-- `pcu_2` (i10nm.c:86-90) -/
def pcu2Str : List (Option String) := strings [
    one 0x04 "Clock/power IP response timeout", one 0x05 "SMBus controller raised SMI",
    one 0x09 "PM controller received invalid transaction"]

/-- `pcu_3` (i10nm.c:92-100) -/
def pcu3Str : List (Option String) := strings [
    one 0x01 "Instruction address out of valid space",
    one 0x02 "Double bit RAM error on Instruction Fetch", one 0x03 "Invalid OpCode seen",
    one 0x04 "Stack Underflow", one 0x05 "Stack Overflow",
    one 0x06 "Data address out of valid space", one 0x07 "Double bit RAM error on Data Fetch"]

/-- `pcu1` (i10nm.c:102-105) -/
def pcu1 : List Field := [tableField 0 pcu1Str]

/-- `pcu2` (i10nm.c:107-110) -/
def pcu2 : List Field := [tableField 0 pcu2Str]

/-- `pcu3` (i10nm.c:112-115) -/
def pcu3 : List Field := [tableField 0 pcu3Str]

/-- `upi1` (i10nm.c:117-129) -/
def upi1 : List Field := [
    sbitField 22 "Phy Control Error", sbitField 23 "Unexpected Retry.Ack flit",
    sbitField 24 "Unexpected Retry.Req flit", sbitField 25 "RF parity error",
    sbitField 26 "Routeback Table error",
    sbitField 27 "Unexpected Tx Protocol flit (EOP, Header or Data)",
    sbitField 28 "Rx Header-or-Credit BGF credit overflow/underflow",
    sbitField 29 "Link Layer Reset still in progress when Phy enters L0",
    sbitField 30 "Link Layer reset initiated while protocol traffic not idle",
    sbitField 31 "Link Layer Tx Parity Error"]

/-- `upi_2` (i10nm.c:131-149) -/
def upi2Str : List (Option String) := strings [
    one 0x00 "Phy Initialization Failure (NumInit)", one 0x01 "Phy Detected Drift Buffer Alarm",
    one 0x02 "Phy Detected Latency Buffer Rollover",
    one 0x10 "LL Rx detected CRC error: unsuccessful LLR (entered Abort state)",
    one 0x11 "LL Rx Unsupported/Undefined packet", one 0x12 "LL or Phy Control Error",
    one 0x13 "LL Rx Parameter Exception", one 0x1F "LL Detected Control Error",
    one 0x20 "Phy Initialization Abort", one 0x21 "Phy Inband Reset",
    one 0x22 "Phy Lane failure, recovery in x8 width",
    one 0x23 "Phy L0c error corrected without Phy reset",
    one 0x24 "Phy L0c error triggering Phy reset",
    one 0x25 "Phy L0p exit error corrected with reset",
    one 0x30 "LL Rx detected CRC error: successful LLR without Phy Reinit",
    one 0x31 "LL Rx detected CRC error: successful LLR with Phy Reinit", one 0x32 "Tx received LLR"]

/-- `upi2` (i10nm.c:151-154) -/
def upi2 : List Field := [tableField 0 upi2Str]

/-- `m2m` (i10nm.c:156-166) -/
def m2m : List Field := [
    sbitField 16 "MC read data error", sbitField 17 "Reserved",
    sbitField 18 "MC partial write data error", sbitField 19 "Full write data error",
    sbitField 20 "M2M clock-domain-crossing buffer (BGF) error", sbitField 21 "M2M time out",
    sbitField 22 "M2M tracker parity error", sbitField 23 "fatal Bucket1 error"]

/-- `imc_0` (i10nm.c:168-181) -/
def imc0Str : List (Option String) := strings [
    one 0x01 "Address parity error", one 0x02 "Data parity error", one 0x03 "Data ECC error",
    one 0x04 "Data byte enable parity error", one 0x07 "Transaction ID parity error",
    one 0x08 "Corrected patrol scrub error", one 0x10 "Uncorrected patrol scrub error",
    one 0x20 "Corrected spare error", one 0x40 "Uncorrected spare error",
    one 0x80 "Corrected read error", one 0xA0 "Uncorrected read error",
    one 0xC0 "Uncorrected metadata"]

/-- `imc_1` (i10nm.c:183-191) -/
def imc1Str : List (Option String) := strings [
    one 0x00 "WDB read parity error", one 0x03 "RPA parity error",
    one 0x06 "DDR_T_DPPP data BE error", one 0x07 "DDR_T_DPPP data error",
    one 0x08 "DDR link failure", one 0x11 "PCLS CAM error", one 0x12 "PCLS data error"]

/-- `imc_2` (i10nm.c:193-197) -/
def imc2Str : List (Option String) := strings [
    one 0x00 "DDR command / address parity error", one 0x20 "HBM command / address parity error",
    one 0x21 "HBM data parity error"]

/-- `imc_4` (i10nm.c:199-201) -/
def imc4Str : List (Option String) := strings [one 0x00 "RPQ parity (primary) error"]

/-- `imc_8` (i10nm.c:203-250) -/
def imc8Str : List (Option String) := strings [
    one 0x00 "DDR-T bad request", one 0x01 "DDR Data response to an invalid entry",
    one 0x02 "DDR data response to an entry not expecting data",
    one 0x03 "DDR completion to an invalid entry", one 0x04 "DDR-T completion to an invalid entry",
    one 0x05 "DDR data/completion FIFO overflow", one 0x06 "DDR-T ERID correctable parity error",
    one 0x07 "DDR-T ERID uncorrectable error",
    one 0x08 "DDR-T interrupt received while outstanding interrupt was not ACKed",
    one 0x09 "ERID FI FO overflow", one 0x0A "DDR-T error on FNV write credits",
    one 0x0B "DDR-T error on FNV read credits", one 0x0C "DDR-T scheduler error",
    one 0x0D "DDR-T FNV error event", one 0x0E "DDR-T FNV thermal event",
    one 0x0F "CMI packet while idle", one 0x10 "DDR_T_RPQ_REQ_PARITY_ERR",
    one 0x11 "DDR_T_WPQ_REQ_PARITY_ERR", one 0x12 "2LM_NMFILLWR_CAM_ERR",
    one 0x13 "CMI_CREDIT_OVERSUB_ERR", one 0x14 "CMI_CREDIT_TOTAL_ERR",
    one 0x15 "CMI_CREDIT_RSVD_POOL_ERR", one 0x16 "DDR_T_RD_ERROR", one 0x17 "WDB_FIFO_ERR",
    one 0x18 "CMI_REQ_FIFO_OVERFLOW", one 0x19 "CMI_REQ_FIFO_UNDERFLOW",
    one 0x1A "CMI_RSP_FIFO_OVERFLOW", one 0x1B "CMI_RSP_FIFO_UNDERFLOW",
    one 0x1C "CMI _MISC_MC_CRDT_ERRORS", one 0x1D "CMI_MISC_MC_ARB_ERRORS",
    one 0x1E "DDR_T_WR_CMPL_FI FO_OVERFLOW", one 0x1F "DDR_T_WR_CMPL_FI FO_UNDERFLOW",
    one 0x20 "CMI_RD_CPL_FIFO_OVERFLOW", one 0x21 "CMI_RD_CPL_FIFO_UNDERFLOW",
    one 0x22 "TME_KEY_PAR_ERR", one 0x23 "TME_CMI_MISC_ERR", one 0x24 "TME_CMI_OVFL_ERR",
    one 0x25 "TME_CMI_UFL_ERR", one 0x26 "TME_TEM_SECURE_ERR", one 0x27 "TME_UFILL_PAR_ERR",
    one 0x29 "INTERNAL_ERR", one 0x2A "TME_INTEGRITY_ERR", one 0x2B "TME_TDX_ERR",
    one 0x2C "TME_UFILL_TEM_SECURE_ERR", one 0x2D "TME_KEY_POISON_ERR",
    one 0x2E "TME_SECURITY_ENGINE_ERR"]

/-- `imc_10` (i10nm.c:252-259) -/
def imc10Str : List (Option String) := strings [
    one 0x08 "CORR_PATSCRUB_MIRR2ND_ERR", one 0x10 "UC_PATSCRUB_MIRR2ND_ERR",
    one 0x20 "COR_SPARE_MIRR2ND_ERR", one 0x40 "UC_SPARE_MIRR2ND_ERR", one 0x80 "HA_RD_MIRR2ND_ERR",
    one 0xA0 "HA_UNCORR_RD_MIRR2ND_ERR"]

/-- `imc0` (i10nm.c:261-264) -/
def imc0 : List Field := [tableField 0 imc0Str]

/-- `imc1` (i10nm.c:266-269) -/
def imc1 : List Field := [tableField 0 imc1Str]

/-- `imc2` (i10nm.c:271-274) -/
def imc2 : List Field := [tableField 0 imc2Str]

/-- `imc4` (i10nm.c:276-279) -/
def imc4 : List Field := [tableField 0 imc4Str]

/-- `imc8` (i10nm.c:281-284) -/
def imc8 : List Field := [tableField 0 imc8Str]

/-- `imc10` (i10nm.c:286-289) -/
def imc10 : List Field := [tableField 0 imc10Str]

/-- `i10nm_imc_misc` (i10nm.c:291-319) -/
def i10nmImcMisc (status misc : UInt64) : List Event :=
  let column := (extract misc 9 18 <<< 2).toNat
  let row := (extract misc 19 39).toNat
  let bank := (extract misc 42 43).toNat
  let bankgroup := (extract misc 40 41 ||| (extract misc 44 44 <<< 2)).toNat
  let fdevice := (extract misc 46 51).toNat
  let subrank := (extract misc 52 55).toNat
  let rank := (extract misc 56 58).toNat
  let eccmode := extract misc 59 62
  let transient := extract misc 63 63
  [say ("bank: 0x" ++ hexText bank ++ " bankgroup: 0x" ++ hexText bankgroup ++ " row: 0x" ++
    hexText row ++ " column: 0x" ++ hexText column ++ "\n")] ++
  (if transient = 0 ∧ extract status 61 61 = 0 then
    [say ("failed device: 0x" ++ hexText fdevice ++ "\n")]
  else []) ++
  [say ("rank: 0x" ++ hexText rank ++ " subrank: 0x" ++ hexText subrank ++ "\n"),
    say "ecc mode: ",
    say (switchText eccmode
      [(0, "SDDC memory mode\n"), (1, "SDDC\n"), (4, "ADDDC memory mode\n"), (5, "ADDDC\n"),
        (8, "DDRT read\n")] "unknown\n")] ++
  if transient ≠ 0 then [say "transient\n"] else []

/-- `enum banktype` (i10nm.c:321-327) -/
inductive BankType
  | unknown | pcu | upi | m2m | imc
  deriving DecidableEq, Repr

/-- `icelake`, `icelake_de` and `tremont` (i10nm.c:329-354) with the range checks
    (i10nm.c:361-379) -/
def bankType (cputype : CpuType) (bank : UInt8) : BankType :=
  match cputype with
  | .icelakeXeon =>
    if bank = 4 then .pcu
    else if bank = 5 ∨ 7 ≤ bank ∧ bank ≤ 8 then .upi
    else if bank = 12 ∨ bank = 16 ∨ bank = 20 ∨ bank = 24 then .m2m
    else if 13 ≤ bank ∧ bank ≤ 15 ∨ 17 ≤ bank ∧ bank ≤ 19 ∨ 21 ≤ bank ∧ bank ≤ 23 ∨
      25 ≤ bank ∧ bank ≤ 27 then .imc
    else .unknown
  | .icelakeDe =>
    if bank = 4 then .pcu
    else if bank = 12 ∨ bank = 16 then .m2m
    else if 13 ≤ bank ∧ bank ≤ 15 ∨ 17 ≤ bank ∧ bank ≤ 19 then .imc
    else .unknown
  | .tremontD =>
    if bank = 4 then .pcu
    else if bank = 12 then .m2m
    else if 13 ≤ bank ∧ bank ≤ 15 then .imc
    else .unknown
  | _ => .unknown

/-- `i10nm_decode_model` (i10nm.c:356-430) -/
def i10nmDecodeModel (cputype : CpuType) (bank : UInt8) (status misc : UInt64) : List Event :=
  match bankType cputype bank with
  | .unknown => []
  | .pcu =>
    say "PCU: " :: nonzeroBitfield (extract status 24 31) pcu1 ++
      nonzeroBitfield (extract status 20 23) pcu2 ++ nonzeroBitfield (extract status 16 19) pcu3
  | .upi =>
    say "UPI: " :: (if extract status 22 31 ≠ 0 then [.bitfield status upi1] else []) ++
      [.bitfield (extract status 16 21) upi2]
  | .m2m =>
    [say "M2M: ",
      say ("MscodDDRType=0x" ++ hexText (extract status 24 25).toNat ++ "\n"),
      say ("MscodMiscErrs=0x" ++ hexText (extract status 26 31).toNat ++ "\n"),
      .bitfield status m2m]
  | .imc =>
    say "MemCtrl: " ::
      switchBitfield (extract status 24 31) (extract status 16 23)
        [(0, imc0), (1, imc1), (2, imc2), (4, imc4), (8, imc8), (0x10, imc10)] ++
      i10nmImcMisc status misc

/-- A value inside of the mask of `pcu_2` is printed under its own label, as an entry or as a
    number. -/
theorem pcu2_labels :
    bitfieldLabels 9 pcu2 = (ownLabel 0 pcu2Str 9).toList ∧
      bitfieldLabels 12 pcu2 = (ownLabel 0 pcu2Str 12).toList :=
  ⟨(decode_bitfield_label_iff (by decide) 9 0).mpr (by decide),
    (decode_bitfield_label_iff (by decide) 12 0).mpr (by decide)⟩

/-- `imc_4` has one entry, so that its mask keeps a single bit: the register field of eight
    bits with the value 2 is printed as entry 0. -/
theorem imc4_wraps :
    Event.bitfield 2 imc4 ∈ i10nmDecodeModel .icelakeXeon 13 0x04020000 0 ∧
      bitfieldLabels 2 imc4 = [.entry 0 "RPQ parity (primary) error"] ∧
      bitfieldLabels 2 imc4 ≠ (ownLabel 0 imc4Str 2).toList := by
  refine ⟨?_, by decide, by decide⟩
  have hswitch : switchBitfield (extract 0x04020000 24 31) (extract 0x04020000 16 23)
      [(0, imc0), (1, imc1), (2, imc2), (4, imc4), (8, imc8), (0x10, imc10)] =
      [.bitfield 2 imc4] := rfl
  show Event.bitfield 2 imc4 ∈ say "MemCtrl: " :: switchBitfield _ _ _ ++ i10nmImcMisc _ _
  rw [hswitch]
  simp

end Mcelog.Decode.I10nm
