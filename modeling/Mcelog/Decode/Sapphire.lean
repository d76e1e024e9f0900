import Mcelog.Decode.Bitfield

/-!
# Sapphire Rapids and Emerald Rapids

The tables and the decoder of `sapphire.c`.
-/

namespace Mcelog.Decode.Sapphire

open Mcelog.Machine

/-- `pcu_1` (sapphire.c:26-80) -/
def pcu1Str : List (Option String) := strings [
    one 0x0D "MCA_LLC_BIST_ACTIVE_TIMEOUT", one 0x0E "MCA_DMI_TRAINING_TIMEOUT",
    one 0x0F "MCA_DMI_STRAP_SET_ARRIVAL_TIMEOUT", one 0x10 "MCA_DMI_CPU_RESET_ACK_TIMEOUT",
    one 0x11 "MCA_MORE_THAN_ONE_LT_AGENT", one 0x14 "MCA_INCOMPATIBLE_PCH_TYPE",
    one 0x1E "MCA_BIOS_RST_CPL_INVALID_SEQ", one 0x1F "MCA_BIOS_INVALID_PKG_STATE_CONFIG",
    one 0x2D "MCA_PCU_PMAX_CALIB_ERROR", one 0x2E "MCA_TSC100_SYNC_TIMEOUT",
    one 0x3A "MCA_GPSB_TIMEOUT", one 0x3B "MCA_PMSB_TIMEOUT",
    one 0x3E "MCA_IOSFSB_PMREQ_CMP_TIMEOUT", one 0x40 "MCA_SVID_VCCIN_VR_ICC_MAX_FAILURE",
    one 0x42 "MCA_SVID_VCCIN_VR_VOUT_FAILURE", one 0x43 "MCA_SVID_CPU_VR_CAPABILITY_ERROR",
    one 0x44 "MCA_SVID_CRITICAL_VR_FAILED", one 0x45 "MCA_SVID_SA_ITD_ERROR",
    one 0x46 "MCA_SVID_READ_REG_FAILED", one 0x47 "MCA_SVID_WRITE_REG_FAILED",
    one 0x4A "MCA_SVID_PKGC_REQUEST_FAILED", one 0x4B "MCA_SVID_IMON_REQUEST_FAILED",
    one 0x4C "MCA_SVID_ALERT_REQUEST_FAILED", one 0x4D "MCA_SVID_MCP_VR_RAMP_ERROR",
    one 0x56 "MCA_FIVR_PD_HARDERR", one 0x58 "MCA_WATCHDOG_TIMEOUT_PKGC_SECONDARY",
    one 0x59 "MCA_WATCHDOG_TIMEOUT_PKGC_MAIN", one 0x5A "MCA_WATCHDOG_TIMEOUT_PKGS_MAIN",
    one 0x5B "MCA_WATCHDOG_TIMEOUT_MSG_CH_FSM", one 0x5C "MCA_WATCHDOG_TIMEOUT_BULK_CR_FSM",
    one 0x5D "MCA_WATCHDOG_TIMEOUT_IOSFSB_FSM", one 0x60 "MCA_PKGS_SAFE_WP_TIMEOUT",
    one 0x61 "MCA_PKGS_CPD_UNCPD_TIMEOUT", one 0x62 "MCA_PKGS_INVALID_REQ_PCH",
    one 0x63 "MCA_PKGS_INVALID_REQ_INTERNAL", one 0x64 "MCA_PKGS_INVALID_RSP_INTERNAL",
    span 0x65 0x7A "MCA_PKGS_RESET_PREP_TIMEOUT", one 0x7B "MCA_PKGS_SMBUS_VPP_PAUSE_TIMEOUT",
    one 0x7C "MCA_PKGS_SMBUS_MCP_PAUSE_TIMEOUT", one 0x7D "MCA_PKGS_SMBUS_SPD_PAUSE_TIMEOUT",
    one 0x80 "MCA_PKGC_DISP_BUSY_TIMEOUT", one 0x81 "MCA_PKGC_INVALID_RSP_PCH",
    one 0x83 "MCA_PKGC_WATCHDOG_HANG_CBZ_DOWN", one 0x84 "MCA_PKGC_WATCHDOG_HANG_CBZ_UP",
    one 0x87 "MCA_PKGC_WATCHDOG_HANG_C2_BLKMASTER", one 0x88 "MCA_PKGC_WATCHDOG_HANG_C2_PSLIMIT",
    one 0x89 "MCA_PKGC_WATCHDOG_HANG_SETDISP", one 0x8B "MCA_PKGC_ALLOW_L1_ERROR",
    one 0x90 "MCA_RECOVERABLE_DIE_THERMAL_TOO_HOT", one 0xA0 "MCA_ADR_SIGNAL_TIMEOUT",
    one 0xA1 "MCA_BCLK_FREQ_OC_ABOVE_THRESHOLD", one 0xB0 "MCA_DISPATCHER_RUN_BUSY_TIMEOUT",
    one 0xC0 "MCA_DISPATCHER_RUN_BUSY_TIMEOUT"]

/-- `pcu_2` (sapphire.c:82-86) -/
def pcu2Str : List (Option String) := strings [
    one 0x04 "Clock/power IP response timeout", one 0x05 "SMBus controller raised SMI",
    one 0x09 "PM controller received invalid transaction"]

/-- `pcu_3` (sapphire.c:88-96) -/
def pcu3Str : List (Option String) := strings [
    one 0x01 "Instruction address out of valid space",
    one 0x02 "Double bit RAM error on Instruction Fetch", one 0x03 "Invalid OpCode seen",
    one 0x04 "Stack Underflow", one 0x05 "Stack Overflow",
    one 0x06 "Data address out of valid space", one 0x07 "Double bit RAM error on Data Fetch"]

/-- `pcu_4` (sapphire.c:98-108) -/
def pcu4Str : List (Option String) := strings [
    one 0x01 "MCE when CR4.MCE is clear", one 0x02 "MCE when MCIP bit is set",
    one 0x03 "MCE under WPS", one 0x04 "Unrecoverable error during security flow execution",
    one 0x05 "SW triple fault shutdown", one 0x06 "VMX exit consistency check failures",
    one 0x07 "RSM consistency check failures",
    one 0x08 "Invalid conditions on protected mode SMM entry",
    one 0x09 "Unrecoverable error during security flow execution"]

/-- `pcu1` (sapphire.c:110-113) -/
def pcu1 : List Field := [tableField 0 pcu1Str]

/-- `pcu2` (sapphire.c:115-118) -/
def pcu2 : List Field := [tableField 0 pcu2Str]

/-- `pcu3` (sapphire.c:120-123) -/
def pcu3 : List Field := [tableField 0 pcu3Str]

/-- `pcu4` (sapphire.c:125-128) -/
def pcu4 : List Field := [tableField 0 pcu4Str]

/-- `upi1` (sapphire.c:130-142) -/
def upi1 : List Field := [
    sbitField 22 "Phy Control Error", sbitField 23 "Unexpected Retry.Ack flit",
    sbitField 24 "Unexpected Retry.Req flit", sbitField 25 "RF parity error",
    sbitField 26 "Routeback Table error",
    sbitField 27 "Unexpected Tx Protocol flit (EOP, Header or Data)",
    sbitField 28 "Rx Header-or-Credit BGF credit overflow/underflow",
    sbitField 29 "Link Layer Reset still in progress when Phy enters L0",
    sbitField 30 "Link Layer reset initiated while protocol traffic not idle",
    sbitField 31 "Link Layer Tx Parity Error"]

/-- `upi_2` (sapphire.c:144-162) -/
def upi2Str : List (Option String) := strings [
    one 0x00 "Phy Initialization Failure", one 0x01 "Phy Detected Drift Buffer Alarm",
    one 0x02 "Phy Detected Latency Buffer Rollover",
    one 0x10 "LL Rx detected CRC error: unsuccessful LLR (entered Abort state)",
    one 0x11 "LL Rx Unsupported/Undefined packet", one 0x12 "LL or Phy Control Error",
    one 0x13 "LL Rx Parameter Exception", one 0x15 "UC LL Rx SGX MAC Error",
    one 0x1F "LL Detected Control Error", one 0x20 "Phy Initialization Abort",
    one 0x21 "Phy Inband Reset", one 0x22 "Phy Lane failure, recovery in x8 width",
    one 0x23 "Phy L0c error corrected without Phy reset",
    one 0x24 "Phy L0c error triggering Phy reset",
    one 0x25 "Phy L0p exit error corrected with reset",
    one 0x30 "LL Rx detected CRC error: successful LLR without Phy Reinit",
    one 0x31 "LL Rx detected CRC error: successful LLR with Phy Reinit"]

/-- `upi2` (sapphire.c:164-167) -/
def upi2 : List Field := [tableField 0 upi2Str]

/-- `m2m_0` (sapphire.c:169-180) -/
def m2m0Str : List (Option String) := strings [
    one 0x01 "Read ECC error", one 0x02 "Bucket1 error", one 0x03 "RdTrkr Parity error",
    one 0x05 "Prefetch channel mismatch", one 0x07 "Read completion parity error",
    one 0x08 "Response parity error", one 0x09 "Timeout error",
    one 0x0A "CMI reserved credit pool error", one 0x0B "CMI total credit count error",
    one 0x0C "CMI credit oversubscription error"]

/-- `m2m` (sapphire.c:182-185) -/
def m2m : List Field := [tableField 0 m2m0Str]

/-- `imc_0` (sapphire.c:187-200) -/
def imc0Str : List (Option String) := strings [
    one 0x01 "Address parity error", one 0x02 "Data parity error", one 0x03 "Data ECC error",
    one 0x04 "Data byte enable parity error", one 0x07 "Transaction ID parity error",
    one 0x08 "Corrected patrol scrub error", one 0x10 "Uncorrected patrol scrub error",
    one 0x20 "Corrected spare error", one 0x40 "Uncorrected spare error",
    one 0x80 "Corrected read error", one 0xA0 "Uncorrected read error",
    one 0xC0 "Uncorrected metadata"]

/-- `imc_1` (sapphire.c:202-205) -/
def imc1Str : List (Option String) := strings [
    one 0x00 "WDB read parity error", one 0x08 "DDR link failure"]

/-- `imc_2` (sapphire.c:207-209) -/
def imc2Str : List (Option String) := strings [one 0x00 "DDR5 command / address parity error"]

/-- `imc_4` (sapphire.c:211-213) -/
def imc4Str : List (Option String) := strings [one 0x00 "RPQ parity (primary) error"]

/-- `imc_8` (sapphire.c:215-262) -/
def imc8Str : List (Option String) := strings [
    one 0x00 "DDR-T bad request", one 0x01 "DDR Data response to an invalid entry",
    one 0x02 "DDR data response to an entry not expecting data",
    one 0x03 "DDR completion to an invalid entry", one 0x04 "DDR-T completion to an invalid entry",
    one 0x05 "DDR data/completion FIFO overflow", one 0x06 "DDR-T ERID correctable parity error",
    one 0x07 "DDR-T ERID uncorrectable error",
    one 0x08 "DDR-T interrupt received while outstanding interrupt was not ACKed",
    one 0x09 "ERID FI FO overflow", one 0x0A "DDR-T error on FNV write credits",
    one 0x0B "DDR-T error on FNV read credits", one 0x0C "DDR-T scheduler error",
    one 0x0D "DDR-T FNV error event", one 0x0E "DDR-T FNV thermal event",
    one 0x0F "CMI packet while idle", one 0x10 "DDR_T_RPQ_REQ_PARITY_ERR",
    one 0x11 "DDR_T_WPQ_REQ_PARITY_ERR", one 0x12 "2LM_NMFILLWR_CAM_ERR",
    one 0x13 "CMI_CREDIT_OVERSUB_ERR", one 0x14 "CMI_CREDIT_TOTAL_ERR",
    one 0x15 "CMI_CREDIT_RSVD_POOL_ERR", one 0x16 "DDR_T_RD_ERROR", one 0x17 "WDB_FIFO_ERR",
    one 0x18 "CMI_REQ_FIFO_OVERFLOW", one 0x19 "CMI_REQ_FIFO_UNDERFLOW",
    one 0x1A "CMI_RSP_FIFO_OVERFLOW", one 0x1B "CMI_RSP_FIFO_UNDERFLOW",
    one 0x1C "CMI _MISC_MC_CRDT_ERRORS", one 0x1D "CMI_MISC_MC_ARB_ERRORS",
    one 0x1E "DDR_T_WR_CMPL_FI FO_OVERFLOW", one 0x1F "DDR_T_WR_CMPL_FI FO_UNDERFLOW",
    one 0x20 "CMI_RD_CPL_FIFO_OVERFLOW", one 0x21 "CMI_RD_CPL_FIFO_UNDERFLOW",
    one 0x22 "TME_KEY_PAR_ERR", one 0x23 "TME_CMI_MISC_ERR", one 0x24 "TME_CMI_OVFL_ERR",
    one 0x25 "TME_CMI_UFL_ERR", one 0x26 "TME_TEM_SECURE_ERR", one 0x27 "TME_UFILL_PAR_ERR",
    one 0x29 "INTERNAL_ERR", one 0x2A "TME_INTEGRITY_ERR", one 0x2B "TME_TDX_ERR",
    one 0x2C "TME_UFILL_TEM_SECURE_ERR", one 0x2D "TME_KEY_POISON_ERR",
    one 0x2E "TME_SECURITY_ENGINE_ERR"]

/-- `imc_10` (sapphire.c:264-271) -/
def imc10Str : List (Option String) := strings [
    one 0x08 "CORR_PATSCRUB_MIRR2ND_ERR", one 0x10 "UC_PATSCRUB_MIRR2ND_ERR",
    one 0x20 "COR_SPARE_MIRR2ND_ERR", one 0x40 "UC_SPARE_MIRR2ND_ERR", one 0x80 "HA_RD_MIRR2ND_ERR",
    one 0xA0 "HA_UNCORR_RD_MIRR2ND_ERR"]

/-- `imc0` (sapphire.c:273-276) -/
def imc0 : List Field := [tableField 0 imc0Str]

/-- `imc1` (sapphire.c:278-281) -/
def imc1 : List Field := [tableField 0 imc1Str]

/-- `imc2` (sapphire.c:283-286) -/
def imc2 : List Field := [tableField 0 imc2Str]

/-- `imc4` (sapphire.c:288-291) -/
def imc4 : List Field := [tableField 0 imc4Str]

/-- `imc8` (sapphire.c:293-296) -/
def imc8 : List Field := [tableField 0 imc8Str]

/-- `imc10` (sapphire.c:298-301) -/
def imc10 : List Field := [tableField 0 imc10Str]

/-- `sapphire_imc_misc` (sapphire.c:303-350) -/
def sapphireImcMisc (hbm : Bool) (status misc : UInt64) : List Event :=
  let column := (extract misc 9 18 <<< 2).toNat
  let row := (extract misc 19 39).toNat
  let bank := (extract misc 39 40).toNat
  let bankgroup := (extract misc 37 38 ||| (extract misc 41 41 <<< 2)).toNat
  let fdevice := (extract misc 43 48).toNat
  let hbmFdevice := (extract misc 51 55).toNat
  let subrank := (extract misc 52 55).toNat
  let rank := (extract misc 56 58).toNat
  let eccmode := extract misc 59 62
  let transient := extract misc 63 63
  [say ("bank: 0x" ++ hexText bank ++ " bankgroup: 0x" ++ hexText bankgroup ++ " row: 0x" ++
    hexText row ++ " column: 0x" ++ hexText column ++ "\n")] ++
  (if transient = 0 ∧ extract status 61 61 = 0 then
    [say ("failed device: 0x" ++ (if hbm then hexText hbmFdevice ++ ",0x" else "") ++
      hexText fdevice ++ "\n")]
  else []) ++
  [say ("rank: 0x" ++ hexText rank ++ " subrank: 0x" ++ hexText subrank ++ "\n")] ++
  (if hbm then
    (([(1, "HBM 64B read\n"), (9, "HBM 32B read\n")] : List (UInt64 × String)).lookup
      eccmode).toList.map say
  else
    [say "ecc mode: ",
      say (switchText eccmode
        [(0, "SDDC 2LM memory mode\n"), (1, "SDDC\n"), (2, "SDDC+1 2LM memory mode\n"),
          (3, "SDDC+1\n"), (4, "ADDDC 2LM memory mode\n"), (5, "ADDDC\n"),
          (6, "ADDDC+1 2LM memory mode\n"), (7, "ADDDC+1\n"), (8, "DDRT read\n")] "unknown\n")]) ++
  if transient ≠ 0 then [say "transient\n"] else []

/-- `enum banktype` (sapphire.c:352-360) -/
inductive BankType
  | unknown | pcu | upi | m2m | imc | hbmM2m | hbmImc
  deriving DecidableEq, Repr

/-- `sapphire` (sapphire.c:362-369) with the range check (sapphire.c:376-385) -/
def bankType (bank : UInt8) : BankType :=
  if bank = 4 then .pcu
  else if bank = 5 then .upi
  else if bank = 12 then .m2m
  else if 13 ≤ bank ∧ bank ≤ 20 then .imc
  else if bank = 29 then .hbmM2m
  else if 30 ≤ bank ∧ bank ≤ 31 then .hbmImc
  else .unknown

/-- The mesh banks (sapphire.c:421-428) -/
def decodeM2m (status : UInt64) : List Event :=
  say "M2M: " :: (if extract status 24 25 = 1 then [say "HBM Error\n"] else []) ++
    [.bitfield (extract status 16 23) m2m]

/-- The memory controller banks (sapphire.c:434-446) -/
def decodeImc (bank : UInt8) (status misc : UInt64) : List Event :=
  say "MemCtrl: " ::
    switchBitfield (extract status 24 31) (extract status 16 23)
      [(0, imc0), (1, imc1), (2, imc2), (4, imc4), (8, imc8), (0x10, imc10)] ++
    sapphireImcMisc (30 ≤ bank) status misc

/-- `sapphire_decode_model` (sapphire.c:371-448), for the two CPU types that it is called for -/
def sapphireDecodeModel (bank : UInt8) (status misc : UInt64) : List Event :=
  match bankType bank with
  | .unknown => []
  | .pcu =>
    say "PCU: " :: nonzeroBitfield (extract status 24 31) pcu1 ++
      nonzeroBitfield (extract status 20 23) pcu2 ++
      nonzeroBitfield (extract status 16 19) (if extract status 0 15 ≠ 0x40C then pcu3 else pcu4)
  | .upi =>
    say "UPI: " :: (if extract status 22 31 ≠ 0 then [.bitfield status upi1] else []) ++
      [.bitfield (extract status 16 21) upi2]
  | .hbmM2m => say "HBM: " :: decodeM2m status
  | .m2m => decodeM2m status
  | .hbmImc => say "HBM: " :: decodeImc bank status misc
  | .imc => decodeImc bank status misc

end Mcelog.Decode.Sapphire
