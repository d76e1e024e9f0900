import Mcelog.Decode.Bitfield

/-!
# Sandy Bridge to Skylake

The tables and decoders of `sandy-bridge.c`, `ivy-bridge.c`, `haswell.c`, `broadwell_de.c`,
`broadwell_epex.c`, `skylake_xeon.c` and `denverton.c`. The bank selects what a status
means; where the MCA error code is tested, the corrected filtering bit is masked.
-/

namespace Mcelog.Decode

open Mcelog.Machine

/-- The kinds of PCU errors (haswell.c:123-133, broadwell_de.c:82-92,
    broadwell_epex.c:127-137, skylake_xeon.c:179-189) -/
def pcuErrors (status : UInt64) : List Event :=
  let mca := extract status 0 15 &&& ~~~((1 : UInt64) <<< 12)
  if mca = 0x402 ∨ mca = 0x403 then [say "Internal errors "]
  else if mca = 0x406 then [say "Intel TXT errors "]
  else if mca = 0x407 then [say "Other UBOX Internal errors "]
  else []

/-- The mark of a mirrored memory controller in MISC (broadwell_epex.c:161-174,
    skylake_xeon.c:217-230, i10nm.c:432-446): an index of `ce_types`. -/
def ceType (banks : List UInt8) (fo mc : UInt64) (bank : UInt8) (status misc : UInt64) : ℕ :=
  if bank ∉ banks then 0
  else if status &&& mciStatusMiscv ≠ 0 then
    if misc &&& fo ≠ 0 then 1 else if misc &&& mc ≠ 0 then 2 else 0
  else 0

namespace SandyBridge

/-- `pcu_1` (sandy-bridge.c:28-39) -/
def pcu1Str : List (Option String) := strings [
    one 0 "No error", one 1 "Non_IMem_Sel", one 2 "I_Parity_Error", one 3 "Bad_OpCode",
    one 4 "I_Stack_Underflow", one 5 "I_Stack_Overflow", one 6 "D_Stack_Underflow",
    one 7 "D_Stack_Overflow", one 8 "Non-DMem_Sel", one 9 "D_Parity_Error"]

/-- `pcu_2` (sandy-bridge.c:41-58) -/
def pcu2Str : List (Option String) := strings [
    one 0x00 "No Error", one 0x0D "MC_IMC_FORCE_SR_S3_TIMEOUT",
    one 0x0E "MC_MC_CPD_UNCPD_ST_TIMEOUT", one 0x0F "MC_PKGS_SAFE_WP_TIMEOUT",
    one 0x43 "MC_PECI_MAILBOX_QUIESCE_TIMEOUT", one 0x5C "MC_MORE_THAN_ONE_LT_AGENT",
    one 0x60 "MC_INVALID_PKGS_REQ_PCH", one 0x61 "MC_INVALID_PKGS_REQ_QPI",
    one 0x62 "MC_INVALID_PKGS_RES_QPI", one 0x63 "MC_INVALID_PKGC_RES_PCH",
    one 0x64 "MC_INVALID_PKG_STATE_CONFIG", one 0x70 "MC_WATCHDG_TIMEOUT_PKGC_SECONDARY",
    one 0x71 "MC_WATCHDG_TIMEOUT_PKGC_MAIN", one 0x72 "MC_WATCHDG_TIMEOUT_PKGS_MAIN",
    one 0x7A "MC_HA_FAILSTS_CHANGE_DETECTED", one 0x81 "MC_RECOVERABLE_DIE_THERMAL_TOO_HOT"]

/-- `pcu_mc4` (sandy-bridge.c:60-64) -/
def pcuMc4 : List Field := [tableField 16 pcu1Str, tableField 24 pcu2Str]

/-- `memctrl_mc8` (sandy-bridge.c:66-75) -/
def memctrlMc8 : List Field := [
    sbitField 16 "Address parity error", sbitField 17 "HA Wrt buffer Data parity error",
    sbitField 18 "HA Wrt byte enable parity error", sbitField 19 "Corrected patrol scrub error",
    sbitField 20 "Uncorrected patrol scrub error", sbitField 21 "Corrected spare error",
    sbitField 22 "Uncorrected spare error"]

/-- `snb_decode_model` (sandy-bridge.c:77-101) -/
def snbDecodeModel (cputype : CpuType) (bank : UInt8) (status : UInt64) : List Event :=
  if bank = 4 then [say "PCU: ", .bitfield status pcuMc4, say "\n"]
  else if bank = 6 ∨ bank = 7 then (if cputype = .sandyBridgeEp then [say "QPI\n"] else [])
  else if 8 ≤ bank ∧ bank ≤ 11 then [say "MemCtrl: ", .bitfield status memctrlMc8, say "\n"]
  else []

end SandyBridge

namespace IvyBridge

/-- `pcu_1` (ivy-bridge.c:28-39) -/
def pcu1Str : List (Option String) := strings [
    one 0 "No error", one 1 "Non_IMem_Sel", one 2 "I_Parity_Error", one 3 "Bad_OpCode",
    one 4 "I_Stack_Underflow", one 5 "I_Stack_Overflow", one 6 "D_Stack_Underflow",
    one 7 "D_Stack_Overflow", one 8 "Non-DMem_Sel", one 9 "D_Parity_Error"]

/-- `pcu_2` (ivy-bridge.c:41-61) -/
def pcu2Str : List (Option String) := strings [
    one 0x00 "No Error", one 0x0D "MC_IMC_FORCE_SR_S3_TIMEOUT",
    one 0x0E "MC_MC_CPD_UNCPD_ST_TIMEOUT", one 0x0F "MC_PKGS_SAFE_WP_TIMEOUT",
    one 0x43 "MC_PECI_MAILBOX_QUIESCE_TIMEOUT", one 0x44 "MC_CRITICAL_VR_FAILED",
    one 0x45 "MC_ICC_MAX-NOTSUPPORTED", one 0x5C "MC_MORE_THAN_ONE_LT_AGENT",
    one 0x60 "MC_INVALID_PKGS_REQ_PCH", one 0x61 "MC_INVALID_PKGS_REQ_QPI",
    one 0x62 "MC_INVALID_PKGS_RES_QPI", one 0x63 "MC_INVALID_PKGC_RES_PCH",
    one 0x64 "MC_INVALID_PKG_STATE_CONFIG", one 0x70 "MC_WATCHDG_TIMEOUT_PKGC_SECONDARY",
    one 0x71 "MC_WATCHDG_TIMEOUT_PKGC_MAIN", one 0x72 "MC_WATCHDG_TIMEOUT_PKGS_MAIN",
    one 0x7A "MC_HA_FAILSTS_CHANGE_DETECTED", one 0x7B "MC_PCIE_R2PCIE-RW_BLOCK_ACK_TIMEOUT",
    one 0x81 "MC_RECOVERABLE_DIE_THERMAL_TOO_HOT"]

/-- `pcu_mc4` (ivy-bridge.c:63-67) -/
def pcuMc4 : List Field := [tableField 16 pcu1Str, tableField 24 pcu2Str]

/-- `memctrl_mc9` (ivy-bridge.c:71-82) -/
def memctrlMc9 : List Field := [
    sbitField 16 "Address parity error", sbitField 17 "HA Wrt buffer Data parity error",
    sbitField 18 "HA Wrt byte enable parity error", sbitField 19 "Corrected patrol scrub error",
    sbitField 20 "Uncorrected patrol scrub error", sbitField 21 "Corrected spare error",
    sbitField 22 "Uncorrected spare error", sbitField 23 "Corrected memory read error",
    sbitField 24 "iMC, WDB, parity errors"]

/-- `ivb_decode_model` (ivy-bridge.c:84-105) -/
def ivbDecodeModel (cputype : CpuType) (bank : UInt8) (status : UInt64) : List Event :=
  if bank = 4 then [say "PCU: ", .bitfield status pcuMc4, say "\n"]
  else if bank = 5 then (if cputype = .ivyBridgeEpex then [say "QPI\n"] else [])
  else if 9 ≤ bank ∧ bank ≤ 16 then [say "MemCtrl: ", .bitfield status memctrlMc9, say "\n"]
  else []

end IvyBridge

namespace Haswell

/-- `pcu_1` (haswell.c:28-72) -/
def pcu1Str : List (Option String) := strings [
    one 0x00 "No Error", one 0x09 "MC_MESSAGE_CHANNEL_TIMEOUT",
    one 0x0D "MC_IMC_FORCE_SR_S3_TIMEOUT", one 0x0E "MC_CPD_UNCPD_SD_TIMEOUT",
    one 0x13 "MC_DMI_TRAINING_TIMEOUT", one 0x15 "MC_DMI_CPU_RESET_ACK_TIMEOUT",
    one 0x1E "MC_VR_ICC_MAX_LT_FUSED_ICC_MAX", one 0x25 "MC_SVID_COMMAN_TIMEOUT",
    one 0x29 "MC_VR_VOUT_MAC_LT_FUSED_SVID", one 0x2B "MC_PKGC_WATCHDOG_HANG_CBZ_DOWN",
    one 0x2C "MC_PKGC_WATCHDOG_HANG_CBZ_UP", one 0x39 "MC_PKGC_WATCHDOG_HANG_C3_UP_SF",
    one 0x44 "MC_CRITICAL_VR_FAILED", one 0x45 "MC_ICC_MAX_NOTSUPPORTED",
    one 0x46 "MC_VID_RAMP_DOWN_FAILED", one 0x47 "MC_EXCL_MODE_NO_PMREQ_CMP",
    one 0x48 "MC_SVID_READ_REG_ICC_MAX_FAILED", one 0x49 "MC_SVID_WRITE_REG_VOUT_MAX_FAILED",
    one 0x4B "MC_BOOT_VID_TIMEOUT_DRAM_0", one 0x4C "MC_BOOT_VID_TIMEOUT_DRAM_1",
    one 0x4D "MC_BOOT_VID_TIMEOUT_DRAM_2", one 0x4E "MC_BOOT_VID_TIMEOUT_DRAM_3",
    one 0x4F "MC_SVID_COMMAND_ERROR", one 0x52 "MC_FIVR_CATAS_OVERVOL_FAULT",
    one 0x53 "MC_FIVR_CATAS_OVERCUR_FAULT", one 0x57 "MC_SVID_PKGC_REQUEST_FAILED",
    one 0x58 "MC_SVID_IMON_REQUEST_FAILED", one 0x59 "MC_SVID_ALERT_REQUEST_FAILED",
    one 0x60 "MC_INVALID_PKGS_REQ_PCH", one 0x61 "MC_INVALID_PKGS_REQ_QPI",
    one 0x62 "MC_INVALID_PKGS_RSP_QPI", one 0x63 "MC_INVALID_PKGS_RSP_PCH",
    one 0x64 "MC_INVALID_PKG_STATE_CONFIG", one 0x67 "MC_HA_IMC_RW_BLOCK_ACK_TIMEOUT",
    one 0x68 "MC_IMC_RW_SMBUS_TIMEOUT", one 0x69 "MC_HA_FAILSTS_CHANGE_DETECTED",
    one 0x6A "MC_MSGCH_PMREQ_CMP_TIMEOUT", one 0x70 "MC_WATCHDOG_TIMEOUT_PKGC_SECONDARY",
    one 0x71 "MC_WATCHDOG_TIMEOUT_PKGC_MAIN", one 0x72 "MC_WATCHDOG_TIMEOUT_PKGS_MAIN",
    one 0x7C "MC_BIOS_RST_CPL_INVALID_SEQ", one 0x7D "MC_MORE_THAN_ONE_TXT_AGENT",
    one 0x81 "MC_RECOVERABLE_DIE_THERMAL_TOO_HOT"]

/-- `pcu_mc4` (haswell.c:74-77) -/
def pcuMc4 : List Field := [tableField 24 pcu1Str]

/-- `qpi` (haswell.c:81-95) -/
def qpi : List (Option String) := strings [
    one 0x02 "Intel QPI physical layer detected drift buffer alarm",
    one 0x03 "Intel QPI physical layer detected latency buffer rollover",
    one 0x10 "Intel QPI link layer detected control error from R3QPI",
    one 0x11 "Rx entered LLR abort state on CRC error", one 0x12 "Unsupported or undefined packet",
    one 0x13 "Intel QPI link layer control error", one 0x15 "RBT used un-initialized value",
    one 0x20 "Intel QPI physical layer detected a QPI in-band reset but aborted initialization",
    one 0x21 "Link failover data self healing",
    one 0x22 "Phy detected in-band reset (no width change)",
    one 0x23 "Link failover clock failover",
    one 0x30 "Rx detected CRC error - successful LLR after Phy re-init",
    one 0x31 "Rx detected CRC error - successful LLR without Phy re-init"]

/-- `qpi_mc` (haswell.c:97-100) -/
def qpiMc : List Field := [tableField 16 qpi]

/-- `memctrl_mc9` (haswell.c:104-116) -/
def memctrlMc9 : List Field := [
    sbitField 16 "DDR3 address parity error", sbitField 17 "Uncorrected HA write data error",
    sbitField 18 "Uncorrected HA data byte enable error",
    sbitField 19 "Corrected patrol scrub error", sbitField 20 "Uncorrected patrol scrub error",
    sbitField 21 "Corrected spare error", sbitField 22 "Uncorrected spare error",
    sbitField 23 "Corrected memory read error", sbitField 24 "iMC write data buffer parity error",
    sbitField 25 "DDR4 command address parity error"]

/-- `hsw_decode_model` (haswell.c:118-150) -/
def hswDecodeModel (bank : UInt8) (status : UInt64) : List Event :=
  if bank = 4 then
    say "PCU: " :: pcuErrors status ++
      (if extract status 16 19 ≠ 0 then [say "PCU internal error "] else []) ++
      [.bitfield status pcuMc4]
  else if bank = 5 ∨ bank = 20 ∨ bank = 21 then [say "QPI: ", .bitfield status qpiMc]
  else if 9 ≤ bank ∧ bank ≤ 16 then [say "MemCtrl: ", .bitfield status memctrlMc9]
  else []

end Haswell

namespace BroadwellDe

/-- `pcu_1` (broadwell_de.c:28-55) -/
def pcu1Str : List (Option String) := strings [
    one 0x00 "No Error", one 0x09 "MC_MESSAGE_CHANNEL_TIMEOUT", one 0x13 "MC_DMI_TRAINING_TIMEOUT",
    one 0x15 "MC_DMI_CPU_RESET_ACK_TIMEOUT", one 0x1E "MC_VR_ICC_MAX_LT_FUSED_ICC_MAX",
    one 0x25 "MC_SVID_COMMAN_TIMEOUT", one 0x26 "MCA_PKGC_DIRECT_WAKE_RING_TIMEOUT",
    one 0x29 "MC_VR_VOUT_MAC_LT_FUSED_SVID", one 0x2B "MC_PKGC_WATCHDOG_HANG_CBZ_DOWN",
    one 0x2C "MC_PKGC_WATCHDOG_HANG_CBZ_UP", one 0x44 "MC_CRITICAL_VR_FAILED",
    one 0x46 "MC_VID_RAMP_DOWN_FAILED", one 0x49 "MC_SVID_WRITE_REG_VOUT_MAX_FAILED",
    one 0x4B "MC_BOOT_VID_TIMEOUT_DRAM_0", one 0x4F "MC_SVID_COMMAND_ERROR",
    one 0x52 "MC_FIVR_CATAS_OVERVOL_FAULT", one 0x53 "MC_FIVR_CATAS_OVERCUR_FAULT",
    one 0x57 "MC_SVID_PKGC_REQUEST_FAILED", one 0x58 "MC_SVID_IMON_REQUEST_FAILED",
    one 0x59 "MC_SVID_ALERT_REQUEST_FAILED", one 0x62 "MC_INVALID_PKGS_RSP_QPI",
    one 0x64 "MC_INVALID_PKG_STATE_CONFIG", one 0x67 "MC_HA_IMC_RW_BLOCK_ACK_TIMEOUT",
    one 0x6A "MC_MSGCH_PMREQ_CMP_TIMEOUT", one 0x72 "MC_WATCHDOG_TIMEOUT_PKGS_MAIN",
    one 0x81 "MC_RECOVERABLE_DIE_THERMAL_TOO_HOT"]

/-- `pcu_mc4` (broadwell_de.c:57-60) -/
def pcuMc4 : List Field := [tableField 24 pcu1Str]

/-- `memctrl_mc9` (broadwell_de.c:64-75) -/
def memctrlMc9 : List Field := [
    sbitField 16 "Address parity error", sbitField 17 "HA Wrt buffer Data parity error",
    sbitField 18 "HA Wrt byte enable parity error", sbitField 19 "Corrected patrol scrub error",
    sbitField 20 "Uncorrected patrol scrub error", sbitField 21 "Corrected spare error",
    sbitField 22 "Uncorrected spare error", sbitField 23 "Corrected memory read error",
    sbitField 24 "iMC, WDB, parity errors"]

/-- `bdw_de_decode_model` (broadwell_de.c:77-104) -/
def bdwDeDecodeModel (bank : UInt8) (status : UInt64) : List Event :=
  if bank = 4 then
    say "PCU: " :: pcuErrors status ++
      (if extract status 16 19 &&& 3 ≠ 0 then [say "PCU internal error "] else []) ++
      (if extract status 20 23 &&& 4 ≠ 0 then [say "Ubox error "] else []) ++
      [.bitfield status pcuMc4]
  else if bank = 9 ∨ bank = 10 then [say "MemCtrl: ", .bitfield status memctrlMc9]
  else []

end BroadwellDe

namespace BroadwellEpex

/-- `pcu_1` (broadwell_epex.c:33-77) -/
def pcu1Str : List (Option String) := strings [
    one 0x00 "No Error", one 0x09 "MC_MESSAGE_CHANNEL_TIMEOUT",
    one 0x0D "MC_IMC_FORCE_SR_S3_TIMEOUT", one 0x0E "MC_CPD_UNCPD_SD_TIMEOUT",
    one 0x13 "MC_DMI_TRAINING_TIMEOUT", one 0x15 "MC_DMI_CPU_RESET_ACK_TIMEOUT",
    one 0x1E "MC_VR_ICC_MAX_LT_FUSED_ICC_MAX", one 0x25 "MC_SVID_COMMAN_TIMEOUT",
    one 0x29 "MC_VR_VOUT_MAC_LT_FUSED_SVID", one 0x2B "MC_PKGC_WATCHDOG_HANG_CBZ_DOWN",
    one 0x2C "MC_PKGC_WATCHDOG_HANG_CBZ_UP", one 0x39 "MC_PKGC_WATCHDOG_HANG_C3_UP_SF",
    one 0x44 "MC_CRITICAL_VR_FAILED", one 0x45 "MC_ICC_MAX_NOTSUPPORTED",
    one 0x46 "MC_VID_RAMP_DOWN_FAILED", one 0x47 "MC_EXCL_MODE_NO_PMREQ_CMP",
    one 0x48 "MC_SVID_READ_REG_ICC_MAX_FAILED", one 0x49 "MC_SVID_WRITE_REG_VOUT_MAX_FAILED",
    one 0x4B "MC_BOOT_VID_TIMEOUT_DRAM_0", one 0x4C "MC_BOOT_VID_TIMEOUT_DRAM_1",
    one 0x4D "MC_BOOT_VID_TIMEOUT_DRAM_2", one 0x4E "MC_BOOT_VID_TIMEOUT_DRAM_3",
    one 0x4F "MC_SVID_COMMAND_ERROR", one 0x52 "MC_FIVR_CATAS_OVERVOL_FAULT",
    one 0x53 "MC_FIVR_CATAS_OVERCUR_FAULT", one 0x57 "MC_SVID_PKGC_REQUEST_FAILED",
    one 0x58 "MC_SVID_IMON_REQUEST_FAILED", one 0x59 "MC_SVID_ALERT_REQUEST_FAILED",
    one 0x60 "MC_INVALID_PKGS_REQ_PCH", one 0x61 "MC_INVALID_PKGS_REQ_QPI",
    one 0x62 "MC_INVALID_PKGS_RSP_QPI", one 0x63 "MC_INVALID_PKGS_RSP_PCH",
    one 0x64 "MC_INVALID_PKG_STATE_CONFIG", one 0x67 "MC_HA_IMC_RW_BLOCK_ACK_TIMEOUT",
    one 0x68 "MC_IMC_RW_SMBUS_TIMEOUT", one 0x69 "MC_HA_FAILSTS_CHANGE_DETECTED",
    one 0x6A "MC_MSGCH_PMREQ_CMP_TIMEOUT", one 0x70 "MC_WATCHDOG_TIMEOUT_PKGC_SECONDARY",
    one 0x71 "MC_WATCHDOG_TIMEOUT_PKGC_MAIN", one 0x72 "MC_WATCHDOG_TIMEOUT_PKGS_MAIN",
    one 0x7C "MC_BIOS_RST_CPL_INVALID_SEQ", one 0x7D "MC_MORE_THAN_ONE_TXT_AGENT",
    one 0x81 "MC_RECOVERABLE_DIE_THERMAL_TOO_HOT"]

/-- `pcu_mc4` (broadwell_epex.c:79-82) -/
def pcuMc4 : List Field := [tableField 24 pcu1Str]

/-- `qpi` (broadwell_epex.c:86-100) -/
def qpi : List (Option String) := strings [
    one 0x02 "Intel QPI physical layer detected drift buffer alarm",
    one 0x03 "Intel QPI physical layer detected latency buffer rollover",
    one 0x10 "Intel QPI link layer detected control error from R3QPI",
    one 0x11 "Rx entered LLR abort state on CRC error", one 0x12 "Unsupported or undefined packet",
    one 0x13 "Intel QPI link layer control error", one 0x15 "RBT used un-initialized value",
    one 0x20 "Intel QPI physical layer detected a QPI in-band reset but aborted initialization",
    one 0x21 "Link failover data self healing",
    one 0x22 "Phy detected in-band reset (no width change)",
    one 0x23 "Link failover clock failover",
    one 0x30 "Rx detected CRC error - successful LLR after Phy re-init",
    one 0x31 "Rx detected CRC error - successful LLR without Phy re-init"]

/-- `qpi_mc` (broadwell_epex.c:102-105) -/
def qpiMc : List Field := [tableField 16 qpi]

/-- `memctrl_mc9` (broadwell_epex.c:109-120) -/
def memctrlMc9 : List Field := [
    sbitField 16 "DDR3 address parity error", sbitField 17 "Uncorrected HA write data error",
    sbitField 18 "Uncorrected HA data byte enable error",
    sbitField 19 "Corrected patrol scrub error", sbitField 20 "Uncorrected patrol scrub error",
    sbitField 21 "Corrected spare error", sbitField 22 "Uncorrected spare error",
    sbitField 24 "iMC write data buffer parity error",
    sbitField 25 "DDR4 command address parity error"]

/-- `bdw_epex_decode_model` (broadwell_epex.c:122-154) -/
def bdwEpexDecodeModel (bank : UInt8) (status : UInt64) : List Event :=
  if bank = 4 then
    say "PCU: " :: pcuErrors status ++
      (if extract status 16 19 ≠ 0 then [say "PCU internal error "] else []) ++
      [.bitfield status pcuMc4]
  else if bank = 5 ∨ bank = 20 ∨ bank = 21 then [say "QPI: ", .bitfield status qpiMc]
  else if 9 ≤ bank ∧ bank ≤ 16 then [say "MemCtrl: ", .bitfield status memctrlMc9]
  else []

/-- `bdw_epex_ce_type` (broadwell_epex.c:161-174) -/
def bdwEpexCeType : UInt8 → UInt64 → UInt64 → ℕ :=
  ceType [7, 8] ((1 : UInt64) <<< 41) ((1 : UInt64) <<< 42)

end BroadwellEpex

namespace SkylakeXeon

/-- `pcu_1` (skylake_xeon.c:33-73) -/
def pcu1Str : List (Option String) := strings [
    one 0x00 "No Error", one 0x0d "MCA_DMI_TRAINING_TIMEOUT",
    one 0x0f "MCA_DMI_CPU_RESET_ACK_TIMEOUT", one 0x10 "MCA_MORE_THAN_ONE_LT_AGENT",
    one 0x1e "MCA_BIOS_RST_CPL_INVALID_SEQ", one 0x1f "MCA_BIOS_INVALID_PKG_STATE_CONFIG",
    one 0x25 "MCA_MESSAGE_CHANNEL_TIMEOUT", one 0x27 "MCA_MSGCH_PMREQ_CMP_TIMEOUT",
    one 0x30 "MCA_PKGC_DIRECT_WAKE_RING_TIMEOUT", one 0x31 "MCA_PKGC_INVALID_RSP_PCH",
    one 0x33 "MCA_PKGC_WATCHDOG_HANG_CBZ_DOWN", one 0x34 "MCA_PKGC_WATCHDOG_HANG_CBZ_UP",
    one 0x38 "MCA_PKGC_WATCHDOG_HANG_C3_UP_SF", one 0x40 "MCA_SVID_VCCIN_VR_ICC_MAX_FAILURE",
    one 0x41 "MCA_SVID_COMMAND_TIMEOUT", one 0x42 "MCA_SVID_VCCIN_VR_VOUT_FAILURE",
    one 0x43 "MCA_SVID_CPU_VR_CAPABILITY_ERROR", one 0x44 "MCA_SVID_CRITICAL_VR_FAILED",
    one 0x45 "MCA_SVID_SA_ITD_ERROR", one 0x46 "MCA_SVID_READ_REG_FAILED",
    one 0x47 "MCA_SVID_WRITE_REG_FAILED", one 0x48 "MCA_SVID_PKGC_INIT_FAILED",
    one 0x49 "MCA_SVID_PKGC_CONFIG_FAILED", one 0x4a "MCA_SVID_PKGC_REQUEST_FAILED",
    one 0x4b "MCA_SVID_IMON_REQUEST_FAILED", one 0x4c "MCA_SVID_ALERT_REQUEST_FAILED",
    one 0x4d "MCA_SVID_MCP_VR_ABSENT_OR_RAMP_ERROR", one 0x4e "MCA_SVID_UNEXPECTED_MCP_VR_DETECTED",
    one 0x51 "MCA_FIVR_CATAS_OVERVOL_FAULT", one 0x52 "MCA_FIVR_CATAS_OVERCUR_FAULT",
    one 0x58 "MCA_WATCHDOG_TIMEOUT_PKGC_SECONDARY", one 0x59 "MCA_WATCHDOG_TIMEOUT_PKGC_MAIN",
    one 0x5a "MCA_WATCHDOG_TIMEOUT_PKGS_MAIN", one 0x61 "MCA_PKGS_CPD_UNCPD_TIMEOUT",
    one 0x63 "MCA_PKGS_INVALID_REQ_PCH", one 0x64 "MCA_PKGS_INVALID_REQ_INTERNAL",
    one 0x65 "MCA_PKGS_INVALID_RSP_INTERNAL", one 0x6b "MCA_PKGS_SMBUS_VPP_PAUSE_TIMEOUT",
    one 0x81 "MCA_RECOVERABLE_DIE_THERMAL_TOO_HOT"]

/-- `pcu_mc4` (skylake_xeon.c:75-78) -/
def pcuMc4 : List Field := [tableField 24 pcu1Str]

/-- `upi` (skylake_xeon.c:82-99) -/
def upi : List (Option String) := strings [
    one 0x00 "UC Phy Initialization Failure", one 0x01 "UC Phy detected drift buffer alarm",
    one 0x02 "UC Phy detected latency buffer rollover",
    one 0x10 "UC LL Rx detected CRC error: unsuccessful LLR: entered abort state",
    one 0x11 "UC LL Rx unsupported or undefined packet", one 0x12 "UC LL or Phy control error",
    one 0x13 "UC LL Rx parameter exchange exception",
    one 0x1F "UC LL detected control error from the link-mesh interface",
    one 0x20 "COR Phy initialization abort", one 0x21 "COR Phy reset",
    one 0x22 "COR Phy lane failure, recovery in x8 width",
    one 0x23 "COR Phy L0c error corrected without Phy reset",
    one 0x24 "COR Phy L0c error triggering Phy Reset",
    one 0x25 "COR Phy L0p exit error corrected with Phy reset",
    one 0x30 "COR LL Rx detected CRC error - successful LLR without Phy Reinit",
    one 0x31 "COR LL Rx detected CRC error - successful LLR with Phy Reinit"]

/-- `upi_mc` (skylake_xeon.c:101-104) -/
def upiMc : List Field := [tableField 16 upi]

/-- `upi_0x12` (skylake_xeon.c:107-119) -/
def upi0x12 : List Field := [
    sbitField 22 "Phy Control Error", sbitField 23 "Unexpected Retry.Ack flit",
    sbitField 24 "Unexpected Retry.Req flit", sbitField 25 "RF parity error",
    sbitField 26 "Routeback Table error",
    sbitField 27 "unexpected Tx Protocol flit (EOP, Header or Data)",
    sbitField 28 "Rx Header-or-Credit BGF credit overflow/underflow",
    sbitField 29 "Link Layer Reset still in progress when Phy enters L0",
    sbitField 30 "Link Layer reset initiated while protocol traffic not idle",
    sbitField 31 "Link Layer Tx Parity Error"]

/-- `mc_bits` (skylake_xeon.c:123-136) -/
def mcBits : List Field := [
    sbitField 16 "Address parity error", sbitField 17 "HA write data parity error",
    sbitField 18 "HA write byte enable parity error", sbitField 19 "Corrected patrol scrub error",
    sbitField 20 "Uncorrected patrol scrub error", sbitField 21 "Corrected spare error",
    sbitField 22 "Uncorrected spare error", sbitField 23 "Any HA read error",
    sbitField 24 "WDB read parity error", sbitField 25 "DDR4 command address parity error",
    sbitField 26 "Uncorrected address parity error"]

/-- `mc_0x8xx` (skylake_xeon.c:138-153) -/
def mc0x8xx : List (Option String) := strings [
    one 0x0 "Unrecognized request type", one 0x1 "Read response to an invalid scoreboard entry",
    one 0x2 "Unexpected read response", one 0x3 "DDR4 completion to an invalid scoreboard entry",
    one 0x4 "Completion to an invalid scoreboard entry", one 0x5 "Completion FIFO overflow",
    one 0x6 "Correctable parity error", one 0x7 "Uncorrectable error",
    one 0x8 "Interrupt received while outstanding interrupt was not ACKed",
    one 0x9 "ERID FIFO overflow", one 0xa "Error on Write credits", one 0xb "Error on Read credits",
    one 0xc "Scheduler error", one 0xd "Error event"]

/-- `memctrl_mc13` (skylake_xeon.c:155-158) -/
def memctrlMc13 : List Field := [tableField 16 mc0x8xx]

/-- `m2m` (skylake_xeon.c:162-172) -/
def m2m : List Field := [
    sbitField 16 "MscodDataRdErr", sbitField 17 "Reserved", sbitField 18 "MscodPtlWrErr",
    sbitField 19 "MscodFullWrErr", sbitField 20 "MscodBgfErr", sbitField 21 "MscodTimeout",
    sbitField 22 "MscodParErr", sbitField 23 "MscodBucket1Err"]

/-- `skylake_s_decode_model` (skylake_xeon.c:174-215) -/
def skylakeSDecodeModel (bank : UInt8) (status : UInt64) : List Event :=
  if bank = 4 then
    say "PCU: " :: pcuErrors status ++
      (if extract status 16 19 ≠ 0 then [say "PCU internal error "] else []) ++
      [.bitfield status pcuMc4]
  else if bank = 5 ∨ bank = 12 ∨ bank = 19 then
    [say "UPI: ", .bitfield status upiMc] ++
      if extract status 16 21 = 0x12 then [.bitfield status upi0x12] else []
  else if bank = 7 ∨ bank = 8 then [say "M2M: ", .bitfield status m2m]
  else if 13 ≤ bank ∧ bank ≤ 18 then
    [say "MemCtrl: ",
      if extract status 27 27 ≠ 0 then .bitfield status memctrlMc13 else .bitfield status mcBits]
  else []

/-- `skylake_s_ce_type` (skylake_xeon.c:217-230) -/
def skylakeSCeType : UInt8 → UInt64 → UInt64 → ℕ :=
  ceType [7, 8] ((1 : UInt64) <<< 63) ((1 : UInt64) <<< 62)

end SkylakeXeon

namespace Denverton

/-- `mc_bits` (denverton.c:28-35) -/
def mcBits : List Field := [
    sbitField 16 "Cmd/Addr parity", sbitField 17 "Corrected Demand/Patrol Scrub Error",
    sbitField 18 "Uncorrected patrol scrub error", sbitField 19 "Uncorrected demand read error",
    sbitField 20 "WDB read ECC"]

/-- `denverton_decode_model` (denverton.c:37-45) -/
def denvertonDecodeModel (bank : UInt8) (status : UInt64) : List Event :=
  if bank = 6 ∨ bank = 7 then [say "MemCtrl: ", .bitfield status mcBits] else []

end Denverton

end Mcelog.Decode
