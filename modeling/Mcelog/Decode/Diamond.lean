import Mcelog.Decode.Bitfield

/-!
# Diamond Rapids

The tables and the decoder of `diamond.c`.
-/

namespace Mcelog.Decode.Diamond

open Mcelog.Machine

/-- `cbb_punit_0` (diamond.c:26-36) -/
def cbbPunit0Str : List (Option String) := strings [
    one 0x01 "CR4_MCE_CLEAR: MCE when CR4.MCE is clear",
    one 0x02 "MCE_MCIP_SET: MCE when MCIP bit is set", one 0x03 "MCE_UNDER_WFS: MCE under WPS",
    one 0x04 "MCE_LT_HANDSHAKE: Unrecoverable error during security flow execution",
    one 0x05 "TRIPLE_FAULT: SW triple fault shutdown",
    one 0x06 "VMX_ABORT: VMX exit consistency check failures",
    one 0x07 "RSM_CONSISTENCY_FAIL: RSM consistency check failures",
    one 0x08 "SMM_PROTECTED_ENTRY_FAIL: Invalid conditions on protected mode SMM entry",
    one 0x09 "UCODE_PATCH_LOAD_FAIL: Unrecoverable error during security flow execution"]

/-- `cbb_punit_8` (diamond.c:38-63) -/
def cbbPunit8Str : List (Option String) := strings [
    one 0x16 "MCA_DVFS_COUNTER_EXPIRED", one 0x23 "MCA_UNSUPP_RESP", one 0x25 "MCA_FUSA_MBIST",
    one 0x26 "MCA_SA_PLL_LOCKED", one 0x27 "MCA_XTAL_FREQ_MON_ERROR",
    one 0x28 "MCA_PMSB_FUSE_PULLER_ERROR", one 0x29 "MCA_GPSB_FUSE_PULLER_ERROR",
    one 0x30 "MCA_PCODE_WATCHDOG", one 0x31 "MCA_BGR_FUSA_ERR", one 0x32 "MCA_CORE_FIVR_ERR",
    one 0x33 "MCA_D2D_FIVR_ERR", one 0x34 "MCA_MLC_FIVR_ERR", one 0x35 "MCA_RING_FIVR_ERR",
    one 0x36 "MCA_D2D_MONF_PLL_FUSA_0", one 0x37 "MCA_D2D_MONF_PLL_FUSA_1",
    one 0x38 "MCA_TOP0_FUSA_PLL_ERR", one 0x39 "MCA_BASE_FUSA_PLL_ERR",
    one 0x40 "MCA_UCIE_RESET_BUS_STOP_ON_ERROR", one 0x41 "MCA_RSRC_ADAPT_0_ERR",
    one 0x42 "MCA_RSC_ADAPT_1_ERR", one 0x45 "MCA_TOP1_FUSA_PLL_ERR",
    one 0x46 "MCA_TOP2_FUSA_PLL_ERR", one 0x47 "MCA_TOP3_FUSA_PLL_ERR",
    one 0x48 "UC_PATCH_LOAD_ACK_ERROR"]

/-- `cbb_punit_12` (diamond.c:65-71) -/
def cbbPunit12Str : List (Option String) := strings [
    one 0x01 "MCA_UC_IRAM_DOUBLE_ERROR", one 0x02 "MCA_UC_DOUBLE_EXCEPTION_ERROR",
    one 0x03 "MCA_UC_TELEM_SRAM_ERROR", one 0x04 "MCA_UC_DRAM_DOUBLE_ERROR",
    one 0x05 "MCA_UC_TPMI_SRAM_ERROR"]

/-- `cbb_punit_20` (diamond.c:73-76) -/
def cbbPunit20Str : List (Option String) := strings [
    one 0x01 "MCA_FIVR_HI_YELLOW", one 0x02 "MCA_FIVR_HI_RED"]

/-- `cbb_punit0` (diamond.c:78-81) -/
def cbbPunit0 : List Field := [tableField 0 cbbPunit0Str]

/-- `cbb_punit8` (diamond.c:83-86) -/
def cbbPunit8 : List Field := [tableField 0 cbbPunit8Str]

/-- `cbb_punit12` (diamond.c:88-91) -/
def cbbPunit12 : List Field := [tableField 0 cbbPunit12Str]

/-- `cbb_punit20` (diamond.c:93-96) -/
def cbbPunit20 : List Field := [tableField 0 cbbPunit20Str]

/-- `imh_punit_0` (diamond.c:98-113) -/
def imhPunit0Str : List (Option String) := strings [
    span 0x02 0x03 "Power Management Unit microcontroller double-bit ECC error",
    span 0x08 0x09 "Power Management Unit microcontroller error",
    one 0x0a "Power Management Unit microcontroller Patch Load error",
    one 0x0b "Power Management Unit microcontroller POReqValid error",
    one 0x0c "Power Management Unit microcontroller RAM address error",
    one 0x0d "Power Management Unit microcontroller RAM access error",
    one 0x10 ("If MCI_MISC.MODEL_SPECIFIC_INFORMATION is set to 1, " ++
      "indicates Pcode Watchdog Timer expired. " ++
      "If MCI_MISC.MODEL_SPECIFIC_INFORMATION is set to 3, " ++
      "indicates Power Management Unit TeleSRAM double-bit ECC error detected."),
    one 0x20 "Power Management Agent signaled Error",
    one 0x30 "Power Management Unit Microcontroller Error",
    one 0xa0 "Power Management Unit HPMSRAM double-bit ECC error detected",
    one 0xb0 "Power Management Unit TPMISRAM double-bit ECC error detected"]

/-- `imh_punit_1` (diamond.c:115-136) -/
def imhPunit1Str : List (Option String) := strings [
    one 0x09 "MCA_TSC_DOWNLOAD_TIMEOUT", one 0x0a "MCA_INVALID_XTALFREQ_RANGE",
    one 0x0b "MCA_GPSB_TIMEOUT", one 0x0c "MCA_PMSB_TIMEOUT", one 0x0d "MCA_CFG_ACK_TIMEOUT",
    one 0x23 "MCA_PCU_SVID_ERROR", one 0x35 "MCA_SVID_LOADLINE_INVALID",
    one 0x36 "MCA_SVID_ICCMAX_INVALID", one 0x4a "MCA_FIVR_PD_HARDERR",
    one 0x4c "MCA_HPM_DOUBLE_BIT_ERROR_DETECTED", one 0x58 "MCA_INVALID_MEMORY_FREQUENCY",
    one 0x63 "MCA_SVID_VCCIN_PROTOCOL_ERROR", one 0x6a "MCA_SPPR_TIMEOUT",
    one 0x6f "MCA_INVALID_SID_ERROR", one 0x70 "MCA_INVALID_REMOTE_LEGACY_AGENT_ERROR",
    one 0x71 "MCA_INVALID_REMOTE_LT_AGENT_ERROR", one 0x7b "MCA_THERMAL_SENSOR_INVALID",
    one 0x7c "MCA_CXL_DEVICE_NO_CREDIT", one 0x7e "MCA_RECOVERABLE_DIE_THERMAL_TOO_HOT",
    one 0x83 "MCA_PKGS_RECOVERABLE_RESET_PREP_ACK_TIMEOUT"]

/-- `imh_punit0` (diamond.c:138-141) -/
def imhPunit0 : List Field := [tableField 0 imhPunit0Str]

/-- `imh_punit1` (diamond.c:143-146) -/
def imhPunit1 : List Field := [tableField 0 imhPunit1Str]

/-- `upi_0` (diamond.c:148-167) -/
def upi0Str : List (Option String) := strings [
    span 0x00 0x02 "Internal Parity Error", one 0x05 "Internal Parity Error",
    one 0x08 "Internal Queue Overflow Error", one 0x09 "UPI link layer buffer overflow",
    one 0x0a "Internal Queue Underflow Error", one 0x0b "UPI link layer buffer underflow",
    one 0x0c "Link layer or internal credit overflow",
    span 0x11 0x12 "Internal Queue Overflow Error", span 0x13 0x14 "Internal Queue Underflow Error",
    one 0x21 "Internal Interface Error", one 0x23 "Invalid Message", one 0x24 "UPI Protocol Error",
    one 0x25 "UPI Interleave Error", one 0x28 "Internal Interface Error",
    one 0x29 "Link integrity or initialization error",
    span 0x2a 0x2d "Power Management Transition Error - Timeout",
    one 0x30 "Received poison when poison is disabled", one 0x31 "Internal Interface Error"]

/-- `upi_2` (diamond.c:169-173) -/
def upi2Str : List (Option String) := strings [
    one 0x00 "Link integrity or initialization error", one 0x03 "Link degraded",
    span 0x04 0x07 "Power Management Transition Error - Timeout"]

/-- `upi0` (diamond.c:175-178) -/
def upi0 : List Field := [tableField 0 upi0Str]

/-- `upi2` (diamond.c:180-183) -/
def upi2 : List Field := [tableField 0 upi2Str]

/-- `mcchan_0` (diamond.c:185-197) -/
def mcchan0Str : List (Option String) := strings [
    one 0x01 "CMI Request Address Parity Error (APPP)", one 0x02 "CMI Wr data parity error",
    one 0x04 "CMI Wr BE parity error", one 0x08 "Transient or Correctable Error for Patrol Reads",
    one 0x10 "UnCorr Patrol Scrub Error",
    one 0x20 "Nontransient or Transient ectable Error for Spare Reads",
    one 0x40 "UnCorr Spare Error",
    one 0x80 "Transient or Correctable Error for Demand or Underfill Reads",
    one 0xa0 "Uncorrectable Error for Demand or Underfill Reads",
    one 0xb0 "Poisoned Read Data when Poison Disabled",
    one 0xc0 "Read 2LM MetaData Error for Demand, Underfill, or Patrol/Spare"]

/-- `mcchan_1` (diamond.c:199-205) -/
def mcchan1Str : List (Option String) := strings [
    one 0x02 "WDB Read ECC Error", one 0x04 "WDB BE Read Parity Error",
    one 0x06 "WDB Read Persistent ECC Error", one 0x08 "DDR Link Fail",
    one 0x09 "Illegal incoming opcode"]

/-- `mcchan_2` (diamond.c:207-210) -/
def mcchan2Str : List (Option String) := strings [
    one 0x00 "DDR CAParity or WrCRC Error", one 0x40 "Decoder structure error"]

/-- `mcchan_4` (diamond.c:212-214) -/
def mcchan4Str : List (Option String) := strings [one 0x00 "MC internal address parity error"]

/-- `mcchan_8` (diamond.c:216-223) -/
def mcchan8Str : List (Option String) := strings [
    one 0x13 "CMI Credit Oversubscription Error", one 0x14 "CMI Total Credit Count Error",
    one 0x15 "CMI Reserved Credit Pool Error", one 0x32 "MC Internal Errors",
    one 0x34 "MC Tracker RDCMP RF parity error", one 0x36 "MC Tracker WRCMP RF parity error"]

/-- `mcchan0` (diamond.c:225-228) -/
def mcchan0 : List Field := [tableField 0 mcchan0Str]

/-- `mcchan1` (diamond.c:230-233) -/
def mcchan1 : List Field := [tableField 0 mcchan1Str]

/-- `mcchan2` (diamond.c:235-238) -/
def mcchan2 : List Field := [tableField 0 mcchan2Str]

/-- `mcchan4` (diamond.c:240-243) -/
def mcchan4 : List Field := [tableField 0 mcchan4Str]

/-- `mcchan8` (diamond.c:245-248) -/
def mcchan8 : List Field := [tableField 0 mcchan8Str]

/-- `diamond_imh` (diamond.c:250-253) -/
def diamondImh (m : Mce) : ℕ := ((m.apicid >>> 2) &&& 1).toNat

/-- `diamond_imc_misc` (diamond.c:255-297) -/
def diamondImcMisc (status misc : UInt64) : List Event :=
  let mscod := extract status 16 31
  let column := (extract misc 9 18 <<< 2).toNat
  let row := (extract misc 19 36).toNat
  let bank := (extract misc 37 38).toNat
  let bankgroup := (extract misc 39 41).toNat
  let fdeviceV := extract misc 42 42
  let fdevice := (extract misc 44 48).toNat
  let subchan := (extract misc 49 49).toNat
  let subrank := (extract misc 51 54).toNat
  let chipselect := (extract misc 55 56).toNat
  let eccmode := extract misc 58 61
  let transient := extract misc 63 63
  if 0x800 ≤ mscod then []
  else
    [say ("bank: 0x" ++ hexText bank ++ " bankgroup: 0x" ++ hexText bankgroup ++ " row: 0x" ++
      hexText row ++ " column: 0x" ++ hexText column ++ "\n"),
      say ("chipselect: 0x" ++ hexText chipselect ++ " subrank: 0x" ++ hexText subrank ++
        " subchan: 0x" ++ hexText subchan ++ "\n")] ++
    if transient ≠ 0 then [say "transient\n"]
    else
      (if fdeviceV ≠ 0 then [say ("failed device: 0x" ++ hexText fdevice ++ "\n")] else []) ++
      [say "ecc mode: ",
        say (switchText eccmode
          [(1, "SDDC 128b 1LM\n"), (2, "SDDC 125b 1LM\n"), (3, "SDDC 125b 2LM\n"),
            (4, "ADDDC 80b 1LM\n"), (5, "ADDDC 80b 2LM\n"), (9, "5x8 128b 1LM\n"),
            (10, "5x8 125b 1LM\n"), (11, "5x8 125b 2LM\n")] "Invalid/unknown ECC mode\n")]

/-- `diamond_decode_model` (diamond.c:299-359) -/
def diamondDecodeModel (m : Mce) : List Event :=
  let status := m.status
  let imh := toString (diamondImh m)
  let f := extract status 16 23
  if m.bank = 4 then
    say "CBB Punit: " ::
      if extract status 0 15 = 0x040b then [say "Scan-at-Field Error\n"]
      else
        switchBitfield (extract status 24 31) f
          [(0x00, cbbPunit0), (0x08, cbbPunit8), (0x0c, cbbPunit12), (0x14, cbbPunit20)]
  else if m.bank = 11 then
    [say ("IMH" ++ imh ++ " Punit: "),
      if extract status 24 31 ≠ 0 then .bitfield (extract status 24 31) imhPunit1
      else .bitfield f imhPunit0]
  else if m.bank = 18 then
    say "UPI: " :: switchBitfield (extract status 24 31) f [(0x00, upi0), (0x02, upi2)]
  else if 19 ≤ m.bank ∧ m.bank ≤ 26 then
    say ("IMH" ++ imh ++ " MCCHAN: ") ::
      switchBitfield (extract status 24 31) f
        [(0x00, mcchan0), (0x01, mcchan1), (0x02, mcchan2), (0x04, mcchan4), (0x08, mcchan8)] ++
      if extract status 59 59 ≠ 0 ∧ extract status 33 33 ≠ 0 then diamondImcMisc status m.misc
      else []
  else []

end Mcelog.Decode.Diamond
