import Mcelog.Decode.Bitfield

/-!
# Granite Rapids, Sierra Forest and Clearwater Forest

The tables and the decoder of `granite.c`.
-/

namespace Mcelog.Decode.Granite

open Mcelog.Machine

/-- `upi_2` (granite.c:26-48) -/
def upi2Str : List (Option String) := strings [
    one 0x00 "UC Phy Initialization Failure (NumInit)",
    one 0x01 "UC Phy Detected Drift Buffer Alarm",
    one 0x02 "UC Phy Detected Latency Buffer Rollover",
    one 0x10 "UC LL Rx detected CRC error: unsuccessful LLR (entered Abort state)",
    one 0x11 "UC LL Rx Unsupported/Undefined packet", one 0x12 "UC LL or Phy Control Error",
    one 0x13 "UC LL Rx Parameter Exception", one 0x14 "UC LL TDX Failure",
    one 0x15 "UC LL SGX Failure", one 0x16 "UC LL Tx SDC Parity Error",
    one 0x17 "UC LL Rx SDC Parity Error", one 0x18 "UC LL FLE Failure",
    one 0x1F "UC LL Detected Control Error", one 0x20 "COR Phy Initialization Abort",
    one 0x21 "COR Phy Inband Reset", one 0x22 "COR Phy Lane failure, recovery in x8 width",
    one 0x23 "COR Phy L0c error corrected without Phy reset",
    one 0x24 "COR Phy L0c error triggering Phy reset",
    one 0x25 "COR Phy L0p exit error corrected with reset",
    one 0x30 "COR LL Rx detected CRC error: successful LLR without Phy Reinit",
    one 0x31 "COR LL Rx detected CRC error: successful LLR with Phy Reinit"]

/-- `upi2` (granite.c:50-53) -/
def upi2 : List Field := [tableField 0 upi2Str]

/-- `punit_errs_1` (granite.c:55-65) -/
def punitErrs1Str : List (Option String) := strings [
    span 0x02 0x3 "Power Management Unit microcontroller double-bit ECC error",
    span 0x08 0x9 "Power Management Unit microcontroller error",
    one 0x0a "Power Management Unit microcontroller patch load error",
    one 0x0b "Power Management Unit microcontroller POReqValid error",
    one 0x10 "Power Management Unit microcontroller TeleSRAM double-bit ECC error",
    one 0x20 "Power Management Agent signaled error", one 0x80 "S3M signaled error",
    one 0xa0 "Power Management Unit HPMSRAM double-bit ECC error detected",
    one 0xb0 "Power Management Unit TPMISRAM double-bit ECC error detected"]

/-- `punit1` (granite.c:67-70) -/
def punit1 : List Field := [tableField 0 punitErrs1Str]

/-- `punit_errs_2` (granite.c:72-89) -/
def punitErrs2Str : List (Option String) := strings [
    one 0x09 "MCA_TSC_DOWNLOAD_TIMEOUT: TSC download timed out",
    one 0x0b "MCA_GPSB_TIMEOUT: GPSB does not respond within timeout value",
    one 0x0c "MCA_PMSB_TIMEOUT: PMSB does not respond within timeout value",
    one 0x10 "MCA_PMAX_CALIB_ERROR: PMAX calibration error",
    one 0x1a "MCA_DISP_RUN_BUSY_TIMEOUT: Dispatcher busy beyond timeout",
    one 0x1d "MCA_MORE_THAN_ONE_LT_AGENT: During Boot Mode Processing, >1 LT Agent detected",
    one 0x23 "MCA_PCU_SVID_ERROR: SVID error",
    one 0x35 "MCA_SVID_LOADLINE_INVALID: Invalid SVID VCCIN Loadline resistance value",
    one 0x36 "MCA_SVID_ICCMAX_INVALID: Invalid SVID ICCMAX value",
    one 0x40 "MCA_SVID_VIDMAX_INVALID: Invalid SVID VID_MAX value",
    one 0x41 "MCA_SVID_VDDRAMP_INVALID: Invalid ramp voltage for VDD_RAMP",
    one 0x48 "MCA_ITD_FUSE_INVALID: ITD fuse settings are not valid",
    one 0x49 "MCA_SVID_DC_LL_INVALID: ITD fuse settings are not valid",
    one 0x4a "MCA_FIVR_PD_HARDERR: PM event has issued some FIVR Fault",
    one 0x4c "MCA_HPM_DOUBLE_BIT_ERROR_DETECTED: Read from HPM SRAM resulted in Double bit error",
    one 0x56 "SVID_ACTIVE_VID_FUSE_ERROR: Invaid fuse values programmed for SVID Active vid"]

/-- `punit2` (granite.c:91-94) -/
def punit2 : List Field := [tableField 0 punitErrs2Str]

/-- `b2cmi_1` (granite.c:96-107) -/
def b2cmi1Str : List (Option String) := strings [
    one 0x01 "Read ECC error", one 0x02 "Bucket1 error", one 0x03 "Tracker Parity error",
    one 0x04 "Security mismatch", one 0x07 "Read completion parity error",
    one 0x08 "Response parity error", one 0x09 "Timeout error", one 0x0a "Address parity error",
    one 0x0c "CMI credit over subscription error", one 0x0d "SAI mismatch error"]

/-- `b2cmi1` (granite.c:109-112) -/
def b2cmi1 : List Field := [tableField 0 b2cmi1Str]

/-- `mcchan_0` (granite.c:114-128) -/
def mcchan0Str : List (Option String) := strings [
    one 0x01 "Address Parity Error (APPP)", one 0x02 "CMI Wr data parity Error on sCH0",
    one 0x03 "CMI Uncorr/Corr ECC error on sCH0", one 0x04 "CMI Wr BE parity Error on sCH0",
    one 0x05 "CMI Wr MAC parity Error on sCH0", one 0x08 "Corr Patrol Scrub Error",
    one 0x10 "UnCorr Patrol Scrub Error", one 0x20 "Corr Spare Error",
    one 0x40 "UnCorr Spare Error",
    one 0x80 "Transient or Correctable Error for Demand or Underfill Reads",
    one 0xa0 "Uncorrectable Error for Demand or Underfill Reads",
    one 0xb0 "Poison was read from memory when poison was disabled in memory controller",
    one 0xc0 "Read 2LM MetaData Error"]

/-- `mcchan_1` (granite.c:130-137) -/
def mcchan1Str : List (Option String) := strings [
    one 0x00 "WDB Read Parity Error on sCH0", one 0x02 "WDB Read Uncorr/Corr ECC Error on sCH0",
    one 0x04 "WDB BE Read Parity Error on sCH0",
    one 0x06 "WDB Read Persistent Corr ECC Error on sCH0", one 0x08 "DDR Link Fail",
    one 0x09 "Illegal incoming opcode"]

/-- `mcchan_2` (granite.c:139-141) -/
def mcchan2Str : List (Option String) := strings [one 0x00 "DDR CAParity or WrCRC Error"]

/-- `mcchan_4` (granite.c:143-145) -/
def mcchan4Str : List (Option String) := strings [one 0x00 "Scheduler address parity error"]

/-- `mcchan_8` (granite.c:147-150) -/
def mcchan8Str : List (Option String) := strings [
    one 0x32 "MC Internal Errors", one 0x33 "MCTracker Address RF parity error"]

/-- `mcchan_32` (granite.c:152-157) -/
def mcchan32Str : List (Option String) := strings [
    one 0x02 "CMI Wr data parity Error on sCH1", one 0x03 "CMI Uncorr/Corr ECC error on sCH1",
    one 0x04 "CMI Wr BE parity Error on sCH1", one 0x05 "CMI Wr MAC parity Error on sCH1"]

/-- `mcchan_33` (granite.c:159-164) -/
def mcchan33Str : List (Option String) := strings [
    one 0x00 "WDB Read Parity Error on sCH1", one 0x02 "WDB Read Uncorr/Corr ECC Error on sCH1",
    one 0x04 "WDB BE Read Parity Error on sCH1",
    one 0x06 "WDB Read Persistent Corr ECC Error on sCH1"]

/-- `mcchan0` (granite.c:166-169) -/
def mcchan0 : List Field := [tableField 0 mcchan0Str]

/-- `mcchan1` (granite.c:171-174) -/
def mcchan1 : List Field := [tableField 0 mcchan1Str]

/-- `mcchan2` (granite.c:176-179) -/
def mcchan2 : List Field := [tableField 0 mcchan2Str]

/-- `mcchan4` (granite.c:181-184) -/
def mcchan4 : List Field := [tableField 0 mcchan4Str]

/-- `mcchan8` (granite.c:186-189) -/
def mcchan8 : List Field := [tableField 0 mcchan8Str]

/-- `mcchan32` (granite.c:191-194) -/
def mcchan32 : List Field := [tableField 0 mcchan32Str]

/-- `mcchan33` (granite.c:196-199) -/
def mcchan33 : List Field := [tableField 0 mcchan33Str]

/-- `granite_imc_misc` (granite.c:201-237) -/
def graniteImcMisc (status misc : UInt64) : List Event :=
  let mscod := extract status 16 31
  let column := (extract misc 9 18 <<< 2).toNat
  let row := (extract misc 19 36).toNat
  let bank := (extract misc 37 38).toNat
  let bankgroup := (extract misc 39 41).toNat
  let fdevice := (extract misc 43 48).toNat
  let subrank := (extract misc 51 54).toNat
  let chipselect := (extract misc 55 57).toNat
  let eccmode := extract misc 58 61
  let transient := extract misc 63 63
  if 0x800 ≤ mscod ∧ mscod ≤ 0x82f then []
  else
    [say ("bank: 0x" ++ hexText bank ++ " bankgroup: 0x" ++ hexText bankgroup ++ " row: 0x" ++
      hexText row ++ " column: 0x" ++ hexText column ++ "\n")] ++
    (if transient = 0 then [say ("failed device: 0x" ++ hexText fdevice ++ "\n")] else []) ++
    [say ("chipselect: 0x" ++ hexText chipselect ++ " subrank: 0x" ++ hexText subrank ++ "\n"),
      say "ecc mode: ",
      say (switchText eccmode
        [(1, "SDDC 128b 1LM\n"), (2, "SDDC 125b 1LM\n"), (3, "SDDC 96b 1LM\n"),
          (4, "SDDC 96b 2LM\n"), (5, "ADDDC 80b 1LM\n"), (6, "ADDDC 80b 2LM\n"),
          (7, "ADDDC 64b 1LM\n"), (8, "9x4 61b 1LM\n"), (9, "9x4 32b 1LM\n"),
          (10, "9x4 32b 2LM\n")] "Invalid/unknown ECC mode\n")] ++
    if transient ≠ 0 then [say "transient\n"] else []

/-- `granite_decode_model` (granite.c:239-282) -/
def graniteDecodeModel (bank : UInt8) (status misc : UInt64) : List Event :=
  if bank = 5 then [say "UPI: ", .bitfield (extract status 16 31) upi2]
  else if bank = 6 then
    [say "Punit: ", .bitfield (extract status 16 23) punit1,
      .bitfield (extract status 24 31) punit2]
  else if bank = 12 then [say "B2CMI: ", .bitfield (extract status 16 31) b2cmi1]
  else if 13 ≤ bank ∧ bank ≤ 24 then
    say "MCCHAN: " ::
      switchBitfield (extract status 24 31) (extract status 16 23)
        [(0, mcchan0), (1, mcchan1), (2, mcchan2), (4, mcchan4), (8, mcchan8), (32, mcchan32),
          (33, mcchan33)] ++
      if extract status 59 59 ≠ 0 ∧ extract status 33 33 ≠ 0 then graniteImcMisc status misc
      else []
  else []

end Mcelog.Decode.Granite
