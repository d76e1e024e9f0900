import Mcelog.Decode.Bitfield

/-!
# Zhaoxin KH-40000 and KH-50000

The tables and decoders of `zhaoxin-kh40000.c` and `zhaoxin-kh50000.c`. The caches of both
report their errors with the architectural code `0x1`, so that the cache threshold trigger
is run here and not in `decode_mca`.
-/

namespace Mcelog.Decode

open Mcelog.Machine

/-- `m->extcpu ? m->extcpu : m->cpu` as an `int` -/
def cpuOf (m : Mce) : ℤ := (if m.extcpu ≠ 0 then m.extcpu else m.cpu.toUInt32).toInt32.toInt

/-- The cache threshold trigger of the model (zhaoxin-kh40000.c:209-216,
    zhaoxin-kh50000.c:320-327) -/
def khYellow (m : Mce) (level : ℤ) (levelStr : String) : List Event :=
  if m.mcgcap &&& mcgTesP = 0 ∨ m.status &&& mciStatusUc ≠ 0 ∨ extract m.status 0 15 ≠ 0x1 ∨
      extract m.status 53 54 ≠ 0x2 then []
  else
    [.action (.runYellowTrigger (cpuOf m) 2 level "Generic" levelStr m.socketid.toInt32.toInt)]

/-- The lines for a valid MISC of a memory error (zhaoxin-kh40000.c:263-273,
    zhaoxin-kh50000.c:437-445) -/
def khMemMisc (misc : UInt64) (mode : String) : List Event :=
  [say ("CRC/PAR MRP Log: 0x" ++ hexText (extract misc 31 63).toNat ++ "\n"),
    say ("Rank: " ++ toString (extract misc 25 26).toNat ++ "\n"),
    say ("ECC ERROR Syndrome Single Bit: 0x" ++ hexText (extract misc 9 16).toNat ++ "\n"),
    say ("Addr Mode: " ++ mode ++ "\n")]

namespace Kh40000

/-- `cpu_error_str` (zhaoxin-kh40000.c:47-52) -/
def cpuErrorStr : List (Option String) := plain [
    "Unknown Error", "Thermal Trip", "Machine Hung", "Undefined Ucode Address"]

/-- `cpu_error_fields` (zhaoxin-kh40000.c:54-57) -/
def cpuErrorFields : List Field := [tableField 24 cpuErrorStr]

/-- `error_coreid` (zhaoxin-kh40000.c:59-65) -/
def errorCoreid : List Numfield := [
    numberForce 16 17 "Core id", numberForce 18 19 "Cluster id", numberForce 20 22 "Subnode id",
    numberForce 23 23 "Socket id"]

/-- `cache_error_str` (zhaoxin-kh40000.c:67-72) -/
def cacheErrorStr : List (Option String) := plain [
    "Unknown Error", "ECC single bit for data part in the same line",
    "ECC single bit for different line", "ECC multi bit for data part"]

/-- `cache_error_fields` (zhaoxin-kh40000.c:74-77) -/
def cacheErrorFields : List Field := [tableField 24 cacheErrorStr]

/-- `svid_error_str` (zhaoxin-kh40000.c:79-85) -/
def svidErrorStr : List (Option String) := plain [
    "No error", "SVID Resend fail error", "VRM Over current error", "VRM Over temp error",
    "VRM Parity error"]

/-- `svid_error_fields` (zhaoxin-kh40000.c:87-90) -/
def svidErrorFields : List Field := [tableField 24 svidErrorStr]

/-- `zpi_error_str` (zhaoxin-kh40000.c:92-106) -/
def zpiErrorStr : List (Option String) := plain [
    "Unknown error", "Receiver Overflow Status", "Flow Control Protocol Error Status",
    "Surprise Down Error Status", "Data Link Protocol Error Status",
    "Replay Timer Timeout Error Status", "REPLAY_NUM Rollover Status",
    "Bad Data Link Layer Packet Status", "Bad TLP Status", "Receiver Error Status",
    "Unsupported/Undefined Packet", "Link-Width down-mode due to Link Unreliable",
    "Link-Speed down-mode due to Link Unreliable"]

/-- `zpi_error_fields` (zhaoxin-kh40000.c:108-111) -/
def zpiErrorFields : List Field := [tableField 16 zpiErrorStr]

/-- `zpi_dev_flag_str` (zhaoxin-kh40000.c:113-118) -/
def zpiDevFlagStr : List (Option String) := plain ["opi0", "opi1(reserved)", "zpi", "unknown"]

/-- `pcie_error_str` (zhaoxin-kh40000.c:120-124) -/
def pcieErrorStr : List (Option String) := plain [
    "Fatal error", "Non-fatal error", "Correctable error"]

/-- `pcie_error_fields` (zhaoxin-kh40000.c:126-129) -/
def pcieErrorFields : List Field := [tableField 16 pcieErrorStr]

/-- `mem_specific_error_str` (zhaoxin-kh40000.c:132-142) -/
def memSpecificErrorStr : List (Option String) := plain [
    "Unknown error", "Single bit ECC error", "Multiple bit ECC error", "command parity error",
    "CRC error", "Parity error retry failed", "CRC error retry failed", "CPUIF DVAD decode error",
    "MCUTRF DVAD decode error"]

/-- `mem_specific_fields` (zhaoxin-kh40000.c:144-147) -/
def memSpecificFields : List Field := [tableField 16 memSpecificErrorStr]

/-- `mem_addmod_str` (zhaoxin-kh40000.c:149-154) -/
def memAddmodStr : List (Option String) := plain ["Unknown", "Unknown", "DRAMC", "DVAD"]

/-- `decode_cpu_error` (zhaoxin-kh40000.c:166-173) -/
def decodeCpuError (m : Mce) : List Event :=
  if extract m.status 30 31 = 0x1 then
    [say "CPU: ", .bitfield m.status cpuErrorFields, .numfield m.status errorCoreid]
  else []

/-- `decode_cache_error` (zhaoxin-kh40000.c:175-217) -/
def decodeCacheError (m : Mce) : List Event :=
  if extract m.status 30 31 ≠ 0x1 then []
  else
    let fields : List Event :=
      [.bitfield m.status cacheErrorFields, .numfield m.status errorCoreid]
    if m.bank = 1 then say "PL2 cache: " :: fields ++ khYellow m 2 "Level-2"
    else if m.bank = 0x11 then say "LLC cache: " :: fields ++ khYellow m 3 "Level-3"
    else []

/-- `decode_svid_error` (zhaoxin-kh40000.c:219-225) -/
def decodeSvidError (m : Mce) : List Event :=
  say "SVID: " ::
    (if m.status &&& mciStatusMiscv ≠ 0 then
      [say ("vrm " ++ toString (extract m.misc 24 25).toNat ++ " ")]
    else []) ++
    [.bitfield m.status svidErrorFields]

/-- `decode_zpi_error` (zhaoxin-kh40000.c:227-233) -/
def decodeZpiError (m : Mce) : List Event :=
  say "ZPI: " ::
    (if m.status &&& mciStatusMiscv ≠ 0 then
      [say (((zpiDevFlagStr.getD (extract m.misc 25 26).toNat none).getD "") ++ " ")]
    else []) ++
    [.bitfield m.status zpiErrorFields]

/-- `decode_pcie_error` (zhaoxin-kh40000.c:234-242) -/
def decodePcieError (m : Mce) : List Event :=
  [say "PCIe: ", .bitfield m.status pcieErrorFields]

/-- `decode_mem_error` (zhaoxin-kh40000.c:244-274) -/
def decodeMemError (m : Mce) : List Event :=
  say "Model specific (KH-40000): " ::
    (if extract m.status 0 15 = 0x1 then [say "DVAD Error, "] else []) ++
    [say "Internal Error Code: ", .bitfield m.status memSpecificFields] ++
    if m.status &&& mciStatusMiscv ≠ 0 then
      khMemMisc m.misc ((memAddmodStr.getD (extract m.misc 6 8).toNat none).getD "Unknown")
    else []

/-- `kh40000_decode_model` (zhaoxin-kh40000.c:276-300) -/
def kh40000DecodeModel (m : Mce) : List Event :=
  if m.bank = 0 then decodeCpuError m
  else if m.bank = 1 ∨ m.bank = 0x11 then decodeCacheError m
  else if m.bank = 4 then decodeSvidError m
  else if m.bank = 5 then decodeZpiError m
  else if m.bank = 6 then decodePcieError m
  else if m.bank = 9 ∨ m.bank = 0xA then decodeMemError m
  else []

end Kh40000

namespace Kh50000

/-- `cpu_error_str` (zhaoxin-kh50000.c:85-90) -/
def cpuErrorStr : List (Option String) := plain [
    "Unknown error", "Unknown error", "Machine hung error", "Undefined ucode address error"]

/-- `error_coreid` (zhaoxin-kh50000.c:92-97) -/
def errorCoreid : List Numfield := [
    numberForce 23 24 "siod_id", numberForce 19 22 "ccd_id", numberForce 16 18 "core_id"]

/-- `cpu_error_fields` (zhaoxin-kh50000.c:99-102) -/
def cpuErrorFields : List Field := [tableField 25 cpuErrorStr]

/-- `cache_error_str` (zhaoxin-kh50000.c:104-109) -/
def cacheErrorStr : List (Option String) := plain [
    "Unknown Error", "ECC single bit error for data part in the same line",
    "ECC single bit error for different line", "ECC multi bit error for data part"]

/-- `pl2_cache_error_fields` (zhaoxin-kh50000.c:111-114) -/
def pl2CacheErrorFields : List Field := [tableField 24 cacheErrorStr]

/-- `llc_cache_error_fields` (zhaoxin-kh50000.c:116-119) -/
def llcCacheErrorFields : List Field := [tableField 25 cacheErrorStr]

/-- `pcie_error_str` (zhaoxin-kh50000.c:121-125) -/
def pcieErrorStr : List (Option String) := plain [
    "Fatal error", "Non-fatal error", "Correctable error"]

/-- `pcie_error_fields` (zhaoxin-kh50000.c:127-130) -/
def pcieErrorFields : List Field := [tableField 16 pcieErrorStr]

/-- `iod_zdi_zpi_error_str` (zhaoxin-kh50000.c:132-157) -/
def iodZdiZpiErrorStr : List (Option String) := plain [
    "Unknown error", "Receiver overflow status error(TL)", "Flow control protocol error(TL)",
    "Surprise down error", "Data link protocol error(DLL)", "Replay timer timeout error(DLL)",
    "REPLAY_NUM Rollover error(DLL)", "Bad data link layer packet error(DLL)",
    "Bad transaction layer packet error(DLL)", "Receiver error(PHY)", "PHY training error(PHY)",
    "Link-width down-mode due to link unreliable", "Unknown error", "Unknown error",
    "Link-speed down-mode due to link unreliable", "Unknown error",
    "X32X24 Link-width down-mode due to link unreliable",
    "X16X12 Link-width down-mode due to link unreliable",
    "X8 Link-width down-mode due to link unreliable",
    "X4 Link-width down-mode due to link unreliable",
    "X2 Link-width down-mode due to link unreliable",
    "GEN4 Link-speed down-mode due to link unreliable",
    "GEN3 Link-speed down-mode due to link unreliable",
    "GEN2 Link-speed down-mode due to link unreliable"]

/-- `iod_zdi_zpi_error_fields` (zhaoxin-kh50000.c:159-162) -/
def iodZdiZpiErrorFields : List Field := [tableField 16 iodZdiZpiErrorStr]

/-- `ccd_zdi_error_str` (zhaoxin-kh50000.c:164-183) -/
def ccdZdiErrorStr : List (Option String) := plain [
    "Unknown error", "Receive overflow error", "PHY training error", "FC protocol error",
    "Surprise down error", "DLLM protocol error", "DLLM replay timeout error",
    "DLLM replay number rollover report", "Bad DLLP error", "Bad TLP error",
    "Gen2 unreliable error", "Gen3 unreliable error", "Gen4 unreliable error",
    "X2 unreliable error", "X4 unreliable error", "X8 unreliable error", "X16/X12 unreliable error",
    "X32/X24 unreliable error"]

/-- `ccd_zdi_error_fields` (zhaoxin-kh50000.c:185-188) -/
def ccdZdiErrorFields : List Field := [tableField 25 ccdZdiErrorStr]

/-- `svid_error_str` (zhaoxin-kh50000.c:190-196) -/
def svidErrorStr : List (Option String) := plain [
    "No error", "SVID Resend fail error", "VRM Over current error", "VRM Over temp error",
    "VRM Parity error"]

/-- `svid_error_fields` (zhaoxin-kh50000.c:198-201) -/
def svidErrorFields : List Field := [tableField 24 svidErrorStr]

/-- `mem_error_mccod_str` (zhaoxin-kh50000.c:203-212) -/
def memErrorMccodStr : List (Option String) := plain [
    "Generic undefined request error", "Memory read error", "Memory write error",
    "Address/Command error", "Memory scrubbing error",
    "data poison enable, Error source is dramc, master normal read",
    "data poison enable, Error source is dramc, patrol read", "key hit error"]

/-- `mem_channel_str` (zhaoxin-kh50000.c:214-227) -/
def memChannelStr : List (Option String) := plain [
    "channel A0", "channel B0", "channel A1", "channel B1", "channel C0", "channel C1",
    "channel A2", "channel B2", "channel C2", "channel A3", "channel B3", "channel C3"]

/-- `mem_specific_error_str` (zhaoxin-kh50000.c:229-247) -/
def memSpecificErrorStr : List (Option String) := plain [
    "Unknown error", "Single bit ECC error", "Multiple bit ECC error", "Command parity error",
    "CRC error", "Parity error retry failed", "CRC error retry failed",
    "CPUIF CHA0 DVAD decode error(reserved)", "CPUIF CHB0 DVAD decode error(reserved)",
    "CPUIF CHA1 DVAD decode error(reserved)", "CPUIF CHB1 DVAD decode error(reserved)",
    "MCUTRF DVAD decode error(reserved)", "GMINT CHA0 DVAD decode error(reserved)",
    "GMINT CHB0 DVAD decode error(reserved)", "GMINT CHA1 DVAD decode error(reserved)",
    "GMINT CHB1 DVAD decode error(reserved)", "Key not hit error"]

/-- `mem_specific_error_fields` (zhaoxin-kh50000.c:249-252) -/
def memSpecificErrorFields : List Field := [tableField 16 memSpecificErrorStr]

/-- `hif_error_str` (zhaoxin-kh50000.c:255-263) -/
def hifErrorStr : List (Option String) := plain [
    "Unknown error", "HIF dvad error", "SNT multi bit ecc error", "SNT single bit ecc error",
    "CXL decpoison uc error", "CXL decpoison ce error", "CXL parity error"]

/-- `hif_error_fields` (zhaoxin-kh50000.c:265-268) -/
def hifErrorFields : List Field := [tableField 16 hifErrorStr]

/-- `decode_cpu_error` (zhaoxin-kh50000.c:280-284) -/
def decodeCpuError (m : Mce) : List Event :=
  [.numfield m.status errorCoreid, .bitfield m.status cpuErrorFields]

/-- `decode_cache_error` (zhaoxin-kh50000.c:286-328) -/
def decodeCacheError (m : Mce) : List Event :=
  if extract m.status 30 31 ≠ 0x1 then []
  else if m.bank = 1 then
    [say "PL2 cache: ", .bitfield m.status pl2CacheErrorFields] ++ khYellow m 2 "Level-2"
  else if m.bank = 0x11 then
    [.numfield m.status errorCoreid, say "LLC cache: ", .bitfield m.status llcCacheErrorFields] ++
      khYellow m 3 "Level-3"
  else []

/-- `decode_pcie_error` (zhaoxin-kh50000.c:330-338) -/
def decodePcieError (m : Mce) : List Event :=
  [say "PCIe: ", .bitfield m.status pcieErrorFields]

/-- The device number in MISC (zhaoxin-kh50000.c:349-356, 366-373) -/
def deviceName (name : String) (count : ℕ) (m : Mce) (devnum : UInt64) : List Event :=
  if m.status &&& mciStatusMiscv ≠ 0 then
    match (List.range count).find? fun idx => testPrefix (UInt32.ofNat idx) devnum.toUInt32 with
    | some idx => [say (name ++ toString idx ++ " ")]
    | none => []
  else []

/-- `decode_zdi_zpi_error` (zhaoxin-kh50000.c:340-379) -/
def decodeZdiZpiError (m : Mce) : List Event :=
  if m.bank = 3 ∨ m.bank = 5 then
    say "IOD_ZDI: " :: deviceName "zdi" 6 m (extract m.misc 25 30) ++
      [.bitfield m.status iodZdiZpiErrorFields]
  else if m.bank = 7 then
    [.numfield m.status errorCoreid, say "CCD_ZDI: ", .bitfield m.status ccdZdiErrorFields]
  else if m.bank = 0x1A then
    say "ZPI: " :: deviceName "zpi" 3 m (extract m.misc 25 27) ++
      [.bitfield m.status iodZdiZpiErrorFields]
  else []

/-- `decode_svid_error` (zhaoxin-kh50000.c:381-404) -/
def decodeSvidError (m : Mce) : List Event :=
  let svidStr :=
    if m.bank = 4 then "svid0" else if m.bank = 0x1B then "svid1"
    else if m.bank = 0x16 then "svid2" else "svid"
  say ("SVID: " ++ svidStr ++ " ") ::
    (if m.status &&& mciStatusMiscv ≠ 0 then
      [say ("vrm " ++ toString (extract m.misc 24 25).toNat ++ " ")]
    else []) ++
    [.bitfield m.status svidErrorFields]

/-- The architectural part of a memory error (zhaoxin-kh50000.c:419-432) -/
def memErrorCode (code : UInt64) : List Event :=
  if code = 0x1 then [say "DVAD Error, "]
  else if code &&& ((1 : UInt64) <<< 7) ≠ 0 then
    let memErrCode := (extract code 4 6).toNat
    (match memChannelStr.getD (extract code 0 3).toNat none with
      | some channel => [say (channel ++ ", ")]
      | none => []) ++
    if 5 ≤ memErrCode then
      match memErrorMccodStr.getD memErrCode none with
      | some text => [say (text ++ ", ")]
      | none => []
    else []
  else []

/-- `decode_mem_error` (zhaoxin-kh50000.c:406-446) -/
def decodeMemError (m : Mce) : List Event :=
  say "Model specific (KH-50000): " :: memErrorCode (extract m.status 0 15) ++
    [say "Internal Error Code: ", .bitfield m.status memSpecificErrorFields] ++
    if m.status &&& mciStatusMiscv ≠ 0 then
      khMemMisc m.misc (if extract m.misc 6 8 = 2 then "SVA" else "Unknown")
    else []

/-- `decode_hif_error` (zhaoxin-kh50000.c:448-472) -/
def decodeHifError (m : Mce) : List Event :=
  let hifStr :=
    if m.bank = 0x1C then "hif0" else if m.bank = 0x1D then "hif1"
    else if m.bank = 0x1E then "hif2" else if m.bank = 0x1F then "hif3" else "hif"
  [say ("HIF: " ++ hifStr ++ " "), .bitfield m.status hifErrorFields]

/-- `kh50000_decode_model` (zhaoxin-kh50000.c:474-522) -/
def kh50000DecodeModel (m : Mce) : List Event :=
  if m.bank = 0 then decodeCpuError m
  else if m.bank = 1 ∨ m.bank = 0x11 then decodeCacheError m
  else if m.bank = 2 ∨ m.bank = 6 then decodePcieError m
  else if m.bank = 3 ∨ m.bank = 5 ∨ m.bank = 7 ∨ m.bank = 0x1A then decodeZdiZpiError m
  else if m.bank = 4 ∨ m.bank = 0x1B ∨ m.bank = 0x16 then decodeSvidError m
  else if 9 ≤ m.bank ∧ m.bank ≤ 0x10 ∨ 0x12 ≤ m.bank ∧ m.bank ≤ 0x15 then decodeMemError m
  else if 0x1C ≤ m.bank ∧ m.bank ≤ 0x1F then decodeHifError m
  else []

end Kh50000

end Mcelog.Decode
