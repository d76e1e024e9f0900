import Mcelog.Decode.Bitfield

/-!
# The older Intel decoders

The tables and decoders of `core2.c`, `nehalem.c`, `dunnington.c` and `tulsa.c`, and
`p4_decode_model`. They test the MCA error code of the status as it is, with the corrected
filtering bit.
-/

namespace Mcelog.Decode

open Mcelog.Machine

/-! ## P6, Core 2 and P4 -/

/-- `bus_queue_req_type` (core2.c:12-34) -/
def busQueueReqType : List (Option String) := strings [
    one 0 "BQ_DCU_READ_TYPE", one 2 "BQ_IFU_DEMAND_TYPE", one 3 "BQ_IFU_DEMAND_NC_TYPE",
    one 4 "BQ_DCU_RFO_TYPE", one 5 "BQ_DCU_RFO_LOCK_TYPE", one 6 "BQ_DCU_ITOM_TYPE",
    one 8 "BQ_DCU_WB_TYPE", one 10 "BC_DCU_WCEVICT_TYPE", one 11 "BQ_DCU_WCLINE_TYPE",
    one 12 "BQ_DCU_BTM_TYPE", one 13 "BQ_DCU_INTACK_TYPE", one 14 "BQ_DCU_INVALL2_TYPE",
    one 15 "BQ_DCU_FLUSHL2_TYPE", one 16 "BQ_DCU_PART_RD_TYPE", one 18 "BQ_DCU_PART_WR_TYPE",
    one 20 "BQ_DCU_SPEC_CYC_TYPE", one 24 "BQ_DCU_IO_RD_TYPE", one 25 "BQ_DCU_IO_WR_TYPE",
    one 28 "BQ_DCU_LOCK_RD_TYPE", one 30 "BQ_DCU_SPLOCK_RD_TYPE", one 29 "BQ_DCU_LOCK_WR_TYPE"]

/-- `bus_queue_error_type` (core2.c:37-43) -/
def busQueueErrorType : List (Option String) := strings [
    one 0 "BQ_ERR_HARD_TYPE", one 1 "BQ_ERR_DOUBLE_TYPE", one 2 "BQ_ERR_AERR2_TYPE",
    one 4 "BQ_ERR_SINGLE_TYPE", one 5 "BQ_ERR_AERR1_TYPE"]

/-- `p6_shared_status` (core2.c:45-64) -/
def p6SharedStatus : List Field := [
    tableField 16 reserved3bits, tableField 19 busQueueReqType, tableField 25 busQueueErrorType,
    tableField 25 busQueueErrorType, sbitField 30 "internal BINIT",
    sbitField 36 "received parity error on response transaction",
    sbitField 38 "timeout BINIT (ROB timeout). No micro-instruction retired for some time",
    tableField 39 reserved3bits, sbitField 42 "bus transaction received hard error response",
    sbitField 43 "failure that caused IERR",
    sbitField 44 "two failing bus transactions with address parity error (AERR)",
    sbitField 45 "uncorrectable ECC error", sbitField 46 "correctable ECC error",
    tableField 55 reserved2bits]

/-- `p6old_status` (core2.c:66-74) -/
def p6oldStatus : List Field := [
    sbitField 28 "FRC error", sbitField 29 "BERR on this CPU", tableField 31 reserved1bit,
    tableField 32 reserved3bits, sbitField 35 "BINIT received from external bus",
    sbitField 37 "Received hard error response on split transaction (Bus BINIT)"]

/-- `core2_status` (core2.c:76-85) -/
def core2Status : List Field := [
    sbitField 28 "MCE driven", sbitField 29 "MCE is observed", sbitField 31 "BINIT observed",
    tableField 32 reserved2bits, sbitField 34 "PIC or FSB data parity error",
    tableField 35 reserved1bit, sbitField 37 "FSB address parity error detected"]

/-- `p6old_status_numbers` (core2.c:87-90) -/
def p6oldStatusNumbers : List Numfield := [hexNumber 47 54 "ECC syndrome"]

/-- `core2_decode_model` (core2.c:92-98) -/
def core2DecodeModel (status : UInt64) : List Event :=
  [.call .core2DecodeModel, .bitfield status p6SharedStatus, .bitfield status core2Status,
    .numfield status p6oldStatusNumbers]

/-- `p6old_decode_model` (core2.c:100-105) -/
def p6oldDecodeModel (status : UInt64) : List Event :=
  [.call .p6oldDecodeModel, .bitfield status p6SharedStatus, .bitfield status p6oldStatus,
    .numfield status p6oldStatusNumbers]

/-- `MD` of `p4_decode_model` (p4.c:257-269) -/
def p4ModelBits : List (UInt32 × String) :=
  [(16, "FSB address parity"), (17, "Response hard fail"), (18, "Response parity"),
    (19, "PIC and FSB data parity"), (20, "Invalid PIC request(Signature=0xF04H)"),
    (21, "Pad state machine"), (22, "Pad strobe glitch"), (23, "Pad address glitch")]

/-- `p4_decode_model` (p4.c:255-278) -/
def p4DecodeModel (model : UInt32) : List Event :=
  [.call .p4DecodeModel, say "Model:"] ++
    (p4ModelBits.filter fun e => model &&& ((1 : UInt32) <<< e.1) ≠ 0).map
      (fun e => say (e.2 ++ "\n")) ++
    [say "\n"]

/-! ## Nehalem -/

/-- `qpi_status` (nehalem.c:31-44) -/
def qpiStatus : List Field := [
    sbitField 16 "QPI header had bad parity", sbitField 17 "QPI Data packet had bad parity",
    sbitField 18 "Number of QPI retries exceeded",
    sbitField 19 "Received QPI data packet that was poisoned by sender",
    sbitField 20 "QPI reserved 20", sbitField 21 "QPI reserved 21",
    sbitField 22 "QPI received unsupported message encoding",
    sbitField 23 "QPI credit type is not supported",
    sbitField 24 "Sender sent too many QPI flits to the receiver",
    sbitField 25 "QPI Sender sent a failed response to receiver",
    sbitField 26 "Clock jitter detected in internal QPI clocking"]

/-- `qpi_misc` (nehalem.c:46-51) -/
def qpiMisc : List Field := [
    sbitField 14 "QPI misc reserved 14", sbitField 15 "QPI misc reserved 15",
    sbitField 24 "QPI Interleave/Head Indication Bit (IIB)"]

/-- `qpi_numbers` (nehalem.c:53-59) -/
def qpiNumbers : List Numfield := [
    hexNumber 0 7 "QPI class and opcode of packet with error",
    hexNumber 8 13 "QPI Request Transaction ID",
    numberForce 16 18 "QPI Requestor/Home Node ID (RHNID)",
    hexNumber 19 23 "QPI miscreserved 19-23"]

/-- `nhm_memory_status` (nehalem.c:61-72) -/
def nhmMemoryStatus : List Field := [
    sbitField 16 "Memory read ECC error", sbitField 17 "Memory ECC error occurred during scrub",
    sbitField 18 "Memory write parity error",
    sbitField 19 "Memory error in half of redundant memory", sbitField 20 "Memory reserved 20",
    sbitField 21 "Memory access out of range", sbitField 22 "Memory internal RTID invalid",
    sbitField 23 "Memory address parity error", sbitField 24 "Memory byte enable parity error"]

/-- `nhm_memory_status_numbers` (nehalem.c:74-79) -/
def nhmMemoryStatusNumbers : List Numfield := [
    hexNumber 25 37 "Memory MISC reserved 25..37",
    numberForce 38 52 "Memory corrected error count (CORE_ERR_CNT)",
    hexNumber 53 56 "Memory MISC reserved 53..56"]

/-- `nhm_memory_misc_numbers` (nehalem.c:81-87) -/
def nhmMemoryMiscNumbers : List Numfield := [
    hexNumberForce 0 7 "Memory transaction Tracker ID (RTId)",
    numberForce 16 17 "Memory DIMM ID of error", numberForce 18 19 "Memory channel ID of error",
    hexNumberForce 32 63 "Memory ECC syndrome"]

/-- `internal_errors` (nehalem.c:89-97) -/
def internalErrors : List (Option String) := strings [
    one 0x0 "No Error", one 0x3 "Reset firmware did not complete",
    one 0x8 "Received an invalid CMPD", one 0xa "Invalid Power Management Request",
    one 0xd "Invalid S-state transition",
    one 0x11 "VID controller does not match POC controller selected",
    one 0x1a "MSID from POC does not match CPU MSID"]

/-- `internal_error_status` (nehalem.c:99-102) -/
def internalErrorStatus : List Field := [tableField 24 internalErrors]

/-- `internal_error_numbers` (nehalem.c:104-108) -/
def internalErrorNumbers : List Numfield := [
    hexNumber 16 23 "Internal machine check status reserved 16..23",
    hexNumber 32 56 "Internal machine check status reserved 32..56"]

/-- `nehalem_decode_model` (nehalem.c:144-162) -/
def nehalemDecodeModel (status misc : UInt64) : List Event :=
  let mca := mcaOf status
  let miscv := status &&& mciStatusMiscv ≠ 0
  if mca >>> 11 = 1 then
    .bitfield status qpiStatus ::
      if miscv then [.numfield misc qpiNumbers, .bitfield misc qpiMisc] else []
  else if mca = 0x0001 then
    [.bitfield status internalErrorStatus, .numfield status internalErrorNumbers]
  else if mca >>> 7 = 1 then
    [.bitfield status nhmMemoryStatus, .numfield status nhmMemoryStatusNumbers] ++
      if miscv then [.numfield misc nhmMemoryMiscNumbers] else []
  else []

/-- `xeon75xx_decode_model` (nehalem.c:164-173) -/
def xeon75xxDecodeModel (status : UInt64) : List Event :=
  if mcaOf status = 0x0001 then
    [.bitfield status internalErrorStatus, .numfield status internalErrorNumbers]
  else []

/-! ## Dunnington and Tulsa -/

/-- `dunnington_decode_internal` and `tulsa_decode_internal` (dunnington.c:92-103,
    tulsa.c:106-117) with their tables -/
def decodeInternal (front int cecc uecc : List Field) (status : UInt64) : List Event :=
  let mca := (status >>> 16) &&& 0xffff
  if mca &&& 0xfff0 = 0 then [.bitfield mca front]
  else if mca &&& 0xf0ff = 0 then [.bitfield mca int]
  else if mca &&& 0xfff0 = 0xc000 then [.bitfield mca cecc]
  else if mca &&& 0xfff0 = 0xe000 then [.bitfield mca uecc]
  else []

/-- `dunnington_bus_status` (dunnington.c:29-40) -/
def dunningtonBusStatus : List Field := [
    sbitField 16 "Parity error detected during FSB request phase", tableField 17 reserved3bits,
    sbitField 20 "Hard Failure response received for a local transaction",
    sbitField 21 "Parity error on FSB response field detected",
    sbitField 22 "Parity data error on inbound data detected", tableField 23 reserved3bits,
    tableField 25 reserved3bits, tableField 28 reserved3bits, tableField 31 reserved1bit]

/-- `dnt_front_error` (dunnington.c:42-53) -/
def dntFrontError : List (Option String) := sized 0xf [
    one 0x1 "Inclusion error from core 0", one 0x2 "Inclusion error from core 1",
    one 0x3 "Write Exclusive error from core 0", one 0x4 "Write Exclusive error from core 1",
    one 0x5 "Inclusion error from FSB", one 0x6 "SNP stall error from FSB",
    one 0x7 "Write stall error from FSB", one 0x8 "FSB Arbiter Timeout error",
    one 0xA "Inclusion error from core 2", one 0xB "Write exclusive error from core 2"]

/-- `dnt_int_error` (dunnington.c:55-61) -/
def dntIntError : List (Option String) := sized 0xf [
    one 0x2 "Internal timeout error", one 0x3 "Internal timeout error",
    one 0x4 "Intel Cache Safe Technology Queue full error\nor disabled ways in a set overflow",
    one 0x5 "Quiet cycle timeout error (correctable)"]

/-- `dnt_int_status` (dunnington.c:63-66) -/
def dntIntStatus : List Field := [tableField 8 dntIntError]

/-- `dnt_front_status` (dunnington.c:68-71) -/
def dntFrontStatus : List Field := [tableField 0 dntFrontError]

/-- `dnt_cecc` (dunnington.c:73-78) -/
def dntCecc : List Field := [
    sbitField 1 "Correctable ECC event on outgoing core 0 data",
    sbitField 2 "Correctable ECC event on outgoing core 1 data",
    sbitField 3 "Correctable ECC event on outgoing core 2 data"]

/-- `dnt_uecc` (dunnington.c:80-85) -/
def dntUecc : List Field := [
    sbitField 1 "Uncorrectable ECC event on outgoing core 0 data",
    sbitField 2 "Uncorrectable ECC event on outgoing core 1 data",
    sbitField 3 "Uncorrectable ECC event on outgoing core 2 data"]

/-- `dunnington_decode_bus` (dunnington.c:87-90) -/
def dunningtonDecodeBus (status : UInt64) : List Event :=
  [.call .dunningtonDecodeBus, .bitfield status dunningtonBusStatus]

/-- `dunnington_decode_internal` (dunnington.c:92-103) -/
def dunningtonDecodeInternal (status : UInt64) : List Event :=
  .call .dunningtonDecodeInternal ::
    decodeInternal dntFrontStatus dntIntStatus dntCecc dntUecc status

/-- `dunnington_decode_model` (dunnington.c:105-111) -/
def dunningtonDecodeModel (status : UInt64) : List Event :=
  if mcaOf status = 0xe0f then dunningtonDecodeBus status
  else if mcaOf status = (1 : UInt32) <<< 10 then dunningtonDecodeInternal status
  else []

/-- `corr_numbers` (tulsa.c:29-32) -/
def corrNumbers : List Numfield := [number 32 39 "Corrected events"]

/-- `ecc_numbers` (tulsa.c:34-37) -/
def eccNumbers : List Numfield := [hexNumber 44 51 "ECC syndrome"]

/-- `tls_bus_status` (tulsa.c:39-55) -/
def tlsBusStatus : List Field := [
    sbitField 16 "Parity error detected during FSB request phase",
    sbitField 17 "Partity error detected on Core 0 request's address field",
    sbitField 18 "Partity error detected on Core 1 request's address field",
    tableField 19 reserved1bit, sbitField 20 "Parity error on FSB response field detected",
    sbitField 21 "FSB data parity error on inbound date detected",
    sbitField 22 "Data parity error on data received from Core 0 detected",
    sbitField 23 "Data parity error on data received from Core 1 detected",
    sbitField 24 "Detected an Enhanced Defer parity error phase A or phase B",
    sbitField 25 "Data ECC event to error on inbound data correctable or uncorrectable",
    sbitField 26 "Pad logic detected a data strobe glitch or sequencing error",
    sbitField 27 "Pad logic detected a request strobe glitch or sequencing error",
    tableField 28 reserved3bits, tableField 31 reserved1bit]

/-- `tls_front_error` (tulsa.c:57-67) -/
def tlsFrontError : List (Option String) := sized 0xf [
    one 0x1 "Inclusion error from core 0", one 0x2 "Inclusion error from core 1",
    one 0x3 "Write Exclusive error from core 0", one 0x4 "Write Exclusive error from core 1",
    one 0x5 "Inclusion error from FSB", one 0x6 "SNP stall error from FSB",
    one 0x7 "Write stall error from FSB", one 0x8 "FSB Arbiter Timeout error",
    one 0x9 "CBC OOD Queue Underflow/overflow"]

/-- `tls_int_error` (tulsa.c:69-75) -/
def tlsIntError : List (Option String) := sized 0xf [
    one 0x1 "Enhanced Intel SpeedStep Technology TM1-TM2 Error", one 0x2 "Internal timeout error",
    one 0x3 "Internal timeout error",
    one 0x4 "Intel Cache Safe Technology Queue full error\nor disabled ways in a set overflow"]

/-- `tls_int_status` (tulsa.c:77-80) -/
def tlsIntStatus : List Field := [tableField 8 tlsIntError]

/-- `tls_front_status` (tulsa.c:82-85) -/
def tlsFrontStatus : List Field := [tableField 0 tlsFrontError]

/-- `tls_cecc` (tulsa.c:87-92) -/
def tlsCecc : List Field := [
    sbitField 0 "Correctable ECC event on outgoing FSB data",
    sbitField 1 "Correctable ECC event on outgoing core 0 data",
    sbitField 2 "Correctable ECC event on outgoing core 1 data"]

/-- `tls_uecc` (tulsa.c:94-99) -/
def tlsUecc : List Field := [
    sbitField 0 "Uncorrectable ECC event on outgoing FSB data",
    sbitField 1 "Uncorrectable ECC event on outgoing core 0 data",
    sbitField 2 "Uncorrectable ECC event on outgoing core 1 data"]

/-- `tulsa_decode_bus` (tulsa.c:101-104) -/
def tulsaDecodeBus (status : UInt64) : List Event :=
  [.call .tulsaDecodeBus, .bitfield status tlsBusStatus]

/-- `tulsa_decode_internal` (tulsa.c:106-117) -/
def tulsaDecodeInternal (status : UInt64) : List Event :=
  .call .tulsaDecodeInternal ::
    decodeInternal tlsFrontStatus tlsIntStatus tlsCecc tlsUecc status

/-- `tulsa_decode_model` (tulsa.c:119-133) -/
def tulsaDecodeModel (status misc : UInt64) : List Event :=
  .numfield status corrNumbers ::
    (if status &&& ((1 : UInt64) <<< 52) ≠ 0 then [.numfield status eccNumbers] else []) ++
    (if status &&& mciStatusMiscv ≠ 0 then
      [say ("MISC format " ++ hexText ((status >>> 40) &&& 3).toNat ++ " value " ++
        hexText misc.toNat ++ "\n")]
    else []) ++
    (if mcaOf status = 0xe0f then tulsaDecodeBus status
    else if mcaOf status = (1 : UInt32) <<< 10 then tulsaDecodeInternal status
    else [])

end Mcelog.Decode
