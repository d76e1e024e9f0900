import Mathlib.Data.Int.Notation
import Mathlib.Data.Nat.Bitwise
import Mcelog.Machine.Cputype
import Mcelog.Machine.Mce

/-!
# The MCA error code

Model of `decode_mca` as `p4.c` (Intel) and `zhaoxin.c` (Zhaoxin) define it: the
chain of prefix tests on the MCA error code of the status, what each branch
prints, the triggers it runs, and where `*ismemerr` is set.

* `intelDecodeMca_ismemerr`, `zhaoxinDecodeMca_ismemerr`: both decoders classify
  exactly the codes with prefix 7, after clearing bit 12, as memory errors.
-/

namespace Mcelog.Decode

open Mcelog.Machine

/-! ## Output -/

/-- What the decoders do besides returning a value. -/
inductive Action
  /-- `Wprintf` of this text -/
  | print (text : String)
  | runYellowTrigger (cpu typenum levelnum : ℤ) (type level : String) (socket : ℤ)
  | runBusTrigger (socket cpu : ℤ) (level pp rrrr ii timeout : String)
  | runIomcaTrigger (socket cpu : ℤ) (seg bus dev fn : ℕ)
  deriving DecidableEq, Repr

/-- Result of `decode_mca`: its actions in order, its return value and whether it
    set `*ismemerr`. -/
structure McaResult where
  actions : List Action
  ret : Bool := false
  ismemerr : Bool := false
  deriving DecidableEq, Repr

/-- `%x` -/
def hexText (n : ℕ) : String := String.ofList (Nat.toDigits 16 n)

/-- `%02x` -/
def hexText2 (n : ℕ) : String := String.ofList ((Nat.toDigits 16 n).leftpad 2 '0')

/-! ## String tables -/

/-- A string table with its range check, as `get_TT_str` and its siblings have. -/
def tableStr (table : List String) (i : ℕ) : String := table.getD i "UNKNOWN"

/-- `get_TT_str` (p4.c:50-58, zhaoxin.c:130-140) -/
def getTTStr : ℕ → String := tableStr ["Instruction", "Data", "Generic", "Unknown"]

/-- `get_LL_str` (p4.c:60-68, zhaoxin.c:142-152) -/
def getLLStr : ℕ → String := tableStr ["Level-0", "Level-1", "Level-2", "Level-3"]

/-- `get_RRRR_str` (p4.c:70-91, zhaoxin.c:154-174): the values are the indices. -/
def getRRRRStr : ℕ → String :=
  tableStr ["Generic", "Read", "Write", "Data-Read", "Data-Write", "Instruction-Fetch",
    "Prefetch", "Eviction", "Snoop"]

/-- `get_PP_str` (p4.c:93-106) -/
def intelGetPPStr : ℕ → String :=
  tableStr ["Local-CPU-originated-request", "Responed-to-request",
    "Observed-error-as-third-party", "Generic"]

/-- `get_PP_str` (zhaoxin.c:176-188) -/
def zhaoxinGetPPStr : ℕ → String :=
  tableStr ["Local-CPU-originated-request", "Responded-to-request",
    "Observed-error-as-third-party", "Generic"]

/-- `get_T_str` (p4.c:108-116, zhaoxin.c:190-200) -/
def getTStr : ℕ → String := tableStr ["Request-did-not-timeout", "Request-timed-out"]

/-- `get_II_str` (p4.c:118-127, zhaoxin.c:202-212) -/
def getIIStr : ℕ → String := tableStr ["Memory-access", "Reserved", "IO", "Other-transaction"]

/-- `msg` of `decode_mca` (p4.c:157-165) -/
def intelMsg : List String :=
  ["No Error", "Unclassified", "Microcode ROM parity error", "External error", "FRC error",
    "Internal parity error", "SMM Handler Code Access Violation"]

/-- `msg` of `decode_mca` (zhaoxin.c:262-270) -/
def zhaoxinMsg : List String :=
  ["No Error", "Unclassified Error", "Microcode ROM parity error", "External error",
    "FRC error", "Internal parity error", "SMM Handler Code Access Violation"]

/-- `mmm_desc` (nehalem.c:115-124) -/
def mmmDesc : List String :=
  ["Generic undefined request", "Memory read error", "Memory write error",
    "Address/Command error", "Memory scrubbing error", "Reserved 5", "Reserved 6", "Reserved 7"]

/-- `mmm_mnemonic` (nehalem.c:112-114) -/
def mmmMnemonic : List String := ["GEN", "RD", "WR", "AC", "MS", "RES5", "RES6", "RES7"]

/-- `mem_error_mccod_str` (zhaoxin.c:28-37) -/
def memErrorMccodStr : List String :=
  ["Generic undefined request error", "Memory read error", "Memory write error",
    "Address/Command error", "Memory scrubbing error", "Reserved 5", "Reserved 6", "Reserved 7"]

/-! ## The branches both decoders share -/

section Branches

variable (mca : UInt32) (track : UInt64) (socket cpu : ℤ)

/-- A field of the error code: `(mca & MASK) >> SHIFT`. -/
def field (maskBits shift : UInt32) : ℕ := ((mca &&& maskBits) >>> shift).toNat

/-- `if (track == 2) run_yellow_trigger(..)` -/
def yellow (typenum levelnum : ℤ) (type level : String) : List Action :=
  if track = 2 then [.runYellowTrigger cpu typenum levelnum type level socket] else []

/-- "Generic cache hierarchy error" (p4.c:178-185, zhaoxin.c:284-292). -/
def decodeGenericCache : List Action :=
  let levelnum := field mca 3 0
  let level := getLLStr levelnum
  .print (level ++ " Generic cache hierarchy error\n") ::
    yellow track socket cpu (-1) levelnum "unknown" level

/-- TLB errors (p4.c:186-195, zhaoxin.c:293-303). -/
def decodeTlb : List Action :=
  let typenum := field mca 0xc 2
  let levelnum := field mca 3 0
  .print (getTTStr typenum ++ " TLB " ++ getLLStr levelnum ++ " Error\n") ::
    yellow track socket cpu typenum levelnum (getTTStr typenum) (getLLStr levelnum)

/-- Cache errors (p4.c:196-205, zhaoxin.c:307-317). -/
def decodeCache : List Action :=
  let typenum := field mca 0xc 2
  let levelnum := field mca 3 0 + 1
  .print (getTTStr typenum ++ " CACHE " ++ getLLStr levelnum ++ " " ++
      getRRRRStr (field mca 0xf0 4) ++ " Error\n") ::
    yellow track socket cpu typenum levelnum (getTTStr typenum) (getLLStr levelnum)

/-- Bus and interconnect errors with the IO MCA of a valid MISC (p4.c:216-244,
    zhaoxin.c:327-352); the vendors differ in one table and one word. -/
def decodeBus (getPPStr : ℕ → String) (reporter : String) (status misc : UInt64) : List Action :=
  let level := getLLStr (field mca 3 0)
  let pp := getPPStr (field mca 0x600 9)
  let rrrr := getRRRRStr (field mca 0xf0 4)
  let ii := getIIStr (field mca 0xc 2)
  let timeout := getTStr (field mca 0x100 8)
  [.print ("BUS error: " ++ toString socket ++ " " ++ toString cpu ++ " " ++ level ++ " " ++ pp ++
      " " ++ rrrr ++ " " ++ ii ++ " " ++ timeout ++ "\n"),
    .runBusTrigger socket cpu level pp rrrr ii timeout] ++
  if status &&& mciStatusMiscv ≠ 0 ∧ status &&& 0xefff = 0x0e0b then
    let seg := (extract misc 32 39).toNat
    let bus := (extract misc 24 31).toNat
    let dev := (extract misc 19 23).toNat
    let fn := (extract misc 16 18).toNat
    [.print ("IO MCA reported by " ++ reporter ++ " " ++ hexText seg ++ ":" ++ hexText2 bus ++
        ":" ++ hexText2 dev ++ "." ++ hexText fn ++ "\n"),
      .runIomcaTrigger socket cpu seg bus dev fn]
  else []

end Branches

/-- `mca = status & 0xffff` -/
def mcaOf (status : UInt64) : UInt32 := (status &&& 0xffff).toUInt32

/-- `mca & (1UL << 12)`, the corrected filtering bit. -/
def filtered (mca : UInt32) : Bool := mca &&& ((1 : UInt32) <<< 12) != 0

/-- `mca &= ~(1UL << 12)` -/
def clearFiltered (mca : UInt32) : UInt32 := mca &&& ~~~((1 : UInt32) <<< 12)

/-- The filtering bit is reported and cleared (p4.c:167-171, zhaoxin.c:272-276). -/
def reportFiltered (mca : UInt32) : List Action × UInt32 :=
  if filtered mca then
    ([.print "corrected filtering (some unreported errors in same region)\n"], clearFiltered mca)
  else ([], mca)

/-! ## Intel -/

/-- `decode_memory_controller` (nehalem.c:126-142). -/
def decodeMemoryController (cputype : CpuType) (status : UInt32) (bank : UInt8) : List Action :=
  let channel :=
    if status &&& 0xf = 0xf then "unspecified"
    else if cputype = .knightsLanding ∨ cputype = .knightsMill then
      toString ((status &&& 0xf).toNat + 3 * (if bank = 15 then 1 else 0))
    else toString (status &&& 0xf).toNat
  let code := ((status >>> 4) &&& 7).toNat
  [.print ("MEMORY CONTROLLER " ++ mmmMnemonic.getD code "" ++ "_CHANNEL" ++ channel ++ "_ERR\n"),
    .print ("Transaction: " ++ mmmDesc.getD code "" ++ "\n")]

/-- `decode_mca` (p4.c:129-253). -/
def intelDecodeMca (cputype : CpuType) (status misc track : UInt64) (cpu socket : ℤ)
    (bank : UInt8) : McaResult :=
  let (start, mca) := reportFiltered (mcaOf status)
  if h : mca.toNat < intelMsg.length then
    { actions := start ++ [.print (intelMsg[mca.toNat] ++ "\n")] }
  else if mca >>> 2 = 3 then
    { actions := start ++ decodeGenericCache mca track socket cpu }
  else if testPrefix 4 mca then
    { actions := start ++ decodeTlb mca track socket cpu }
  else if testPrefix 8 mca then
    { actions := start ++ decodeCache mca track socket cpu }
  else if testPrefix 9 mca ∧ extract mca.toUInt64 7 8 = 1 then
    { actions := start ++ .print "Memory as cache: " :: decodeMemoryController cputype mca bank }
  else if testPrefix 10 mca then
    { actions := start ++ [.print (if mca = 0x400 then "Internal Timer error\n"
        else "Internal unclassified error: " ++ hexText (mca &&& 0xffff).toNat ++ "\n")]
      ret := true }
  else if testPrefix 11 mca then
    { actions := start ++ decodeBus mca socket cpu intelGetPPStr "root port" status misc }
  else if testPrefix 7 mca then
    { actions := start ++ decodeMemoryController cputype mca bank, ismemerr := true }
  else
    { actions := start ++ [.print ("Unknown Error " ++ hexText mca.toNat ++ "\n")], ret := true }

/-! ## Zhaoxin -/

/-- `decode_memory_error` (zhaoxin.c:214-233). -/
def decodeMemoryError (status : UInt64) : List Action :=
  let channel :=
    if status &&& 0xf = 0xf then "unspecified" else toString (status &&& 0xf).toNat
  let code := (extract status 4 6).toNat
  [.print ("MCA Error Code: Memory Controller Channel " ++ channel ++ " " ++
    memErrorMccodStr.getD code "Unknown error" ++ "\n")]

/-- `decode_mca` (zhaoxin.c:235-357). -/
def zhaoxinDecodeMca (status misc track : UInt64) (socket cpu : ℤ) : McaResult :=
  let (start, mca) := reportFiltered (mcaOf status)
  if h : mca.toNat < zhaoxinMsg.length then
    { actions := start ++ [.print (zhaoxinMsg[mca.toNat] ++ "\n")] }
  else if mca >>> 2 = 3 then
    { actions := start ++ decodeGenericCache mca track socket cpu }
  else if testPrefix 4 mca then
    { actions := start ++ decodeTlb mca track socket cpu }
  else if testPrefix 7 mca then
    { actions := start ++ decodeMemoryError status, ismemerr := true }
  else if testPrefix 8 mca then
    { actions := start ++ decodeCache mca track socket cpu }
  else if testPrefix 10 mca then
    { actions := start ++ [.print (if mca = 0x400 then "Internal Timer error\n"
        else if mca = 0x402 then "Internal SVID error\n"
        else "Internal unclassified error: " ++ hexText (mca &&& 0xffff).toNat ++ "\n")]
      ret := true }
  else if testPrefix 11 mca then
    { actions := start ++ decodeBus mca socket cpu zhaoxinGetPPStr "PCIe device" status misc }
  else
    { actions := start ++ [.print ("Unknown Error " ++ hexText mca.toNat ++ "\n")], ret := true }

/-! ## Which codes are memory errors -/

/-- The error code after the filtering bit is cleared, as both decoders see it. -/
def decodedMca (status : UInt64) : UInt32 := (reportFiltered (mcaOf status)).2

/-- A code with prefix 7 meets none of the other tests of the decoders. -/
theorem testPrefix_seven_excludes {mca : UInt32} (h : testPrefix 7 mca = true) :
    7 ≤ mca.toNat ∧ mca >>> 2 ≠ 3 ∧ testPrefix 4 mca = false ∧ testPrefix 8 mca = false ∧
      testPrefix 9 mca = false ∧ testPrefix 10 mca = false ∧ testPrefix 11 mca = false := by
  have hrange : 128 ≤ mca.toNat ∧ mca.toNat < 256 := (testPrefix_iff (by decide)).mp h
  have hne : ∀ n : UInt32, n.toNat < 32 → n ≠ 7 → testPrefix n mca = false := by
    intro n hn hn7
    by_contra hp
    exact hn7 (testPrefix_unique hn (by decide) (by simpa using hp) h)
  refine ⟨by omega, ?_, hne 4 (by decide) (by decide), hne 8 (by decide) (by decide),
    hne 9 (by decide) (by decide), hne 10 (by decide) (by decide), hne 11 (by decide) (by decide)⟩
  intro h3
  have hdiv : mca.toNat / 4 = 3 := by
    have := congrArg UInt32.toNat h3
    rw [UInt32.toNat_shiftRight, Nat.shiftRight_eq_div_pow] at this
    exact this
  omega

theorem intelDecodeMca_ismemerr (cputype : CpuType) (status misc track : UInt64)
    (cpu socket : ℤ) (bank : UInt8) :
    (intelDecodeMca cputype status misc track cpu socket bank).ismemerr =
      testPrefix 7 (decodedMca status) := by
  simp only [intelDecodeMca, decodedMca]
  cases h : testPrefix 7 (reportFiltered (mcaOf status)).2 with
  | true =>
    obtain ⟨hmsg, h3, h4, h8, h9, h10, h11⟩ := testPrefix_seven_excludes h
    have hlen : ¬ (reportFiltered (mcaOf status)).2.toNat < intelMsg.length := not_lt.mpr hmsg
    simp [hlen, h3, h4, h8, h9, h10, h11]
  | false =>
    split_ifs <;> simp_all

theorem zhaoxinDecodeMca_ismemerr (status misc track : UInt64) (socket cpu : ℤ) :
    (zhaoxinDecodeMca status misc track socket cpu).ismemerr =
      testPrefix 7 (decodedMca status) := by
  simp only [zhaoxinDecodeMca, decodedMca]
  cases h : testPrefix 7 (reportFiltered (mcaOf status)).2 with
  | true =>
    obtain ⟨hmsg, h3, h4, -⟩ := testPrefix_seven_excludes h
    have hlen : ¬ (reportFiltered (mcaOf status)).2.toNat < zhaoxinMsg.length := not_lt.mpr hmsg
    simp [hlen, h3, h4]
  | false =>
    split_ifs <;> simp_all

/-! ## The filtering bit -/

/-- A code with the filtering bit is at least `2^12`. -/
theorem le_of_filtered {mca : UInt32} (h : filtered mca = true) : 4096 ≤ mca.toNat := by
  rw [filtered, bne_iff_ne, ne_eq, ← UInt32.toNat_inj, UInt32.toNat_and] at h
  change ¬ mca.toNat &&& 2 ^ 12 = 0 at h
  by_contra hlt
  rw [Nat.and_two_pow, Nat.testBit_lt_two_pow (by omega)] at h
  exact h (Nat.zero_mul _)

/-- Clearing a clear bit changes nothing. -/
theorem clearFiltered_of_not_filtered {mca : UInt32} (h : filtered mca = false) :
    clearFiltered mca = mca := by
  rw [filtered, bne_eq_false_iff_eq] at h
  calc clearFiltered mca
      = (mca &&& (1 : UInt32) <<< 12) ||| (mca &&& ~~~((1 : UInt32) <<< 12)) := by
        rw [h, UInt32.zero_or, clearFiltered]
    _ = mca &&& ((1 : UInt32) <<< 12 ||| ~~~((1 : UInt32) <<< 12)) :=
        (UInt32.toBitVec_inj.mp BitVec.and_or_distrib_left).symm
    _ = mca := by rw [UInt32.or_not_self, UInt32.and_neg_one]

theorem decodedMca_eq (status : UInt64) : decodedMca status = clearFiltered (mcaOf status) := by
  rw [decodedMca, reportFiltered]
  cases h : filtered (mcaOf status) with
  | true => simp
  | false => simp [clearFiltered_of_not_filtered h]

end Mcelog.Decode
