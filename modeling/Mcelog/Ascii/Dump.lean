import Mathlib.Data.Fin.VecNotation
import Mcelog.Ascii.Tokens

/-!
# Printing a record

Model of the field lines that `dump_mce` prints, for a CPU type whose banks are
numbered. The time zone and the frequency of the TSC are not part of the
program: `localtime` and the text of the decoded TSC are parameters.
-/

namespace Mcelog.Ascii

open Mcelog.Common Mcelog.Machine

/-! ## Dates -/

/-- A broken down time of the C library. -/
structure Tm where
  wday : Fin 7
  mon : Fin 12
  mday : ℕ
  hour : Fin 24
  min : Fin 60
  /-- 60 in a leap second -/
  sec : Fin 61
  /-- the year itself, not counted from 1900 -/
  year : ℤ
  mday_range : 1 ≤ mday ∧ mday ≤ 31
  year_range : -2 ^ 31 ≤ year ∧ year < 2 ^ 31

def wdayName : Fin 7 → String := !["Sun", "Mon", "Tue", "Wed", "Thu", "Fri", "Sat"]

def monName : Fin 12 → String :=
  !["Jan", "Feb", "Mar", "Apr", "May", "Jun", "Jul", "Aug", "Sep", "Oct", "Nov", "Dec"]

/-- `%.2d` -/
def printTwo (n : ℕ) : List Char := (Nat.toDigits 10 n).leftpad 2 '0'

/-- `asctime`: `"%.3s %.3s%3d %.2d:%.2d:%.2d %d\n"` -/
def asctime (tm : Tm) : List Char :=
  (wdayName tm.wday).toList ++ (' ' :: ((monName tm.mon).toList ++
    ((Nat.toDigits 10 tm.mday).leftpad 3 ' ' ++ (' ' :: (printTwo tm.hour ++
      (":".toList ++ (printTwo tm.min ++ (":".toList ++ (printTwo tm.sec ++
        (' ' :: (printInt tm.year ++ ['\n'])))))))))))

/-! ## The environment of `dump_mce` -/

/-- The values that `fmt_tsc` prints (tsc.c:36-49). The frequency is a rounded
    floating point number. -/
structure TscText where
  mhz : List Char
  days : UInt32
  hours : UInt32
  mins : UInt32
  secs : UInt32
  mhz_number : ∀ c ∈ mhz, c ∈ "-0123456789infa".toList

/-- `"[at %.0f Mhz %u days %u:%u:%u uptime (unreliable)]"` -/
def fmtTsc (t : TscText) : List Char :=
  "[at ".toList ++ (t.mhz ++ (" Mhz ".toList ++ (Nat.toDigits 10 t.days.toNat ++
    (" days ".toList ++ (Nat.toDigits 10 t.hours.toNat ++ (":".toList ++
      (Nat.toDigits 10 t.mins.toNat ++ (":".toList ++ (Nat.toDigits 10 t.secs.toNat ++
        " uptime (unreliable)]".toList)))))))))

structure DumpEnv where
  /-- the local time, unless the year overflows -/
  localtime : ℤ → Option Tm
  /-- `decode_tsc_forced` or `decode_tsc_current`, if one of them succeeds -/
  decodeTsc : (cpu : UInt32) → (tsc time : UInt64) → Option TscText

/-- `ctime`, printed with `%s`; the C library prints a null pointer as `(null)`. -/
def ctime (env : DumpEnv) (t : ℤ) : List Char :=
  match env.localtime t with
  | some tm => asctime tm
  | none => "(null)".toList

/-! ## Lines -/

/-- `sizeof(struct mce)` -/
def sizeofMce : ℕ := 128

/-- The CPU number that is printed. -/
def cpuNumber (m : Mce) : UInt32 := if m.extcpu ≠ 0 then m.extcpu else m.cpu.toUInt32

/-- The text of the decoded TSC; empty if it is not decoded. -/
def decodedTsc (env : DumpEnv) (m : Mce) : List Char :=
  match env.decodeTsc (cpuNumber m) m.tsc m.time with
  | some t => fmtTsc t
  | none => []

/-- `"TSC %llx %s"` (`print_tsc`, mcelog.c:162-174) -/
def printTsc (env : DumpEnv) (m : Mce) : List Char :=
  "TSC ".toList ++ (Nat.toDigits 16 m.tsc.toNat ++ (' ' :: decodedTsc env m))

/-- `"CPU %d %s "`, the TSC and a newline (mcelog.c:346-349); `bankname` is
    `"BANK %d"`. -/
def cpuLine (env : DumpEnv) (m : Mce) : List Char :=
  "CPU ".toList ++ (printInt (cpuNumber m).toInt32.toInt ++ (" BANK ".toList ++
    (Nat.toDigits 10 m.bank.toNat ++ (' ' :: ((if m.tsc ≠ 0 then printTsc env m else []) ++
      ['\n'])))))

/-- `"NAME %llx "`, if it is printed. -/
def optionalField (printed : Bool) (name : String) (n : ℕ) : List Char :=
  if printed then name.toList ++ (' ' :: (Nat.toDigits 16 n ++ [' '])) else []

/-- `"MISC %llx "` and `"ADDR %llx "` (mcelog.c:354-360) -/
def miscAddrLine (m : Mce) : List Char :=
  let misc := optionalField (m.status &&& mciStatusMiscv != 0) "MISC" m.misc.toNat
  let addr := optionalField (m.status &&& mciStatusAddrv != 0) "ADDR" m.addr.toNat
  misc ++ (addr ++ if misc ++ addr ≠ [] then ['\n'] else [])

/-- `"TIME %llu %s"` (mcelog.c:361-364) -/
def timeLine (env : DumpEnv) (m : Mce) : List Char :=
  if m.time ≠ 0 then
    "TIME ".toList ++ (Nat.toDigits 10 m.time.toNat ++ (' ' :: ctime env m.time.toInt64.toInt))
  else []

/-- `"STATUS %llx MCGSTATUS %llx\n"` (mcelog.c:374) -/
def statusLine (m : Mce) : List Char :=
  "STATUS ".toList ++ (Nat.toDigits 16 m.status.toNat ++ (" MCGSTATUS ".toList ++
    (Nat.toDigits 16 m.mcgstatus.toNat ++ ['\n'])))

/-- `"MCGCAP %llx "`, `"APICID %x "` and `"SOCKETID %x "` (mcelog.c:375-383) -/
def socketLine (m : Mce) (recordlen : ℕ) : List Char :=
  let mcgcap := optionalField (recordlen > 60 && m.mcgcap != 0) "MCGCAP" m.mcgcap.toNat
  let apicid := optionalField (recordlen > 76) "APICID" m.apicid.toNat
  let socketid := optionalField (recordlen > offsetofSocketid) "SOCKETID" m.socketid.toNat
  mcgcap ++ (apicid ++ (socketid ++ if mcgcap ++ (apicid ++ socketid) ≠ [] then ['\n'] else []))

/-- `"PPIN %llx\n"` (mcelog.c:385-386) -/
def ppinLine (m : Mce) (recordlen : ℕ) : List Char :=
  if recordlen > 104 ∧ m.ppin ≠ 0 then
    "PPIN ".toList ++ (Nat.toDigits 16 m.ppin.toNat ++ ['\n']) else []

/-- `"MICROCODE %x\n"` (mcelog.c:388-389) -/
def microcodeLine (m : Mce) (recordlen : ℕ) : List Char :=
  if recordlen > 112 ∧ m.microcode ≠ 0 then
    "MICROCODE ".toList ++ (Nat.toDigits 16 m.microcode.toNat ++ ['\n']) else []

/-- `parse_cpuid` (mcelog.c:187-207): family, model and stepping. -/
def parseCpuid (cpuid : UInt32) : ℕ × ℕ × ℕ :=
  let v := cpuid.toNat
  let baseFamily := v / 2 ^ 8 % 16
  let family := if baseFamily = 0xf then baseFamily + v / 2 ^ 20 % 256 else baseFamily
  let model := v / 2 ^ 4 % 16
  (family, if family ≥ 6 then model + v / 2 ^ 16 % 16 * 2 ^ 4 else model, v % 16)

/-- `cpuvendor_name` (mcelog.c:284-287). -/
def cpuvendorName (cpuvendor : UInt8) : String :=
  (vendors[cpuvendor.toNat]?).getD "Unknown vendor"

/-- `"CPUID Vendor %s Family %u Model %u Step %u\n"` (mcelog.c:391-399) -/
def cpuidLine (m : Mce) (recordlen : ℕ) : List Char :=
  if recordlen > 60 ∧ m.cpuid ≠ 0 then
    let (family, model, step) := parseCpuid m.cpuid
    "CPUID Vendor ".toList ++ ((cpuvendorName m.cpuvendor).toList ++ (" Family ".toList ++
      (Nat.toDigits 10 family ++ (" Model ".toList ++ (Nat.toDigits 10 model ++
        (" Step ".toList ++ (Nat.toDigits 10 step ++ ['\n'])))))))
  else []

/-- The field lines of `dump_mce` (mcelog.c:337-399), in their order. -/
def dumpMce (env : DumpEnv) (m : Mce) (recordlen : ℕ) : List Char :=
  cpuLine env m ++ (miscAddrLine m ++ (timeLine env m ++ (statusLine m ++
    (socketLine m recordlen ++ (ppinLine m recordlen ++ (microcodeLine m recordlen ++
      cpuidLine m recordlen))))))

end Mcelog.Ascii
