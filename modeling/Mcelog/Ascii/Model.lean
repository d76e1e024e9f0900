import Mcelog.Common.Lines
import Mcelog.Common.Run
import Mcelog.Common.Scanf
import Mcelog.Machine.Mce

/-!
# Decoding machine checks from text

Model of `decodefatal`, which reads the kernel's panic messages and mcelog's own
output (`mcelog --ascii`). A line is a sequence of tokens; a token that is not
known ends the record.
-/

namespace Mcelog.Ascii

open Mcelog.Common Mcelog.Machine

/-! ## Text -/

/-- `!strncmp(s, t, n)` for `n` up to the length of `t`. -/
def strncmp (s : List Char) (t : String) (n : ℕ) : Bool := (t.toList.take n).isPrefixOf s

/-- `strstr` -/
def strstr (s : List Char) (needle : String) : Option (List Char) :=
  s.tails.find? fun t => needle.toList.isPrefixOf t

/-- `skipspace` (mcelog.c:517-522). -/
def skipspace (s : List Char) : List Char := s.dropWhile isSpace

/-- `skip_syslog` (mcelog.c:524-533). -/
def skipSyslog (s : List Char) : List Char :=
  match strstr s "mcelog: " with
  | some p => p.drop 8
  | none => s

/-- Skip `<..>` or `[..]` at the start of the text (mcelog.c:540-550). -/
def skipBracket (left right : Char) (s : List Char) : List Char :=
  if s.head? = some left then (s.dropWhile fun c => c ≠ right).drop 1 else s

/-- `skipgunk` (mcelog.c:535-558). -/
def skipgunk (s : List Char) : List Char :=
  let s := skipspace (skipSyslog s)
  let s := skipspace (skipBracket '<' '>' s)
  let s := skipspace (skipBracket '[' ']' s)
  skipspace (if strncmp s "mce: [Hardware Error]:" 22 then s.drop 22 else s)

/-- `fnmatch` for patterns of ordinary characters, `?` and `*`. -/
def fnmatch : List Char → List Char → Bool
  | [], s => s.isEmpty
  | '*' :: pat, s => s.tails.any (fnmatch pat)
  | '?' :: pat, s =>
    match s with
    | [] => false
    | _ :: t => fnmatch pat t
  | c :: pat, s =>
    match s with
    | [] => false
    | x :: t => x == c && fnmatch pat t

/-- `skip_patterns` (mcelog.c:609-616). -/
def skipPatterns : List String :=
  ["MCA:*", "MCi_MISC register valid*", "MC? status*", "Unsupported new Family*",
    "Kernel does not support page offline interface"]

/-- `!match_patterns(s, skip_patterns)` (mcelog.c:618-624). -/
def matchPatterns (s : List Char) : Bool := skipPatterns.any fun pat => fnmatch pat.toList s

/-! ## Dates -/

/-- `is_short` (mcelog.c:565-571). -/
def isShort : List Char → Bool
  | [a, b, c] => a.isUpper && b.isLower && c.isLower
  | _ => false

/-- `urange` (mcelog.c:560-563). -/
def urange (val lo hi : ℕ) : Bool := lo ≤ val && val ≤ hi

/-- `"%10s %10s %u %u:%u:%u %u%n"` -/
def dateFormat : List Directive :=
  [.str (some 10)] ++ literal " " ++ [.str (some 10)] ++ literal " " ++ [conversionU] ++
    literal " " ++ [conversionU] ++ literal ":" ++ [conversionU] ++ literal ":" ++
    [conversionU] ++ literal " " ++ [conversionU, .pos]

/-- `skip_date` (mcelog.c:573-588): the length of a date, 0 if there is none. -/
def skipDate (s : List Char) : ℕ :=
  match (sscanf dateFormat s).args with
  | [.str dayname, .str month, .num day, .num hour, .num min, .num sec, .num year, .pos next] =>
    if isShort dayname && isShort month && urange day 1 31 && urange hour 0 24 &&
        urange min 0 59 && urange sec 0 59 && 1900 ≤ year then next
    else 0
  | _ => 0

/-! ## CPU identification -/

/-- `vendor` (mcelog.c:255-267). -/
def vendors : List String :=
  ["Intel", "Cyrix", "AMD", "UMC", "vendor 4", "Centaur", "vendor 6", "Transmeta", "NSC",
    "vendor 9", "Zhaoxin"]

/-- `strtoul(name, &end, 0)` of a text without white space, if `end > name`. -/
def strtoul (name : List Char) : Option ℕ :=
  let (neg, body) := scanSign name
  let base := match body with
    | '0' :: x :: d :: _ => if (x = 'x' ∨ x = 'X') ∧ isDigitOf 16 d then 16 else 8
    | '0' :: _ => 8
    | _ => 10
  let digits := (scanPrefix base body).takeWhile (isDigitOf base)
  if digits = [] then none else some (strtoValue false neg (ofNumeral base digits))

/-- `cpuvendor_to_num` (mcelog.c:269-282). -/
def cpuvendorToNum (name : List Char) : ℕ :=
  match strtoul name with
  | some v => v % 2 ^ 32
  | none => if name ∈ vendors.map String.toList then (vendors.map String.toList).idxOf name else 0

/-- `unparse_cpuid` (mcelog.c:209-230); the members of `struct cpuid1` are bit
    fields. -/
def unparseCpuid (family model : ℕ) : UInt32 :=
  let fam := if family ≥ 0xf then 0xf else family % 16
  let extFamily := if family ≥ 0xf then (family - 0xf) % 256 else 0
  let extModel := if family ≥ 6 then model / 16 % 16 else 0
  .ofNat (model % 16 * 2 ^ 4 + fam * 2 ^ 8 + extModel * 2 ^ 16 + extFamily * 2 ^ 20)

/-! ## Records -/

/-- What `dump_mce_final` gets. -/
structure AsciiRecord where
  m : Mce := {}
  symbol : List Char := []
  missing : ℕ := 0
  recordlen : ℕ := 0
  disclaimerSeen : Bool := false
  deriving DecidableEq, Repr

/-- The locals of `decodefatal` that live from line to line. -/
structure Decoder where
  record : AsciiRecord := {}
  data : Bool := false
  deriving DecidableEq, Repr

/-- What `decodefatal` prints: a decoded record, or the text of a token that it
    does not know. -/
inductive AsciiOut
  | final (r : AsciiRecord)
  | text (s : List Char)
  deriving DecidableEq, Repr

/-- The settings of `decodefatal`, and the value of the variable `cpu` that the Xen
    branch may read without setting it. -/
structure AsciiEnv where
  dumpRawAscii : Bool
  staleCpu : ℕ

/-- `missing++` -/
def AsciiRecord.miss (r : AsciiRecord) : AsciiRecord := { r with missing := r.missing + 1 }

/-- `FIELD(f)` (mcelog.c:626-628), for the end of `f` in `struct mce`. -/
def AsciiRecord.field (r : AsciiRecord) (endof : ℕ) : AsciiRecord :=
  { r with recordlen := max r.recordlen endof }

/-- An argument of `sscanf` that points into the record. -/
def AsciiRecord.assign (r : AsciiRecord) (v : Option ℕ) (store : Mce → ℕ → Mce) : AsciiRecord :=
  match v with
  | some v => { r with m := store r.m v }
  | none => r

/-- `dump_mce_final` (mcelog.c:590-607) marks the record as finished. -/
def dumpMceFinal (r : AsciiRecord) : AsciiOut := .final { r with m := { r.m with finished := 1 } }

/-- The fields of `struct mce` that extend the record. -/
inductive Field
  | status | misc | addr | mcgstatus | ip | tsc | time | cpuvendor | cpuid | bank | cpu | socketid
  | apicid | mcgcap | ppin
  deriving DecidableEq, Repr

/-- `endof_field(struct mce, f)` -/
def Field.endof : Field → ℕ
  | .status => 8
  | .misc => 16
  | .addr => 24
  | .mcgstatus => 32
  | .ip => 40
  | .tsc => 48
  | .time => 56
  | .cpuvendor => 57
  | .cpuid => 64
  | .bank => 66
  | .cpu => 67
  | .socketid => endofSocketid
  | .apicid => 80
  | .mcgcap => 88
  | .ppin => 112

/-! ## Tokens -/

/-- What the branch for a token leaves behind: the record, `n`, and `next` in the
    text `s`. -/
structure Token where
  record : AsciiRecord
  n : ℤ
  s : List Char
  next : ℕ := 0

/-- A field of one number: `"NAME %llx%n"`. -/
def numField (name : String) (base bits : ℕ) (f : Field) (store : Mce → ℕ → Mce)
    (r : AsciiRecord) (s : List Char) : Token :=
  let scanned := sscanf (literal name ++ [.space, .num base false none bits, .pos]) s
  let r := r.assign (scanned.num? 0) store
  { record := if scanned.ret < 1 then r.miss else r.field f.endof
    n := scanned.ret, s := s, next := (scanned.pos? 1).getD 0 }

def statusToken := numField "STATUS" 16 64 .status fun m v => { m with status := .ofNat v }

def mcgstatusToken :=
  numField "MCGSTATUS" 16 64 .mcgstatus fun m v => { m with mcgstatus := .ofNat v }

def tscToken := numField "TSC" 16 64 .tsc fun m v => { m with tsc := .ofNat v }

def addrToken := numField "ADDR" 16 64 .addr fun m v => { m with addr := .ofNat v }

def miscToken := numField "MISC" 16 64 .misc fun m v => { m with misc := .ofNat v }

def mcgcapToken := numField "MCGCAP" 16 64 .mcgcap fun m v => { m with mcgcap := .ofNat v }

def apicidToken := numField "APICID" 16 32 .apicid fun m v => { m with apicid := .ofNat v }

def socketidToken := numField "SOCKETID" 10 32 .socketid fun m v => { m with socketid := .ofNat v }

def socketToken := numField "SOCKET" 10 32 .socketid fun m v => { m with socketid := .ofNat v }

def ppinToken := numField "PPIN" 16 64 .ppin fun m v => { m with ppin := .ofNat v }

/-- The time is followed by its date, which is skipped (mcelog.c:757-764). -/
def timeToken (r : AsciiRecord) (s : List Char) : Token :=
  let t := numField "TIME" 10 64 .time (fun m v => { m with time := .ofNat v }) r s
  { t with next := t.next + skipDate (s.drop t.next) }

/-- The set `[ :Ec-x]`. -/
def exceptionSet (c : Char) : Bool := c = ' ' || c = ':' || c = 'E' || ('c' ≤ c && c ≤ 'x')

/-- `"CPU %u: Machine Check%*[ :Ec-x]%16Lx Bank %d: %016Lx%n"` -/
def fatalFormat : List Directive :=
  literal "CPU " ++ [conversionU] ++ literal ": Machine Check" ++
    [.skipSet exceptionSet, .num 16 false (some 16) 64] ++ literal " Bank " ++ [conversionD] ++
    literal ": " ++ [.num 16 false (some 16) 64, .pos]

/-- The `CPU` line of the kernel or of mcelog (mcelog.c:668-704). -/
def cpuToken (r : AsciiRecord) (s : List Char) : Token :=
  let fatal := sscanf fatalFormat s
  let r := r.assign (fatal.num? 1) fun m v => { m with mcgstatus := .ofNat v }
  let r := r.assign (fatal.num? 3) fun m v => { m with status := .ofNat v }
  let cpu := (fatal.num? 0).getD 0
  let bank := (fatal.num? 2).getD 0
  let next := (fatal.pos? 4).getD 0
  if fatal.ret = 1 then
    let named := sscanf (literal "CPU " ++ [conversionU] ++ literal " BANK " ++
      [conversionU, .pos]) s
    let plain := sscanf (literal "CPU " ++ [conversionU] ++ literal " " ++ [conversionU, .pos]) s
    let scanned := if named.ret ≠ 2 then plain else named
    -- each scan overwrites what it assigns
    let cpu := (scanned.num? 0).getD ((named.num? 0).getD cpu)
    let bank := (scanned.num? 1).getD ((named.num? 1).getD bank)
    let next := (scanned.pos? 2).getD ((named.pos? 2).getD next)
    let r := { r with m := { r.m with cpu := .ofNat cpu } }
    { record := if scanned.ret < 2 then r.miss
        else { r with m := { r.m with bank := .ofNat bank } }.field Field.bank.endof
      n := scanned.ret, s := s, next := next }
  else if fatal.ret ≤ 0 then { record := r.miss, n := fatal.ret, s := s, next := next }
  else
    let r := r.field Field.mcgstatus.endof
    let r := { r with m := { r.m with cpu := .ofNat cpu } }
    let r := if fatal.ret > 2 then
        { r with m := { r.m with bank := .ofNat bank } }.field Field.bank.endof else r
    let r := if fatal.ret > 3 then r.field Field.status.endof else r
    { record := if fatal.ret < 4 then r.miss else r, n := fatal.ret, s := s, next := next }

/-- `"%02x:<%016Lx> {%99s}%n"` after `RIP` or `RIP !INEXACT!` (mcelog.c:717-735).
    The word of `%99s` takes the closing brace with it. -/
def ripToken (r : AsciiRecord) (s : List Char) : Token :=
  let s := if strncmp s "RIP !INEXACT!" 13 then s.drop 13 else s.drop 3
  let scanned := sscanf ([.num 16 false (some 2) 32] ++ literal ":<" ++
    [.num 16 false (some 16) 64] ++ literal "> \x7b" ++ [.str (some 99)] ++ literal "\x7d" ++
    [.pos]) s
  let r := r.assign (scanned.num? 1) fun m v => { m with ip := .ofNat v }
  let r := { r with
    symbol := (scanned.str? 2).getD r.symbol
    m := { r.m with cs := .ofNat ((scanned.num? 0).getD 0) } }
  { record := if scanned.ret < 2 then r.miss else r.field Field.ip.endof
    n := scanned.ret, s := s, next := (scanned.pos? 3).getD 0 }

/-- `"PROCESSOR %u:%x%n"` (mcelog.c:748-756). -/
def processorToken (r : AsciiRecord) (s : List Char) : Token :=
  let scanned := sscanf (literal "PROCESSOR " ++ [conversionU] ++ literal ":" ++
    [conversionX, .pos]) s
  let r := r.assign (scanned.num? 1) fun m v => { m with cpuid := .ofNat v }
  { record := if scanned.ret < 2 then r.miss
      else ((r.assign (scanned.num? 0) fun m v => { m with cpuvendor := .ofNat v }).field
        Field.cpuid.endof).field Field.cpuvendor.endof
    n := scanned.ret, s := s, next := (scanned.pos? 2).getD 0 }

/-- `"CPUID Vendor %30s Family %u Model %u\n"` (mcelog.c:789-803); the rest of the
    line is not read. -/
def cpuidToken (r : AsciiRecord) (s : List Char) : Token :=
  let scanned := sscanf (literal "CPUID Vendor " ++ [.str (some 30)] ++ literal " Family " ++
    [conversionU] ++ literal " Model " ++ [conversionU] ++ literal "\n") s
  { record := if scanned.ret < 3 then r.miss
      else ({ r with m := { r.m with
          cpuvendor := .ofNat (cpuvendorToNum ((scanned.str? 0).getD []))
          cpuid := unparseCpuid ((scanned.num? 1).getD 0) ((scanned.num? 2).getD 0) } }.field
        Field.cpuid.endof).field Field.cpuvendor.endof
    n := scanned.ret, s := s }

/-- The lines of the Xen hypervisor (mcelog.c:806-826). A `CPU` at the end of the
    line makes `sscanf` return `EOF`, which counts as success. -/
def xenToken (env : AsciiEnv) (r : AsciiRecord) (s : List Char) : Token :=
  match strstr s "The hardware reports a non fatal, correctable incident occurred" with
  | some _ =>
    match strstr s "CPU" with
    | none => { record := r, n := 0, s := s }
    | some w =>
      let scanned := sscanf (literal "CPU " ++ [conversionD]) w
      { record := if scanned.ret = 0 then r
          else { r with m := { r.m with
            cpu := .ofNat ((scanned.num? 0).getD env.staleCpu) } }.field Field.cpu.endof
        n := 0, s := s }
  | none =>
    let scanned := sscanf (literal "(XEN) Bank " ++ [conversionD] ++ literal ": " ++
      [conversionLlx] ++ literal " at " ++ [conversionLlx]) s
    let r := r.assign (scanned.num? 1) fun m v => { m with status := .ofNat v }
    let r := r.assign (scanned.num? 2) fun m v => { m with addr := .ofNat v }
    let r := if scanned.ret ≥ 1 then
        (r.assign (scanned.num? 0) fun m v => { m with bank := .ofNat v }).field Field.bank.endof
      else r
    let r := if scanned.ret ≥ 2 then r.field Field.status.endof else r
    let r := if scanned.ret ≥ 3 then r.field Field.addr.endof else r
    { record := r, n := scanned.ret, s := s }

/-- One branch of `decodefatal`: its test and what it does. -/
structure Branch where
  applies : List Char → Bool
  run : AsciiRecord → List Char → Token

/-- The branches of `decodefatal` in their order (mcelog.c:668-835). -/
def branches (env : AsciiEnv) : List Branch :=
  [⟨(strncmp · "CPU " 4), cpuToken⟩,
    ⟨(strncmp · "STATUS" 6), statusToken⟩,
    ⟨(strncmp · "MCGSTATUS" 6), mcgstatusToken⟩,
    ⟨(strncmp · "RIP" 3), ripToken⟩,
    ⟨(strncmp · "TSC" 3), tscToken⟩,
    ⟨(strncmp · "ADDR" 4), addrToken⟩,
    ⟨(strncmp · "MISC" 4), miscToken⟩,
    ⟨(strncmp · "PROCESSOR" 9), processorToken⟩,
    ⟨(strncmp · "TIME" 4), timeToken⟩,
    ⟨(strncmp · "MCGCAP" 6), mcgcapToken⟩,
    ⟨(strncmp · "APICID" 6), apicidToken⟩,
    ⟨(strncmp · "SOCKETID" 8), socketidToken⟩,
    ⟨(strncmp · "SOCKET" 6), socketToken⟩,
    ⟨(strncmp · "CPUID" 5), cpuidToken⟩,
    ⟨fun s => (strstr s "HARDWARE ERROR").isSome,
      fun r s => { record := { r with disclaimerSeen := true }, n := 0, s := s }⟩,
    ⟨(strncmp · "(XEN)" 5), xenToken env⟩,
    ⟨(strncmp · "PPIN" 4), ppinToken⟩,
    ⟨matchPatterns, fun r s => { record := r, n := 0, s := s }⟩]

/-- The first branch that applies; none for a token that `decodefatal` does not
    know. -/
def token (env : AsciiEnv) (r : AsciiRecord) (s : List Char) : Option Token :=
  ((branches env).find? fun b => b.applies s).map fun b => b.run r s

/-! ## Lines -/

/-- One turn of the loop of `decodefatal` on the text `s`: the locals after it, what
    it prints, and the text to go on with in this line. -/
def decodeToken (env : AsciiEnv) (st : Decoder) (s : List Char) :
    Decoder × List AsciiOut × Option (List Char) :=
  let start := skipgunk s
  match token env st.record start with
  | some t =>
    ({ record := t.record, data := st.data || t.n > 0 }, [],
      if t.next > 0 then some (t.s.drop t.next) else none)
  | none =>
    let text := if env.dumpRawAscii then [] else [AsciiOut.text start]
    if start ≠ [] ∧ st.data then ({}, dumpMceFinal st.record :: text, none)
    else (st, text, none)

/-- The tokens of one line. -/
def decodeTokens (env : AsciiEnv) : ℕ → Decoder → List Char → Decoder × List AsciiOut
  | 0, st, _ => (st, [])
  | fuel + 1, st, s =>
    match decodeToken env st s with
    | (st, outs, none) => (st, outs)
    | (st, outs, some rest) =>
      let (st, more) := decodeTokens env fuel st rest
      (st, outs ++ more)

/-- One line. Every token but the last one moves on in the line. -/
def decodeLine (env : AsciiEnv) (st : Decoder) (line : List Char) : Decoder × List AsciiOut :=
  decodeTokens env (line.length + 1) st line

/-- The lines that `getdelim` reads, as C strings. -/
def getdelimLines (text : List Char) : List (List Char) :=
  ((lines '\n' text).map (· ++ ['\n']) ++ if rest '\n' text = [] then [] else [rest '\n' text]).map
    fun line => line.takeWhile fun c => c ≠ '\x00'

/-- `decodefatal` (mcelog.c:632-854) after the lines `ls`. -/
def decodeLines (env : AsciiEnv) (st : Decoder) (ls : List (List Char)) : List AsciiOut :=
  let last := runState (decodeLine env) st ls
  (runOut (decodeLine env) st ls).flatten ++
    if last.data then [dumpMceFinal last.record] else []

/-- `decodefatal` (mcelog.c:630-854) -/
def decodefatal (env : AsciiEnv) (text : List Char) : List AsciiOut :=
  decodeLines env {} (getdelimLines text)

/-- The records of an output. -/
def finals (outs : List AsciiOut) : List AsciiRecord :=
  outs.filterMap fun o => match o with
    | .final r => some r
    | .text _ => none

end Mcelog.Ascii
