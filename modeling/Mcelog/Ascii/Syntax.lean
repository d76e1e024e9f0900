import Mcelog.Ascii.Fatal
import Mcelog.Ascii.FieldLines

/-!
# Records in a text

The texts that `mcelog --ascii` is made for: one record after the other, each with the
line of its CPU and bank in one of the three accepted formats, and lines of fields.
The numbers, the blanks between them and the fields of a line are free.

* `InputRecord.text`: the lines of a record.
* `InputRecord.given`: the values that they give. A field that is given twice has the
  later value.
-/

namespace Mcelog.Ascii

open Mcelog.Common Mcelog.Machine

/-! ## Pieces of a line -/

/-- Blanks within a line, possibly none. -/
structure Blanks where
  chars : List Char
  isBlank : ∀ c ∈ chars, isSpace c = true ∧ c ≠ '\n'

/-- The blanks that separate two fields. -/
structure Gap extends Blanks where
  ne_nil : chars ≠ []

/-- A number in this base that fits into this many bits, with leading zeros or not; a
    hexadecimal one may have the prefix `0x`. -/
structure Numeral (base bits : ℕ) where
  hex : Bool := false
  digits : List Char
  base_hex : hex = true → base = 16
  ne_nil : digits ≠ []
  isDigit : ∀ c ∈ digits, isDigitOf base c = true
  lt : ofNumeral base digits < 2 ^ bits

def Numeral.text {base bits : ℕ} (n : Numeral base bits) : List Char :=
  (if n.hex then ['0', 'x'] else []) ++ n.digits

def Numeral.value {base bits : ℕ} (n : Numeral base bits) : ℕ := ofNumeral base n.digits

/-- The text between the braces of `RIP`. -/
structure Symbol where
  chars : List Char
  ne_nil : chars ≠ []
  isWord : ∀ c ∈ chars, isSpace c = false ∧ c ≠ '\x00' ∧ c ≠ '\x7d'

/-! ## Fields -/

/-- The fields of one number. -/
inductive NumName
  | status | mcgstatus | tsc | addr | misc | time | mcgcap | apicid | socketid | socket | ppin
  deriving DecidableEq, Repr

def NumName.name : NumName → String
  | .status => "STATUS"
  | .mcgstatus => "MCGSTATUS"
  | .tsc => "TSC"
  | .addr => "ADDR"
  | .misc => "MISC"
  | .time => "TIME"
  | .mcgcap => "MCGCAP"
  | .apicid => "APICID"
  | .socketid => "SOCKETID"
  | .socket => "SOCKET"
  | .ppin => "PPIN"

def NumName.base : NumName → ℕ
  | .time | .socketid | .socket => 10
  | .status | .mcgstatus | .tsc | .addr | .misc | .mcgcap | .apicid | .ppin => 16

def NumName.bits : NumName → ℕ
  | .apicid | .socketid | .socket => 32
  | .status | .mcgstatus | .tsc | .addr | .misc | .time | .mcgcap | .ppin => 64

/-- The field of the record. -/
def NumName.store (m : Mce) (v : ℕ) : NumName → Mce
  | .status => { m with status := .ofNat v }
  | .mcgstatus => { m with mcgstatus := .ofNat v }
  | .tsc => { m with tsc := .ofNat v }
  | .addr => { m with addr := .ofNat v }
  | .misc => { m with misc := .ofNat v }
  | .time => { m with time := .ofNat v }
  | .mcgcap => { m with mcgcap := .ofNat v }
  | .apicid => { m with apicid := .ofNat v }
  | .socketid | .socket => { m with socketid := .ofNat v }
  | .ppin => { m with ppin := .ofNat v }

/-- A field within a line. -/
inductive Item
  | number (name : NumName) (blanks : Blanks) (n : Numeral name.base name.bits)
  /-- `PROCESSOR vendor:cpuid` -/
  | processor (blanks : Blanks) (vendor : Numeral 10 8) (cpuid : Numeral 16 32)

def Item.text : Item → List Char
  | .number name blanks n => name.name.toList ++ (blanks.chars ++ n.text)
  | .processor blanks vendor cpuid =>
    "PROCESSOR".toList ++ (blanks.chars ++ (vendor.text ++ (':' :: cpuid.text)))

/-- The values that a field gives. -/
def Item.give (m : Mce) : Item → Mce
  | .number name _ n => name.store m n.value
  | .processor _ vendor cpuid =>
    { m with cpuvendor := .ofNat vendor.value, cpuid := .ofNat cpuid.value }

/-- More fields of a line, up to its end. -/
def moreText : List (Gap × Item) → Blanks → List Char
  | [], tail => tail.chars ++ ['\n']
  | (gap, item) :: more, tail => gap.chars ++ (item.text ++ moreText more tail)

/-! ## Lines -/

/-- The vendors whose name is one word. -/
def wordVendors : List String :=
  ["Intel", "Cyrix", "AMD", "UMC", "Centaur", "Transmeta", "NSC", "Zhaoxin"]

/-- The lines behind the one of the CPU. -/
inductive FieldLine
  | fields (lead : Blanks) (first : Item) (more : List (Gap × Item)) (tail : Blanks)
  /-- `TIME time date` -/
  | time (lead blanks : Blanks) (n : Numeral 10 64) (date : Tm) (skippable : date.Skippable)
  /-- `RIP cs:<ip> {symbol}`, with and without a symbol -/
  | rip (inexact : Bool) (cs : UInt8) (ip : UInt64) (symbol : Option Symbol) (tail : Blanks)
  /-- `CPUID Vendor name Family family Model model` -/
  | cpuid (vendor : Fin 8) (family model : UInt32)
  | blank (blanks : Blanks)

/-- `symbol` in its braces -/
def symbolText : Option Symbol → List Char
  | none => []
  | some symbol => ' ' :: '\x7b' :: (symbol.chars ++ ['\x7d'])

def vendorName (vendor : Fin 8) : String := wordVendors.get vendor

def FieldLine.text : FieldLine → List Char
  | .fields lead first more tail => lead.chars ++ (first.text ++ moreText more tail)
  | .time lead blanks n date _ =>
    lead.chars ++ ("TIME".toList ++ (blanks.chars ++ (n.text ++ (' ' :: asctime date))))
  | .rip inexact cs ip symbol tail =>
    "RIP".toList ++ ((if inexact then " !INEXACT!".toList else []) ++ (' ' ::
      ((Nat.toDigits 16 cs.toNat).leftpad 2 '0' ++ (":<".toList ++
        ((Nat.toDigits 16 ip.toNat).leftpad 16 '0' ++ ('>' :: (symbolText symbol ++
          (tail.chars ++ ['\n']))))))))
  | .cpuid vendor family model =>
    "CPUID Vendor ".toList ++ ((vendorName vendor).toList ++ (" Family ".toList ++
      (Nat.toDigits 10 family.toNat ++ (" Model ".toList ++ (Nat.toDigits 10 model.toNat ++
        ['\n'])))))
  | .blank blanks => blanks.chars ++ ['\n']

/-- The line of a record's CPU and bank. -/
inductive HeaderLine
  /-- `CPU cpu: Machine Check[ Exception]: mcgstatus Bank bank: status` -/
  | fatal (cpu : UInt32) (exception : Bool) (mcgstatus : UInt64) (bank : UInt8) (status : UInt64)
  /-- `CPU cpu BANK bank` or `CPU cpu bank`, with more fields or not -/
  | plain (named : Bool) (cpu : UInt32) (bank : UInt8) (more : List (Gap × Item)) (tail : Blanks)

/-- The CPU number and the bank without the kernel's text. -/
def plainText (named : Bool) (cpu bank : ℕ) (left : List Char) : List Char :=
  "CPU ".toList ++ (Nat.toDigits 10 cpu ++ ((if named then " BANK " else " ").toList ++
    (Nat.toDigits 10 bank ++ left)))

def HeaderLine.text : HeaderLine → List Char
  | .fatal cpu exception mcgstatus bank status =>
    fatalLine cpu.toNat exception mcgstatus bank status true
  | .plain named cpu bank more tail =>
    plainText named cpu.toNat bank.toNat (moreText more tail)

/-! ## Records -/

/-- What a record is made of: the machine check, and the symbol of its `RIP`. -/
structure Values where
  m : Mce := {}
  symbol : List Char := []
  deriving DecidableEq, Repr

/-- The values that several fields give. -/
def giveAll (m : Mce) (more : List (Gap × Item)) : Mce := more.foldl (fun m p => p.2.give m) m

/-- The values that a line gives. -/
def FieldLine.give (v : Values) : FieldLine → Values
  | .fields _ first more _ => { v with m := giveAll (first.give v.m) more }
  | .time _ _ n _ _ => { v with m := NumName.time.store v.m n.value }
  | .rip _ cs ip symbol _ =>
    { m := { v.m with cs := cs, ip := ip }, symbol := (symbol.map Symbol.chars).getD v.symbol }
  | .cpuid vendor family model =>
    { v with m := { v.m with
        cpuvendor := .ofNat ((vendors.map String.toList).idxOf (vendorName vendor).toList)
        cpuid := unparseCpuid family.toNat model.toNat } }
  | .blank _ => v

def HeaderLine.cpu : HeaderLine → UInt32
  | .fatal cpu .. | .plain _ cpu .. => cpu

/-- The values that the first line gives. A record has one byte for the CPU number. -/
def HeaderLine.give : HeaderLine → Values
  | .fatal cpu _ mcgstatus bank status =>
    { m := { cpu := cpu.toUInt8, mcgstatus := mcgstatus, bank := bank, status := status } }
  | .plain _ cpu bank more _ => { m := giveAll { cpu := cpu.toUInt8, bank := bank } more }

/-- A record in the input. -/
structure InputRecord where
  header : HeaderLine
  lines : List FieldLine

def InputRecord.text (i : InputRecord) : List Char :=
  i.header.text ++ i.lines.flatMap FieldLine.text

/-- The values that a record gives. -/
def InputRecord.given (i : InputRecord) : Values := i.lines.foldl FieldLine.give i.header.give

/-- The decoded record `r` has exactly the values that `i` gives. -/
def InputRecord.CarriedBy (i : InputRecord) (r : AsciiRecord) : Prop :=
  r.m = { i.given.m with finished := 1 } ∧ r.symbol = i.given.symbol ∧
    r.m.cpu.toNat = i.header.cpu.toNat

/-- `decodefatal` makes one record of each record in the input, with its values. -/
def Separates (env : AsciiEnv) (records : List InputRecord) : Prop :=
  List.Forall₂ InputRecord.CarriedBy records
    (finals (decodefatal env (records.flatMap InputRecord.text)))

end Mcelog.Ascii
