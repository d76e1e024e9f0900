import Mcelog.Ascii.Dump
import Mcelog.Ascii.Records

/-!
# Reading a raw dump

`dump_mce_raw_ascii` prints a record with one field a line, the bank on a line of its own.
`decodefatal` reads the bank only behind the CPU number: the line `BANK n` is a token that it
does not know and ends the record.

* `finals_rawDump`: the first record that is read has the CPU number, is incomplete, and is
  followed by others.
* `not_rawRoundTrips`: no record is read back from its raw dump.
-/

namespace Mcelog.Ascii

open Mcelog.Common Mcelog.Machine

/-! ## Printing -/

/-- `%#llx`: a zero has no prefix. -/
def printHex (n : ℕ) : List Char :=
  (if n = 0 then [] else "0x".toList) ++ Nat.toDigits 16 n

/-- `%#02x`: the prefix counts for the width. -/
def printHexTwo (n : ℕ) : List Char := (printHex n).leftpad 2 '0'

/-- A line `"NAME %..\n"`. -/
def rawLine (name : String) (value : List Char) : List Char :=
  name.toList ++ (' ' :: (value ++ ['\n']))

/-- `if (recordlen > offsetof(struct mce, field))` -/
def rawIf (recordlen offset : ℕ) (text : List Char) : List Char :=
  if recordlen > offset then text else []

/-- `"not finished?\n"` -/
def notFinished (m : Mce) : List Char :=
  if m.finished = 0 then "not finished?\n".toList else []

/-- The lines behind the one of the bank (mcelog.c:416-432). -/
def rawFields (m : Mce) (recordlen : ℕ) : List Char :=
  rawLine "TSC" (printHex m.tsc.toNat) ++
    (rawLine "RIP" (printHexTwo m.cs.toNat ++ (':' :: printHex m.ip.toNat)) ++
    (rawLine "MISC" (printHex m.misc.toNat) ++ (rawLine "ADDR" (printHex m.addr.toNat) ++
    (rawLine "STATUS" (printHex m.status.toNat) ++
    (rawLine "MCGSTATUS" (printHex m.mcgstatus.toNat) ++
    (rawIf recordlen 60 (rawLine "PROCESSOR"
      (Nat.toDigits 10 m.cpuvendor.toNat ++ (':' :: printHex m.cpuid.toNat))) ++
    (rawIf recordlen 48 (rawLine "TIME" (Nat.toDigits 10 m.time.toNat)) ++
    (rawIf recordlen offsetofSocketid
      (rawLine "SOCKETID" (Nat.toDigits 10 m.socketid.toNat)) ++
    (rawIf recordlen 76 (rawLine "APICID" (Nat.toDigits 10 m.apicid.toNat)) ++
    (rawIf recordlen offsetofMcgcap (rawLine "MCGCAP" (printHex m.mcgcap.toNat)) ++
    ['\n']))))))))))

/-- `dump_mce_raw_ascii` (mcelog.c:409-433). -/
def dumpMceRawAscii (m : Mce) (recordlen : ℕ) : List Char :=
  notFinished m ++ (rawLine "CPU" (Nat.toDigits 10 (cpuNumber m).toNat) ++
    (rawLine "BANK" (Nat.toDigits 10 m.bank.toNat) ++ rawFields m recordlen))

/-- The fields of `m` that a raw dump prints, as `x` has them. -/
structure RawEqual (m x : Mce) : Prop where
  cpu : cpuNumber x = cpuNumber m
  bank : x.bank = m.bank
  tsc : x.tsc = m.tsc
  cs : x.cs = m.cs
  ip : x.ip = m.ip
  misc : x.misc = m.misc
  addr : x.addr = m.addr
  status : x.status = m.status
  mcgstatus : x.mcgstatus = m.mcgstatus
  cpuvendor : x.cpuvendor = m.cpuvendor
  cpuid : x.cpuid = m.cpuid
  time : x.time = m.time
  socketid : x.socketid = m.socketid
  apicid : x.apicid = m.apicid
  mcgcap : x.mcgcap = m.mcgcap

/-- The raw dump of `m` is read as one complete record with the fields of `m`. -/
def RawRoundTrips (env : AsciiEnv) (m : Mce) : Prop :=
  ∃ r, finals (decodefatal env (dumpMceRawAscii m sizeofMce)) = [r] ∧ RawEqual m r.m ∧
    r.missing = 0

/-! ## Reading -/

section Reading

variable {env : AsciiEnv} {line left : List Char} {value : List Char} {cpu n : ℕ}

theorem finalsFrom_line (h : IsLine line) (env : AsciiEnv) (st : Decoder) (text : List Char) :
    finalsFrom env st (line ++ text) =
      finals (decodeLine env st line).2 ++ finalsFrom env (decodeLine env st line).1 text := by
  rw [finalsFrom, getdelimLines_line h, decodeLines_cons, finals_append]
  rfl

theorem rawLine_clean {name : String} (hname : Clean 'g' name.toList) (hvalue : Clean 'g' value) :
    CleanLine 'g' (rawLine name value) :=
  .append hname (.append (l := [' ']) (by decide) (.append hvalue cleanLine_newline))

/-- The first line is not known, but nothing has been read that it could end. -/
theorem finalsFrom_notFinished (env : AsciiEnv) (m : Mce) (text : List Char) :
    finalsFrom env {} (notFinished m ++ text) = finalsFrom env {} text := by
  unfold notFinished
  split_ifs
  · have hline : IsLine "not finished?\n".toList :=
      ⟨"not finished?".toList, rfl, by decide, by decide⟩
    have hgunk : skipgunk "not finished?\n".toList = "not finished?\n".toList := by decide
    have htoken : token env {} "not finished?\n".toList = none := by
      have hfirst : ((branches env).take 14).find?
          (fun b => b.applies "not finished?\n".toList) = none := rfl
      rw [token_eq_late hfirst (by decide)]
      rfl
    have hread : decodeLine env {} "not finished?\n".toList =
        ({}, unknownText env "not finished?\n".toList) := by
      rw [decodeLine_eq, decodeToken]
      dsimp only
      rw [hgunk, htoken]
      rfl
    rw [finalsFrom_line hline, hread, finals_unknownText]
    rfl
  · rfl

/-- The line `CPU n` has no bank, in none of the three formats. -/
theorem cpuToken_rawLine (hcpu : cpu < 2 ^ 32) (r : AsciiRecord) :
    cpuToken r (rawLine "CPU" (Nat.toDigits 10 cpu)) =
      ⟨{ r with m := { r.m with cpu := .ofNat cpu } }.miss, 1,
        rawLine "CPU" (Nat.toDigits 10 cpu), 0⟩ := by
  set text := rawLine "CPU" (Nat.toDigits 10 cpu) with htext
  have hform : text = "CPU ".toList ++ (Nat.toDigits 10 cpu ++ ['\n']) := rfl
  have hnumber : ∀ total fmt, scan total (literal "CPU " ++ (conversionU :: fmt)) text =
      (.num cpu :: (scan total fmt ['\n']).1, (scan total fmt ['\n']).2) := by
    intro total fmt
    rw [hform, scan_literal "CPU " (by decide) (fun _ => noHead_isSpace_toDigits _ _), conversionU,
      scan_printed (by decide) (by decide) (numberEnds_newline (by decide)) hcpu (by decide)]
  have hfatal : ∀ total, scan total fatalFormat text = ([.num cpu], some .matching) := by
    intro total
    simp only [fatalFormat, List.append_assoc, List.cons_append, List.nil_append]
    rw [hnumber]
    rfl
  have hnamed : ∀ total, scan total (literal "CPU " ++ [conversionU] ++ literal " BANK " ++
      [conversionU, .pos]) text = ([.num cpu], some .input) := by
    intro total
    simp only [List.append_assoc, List.cons_append, List.nil_append]
    rw [hnumber]
    rfl
  have hplain : ∀ total, scan total (literal "CPU " ++ [conversionU] ++ literal " " ++
      [conversionU, .pos]) text = ([.num cpu], some .input) := by
    intro total
    simp only [List.append_assoc, List.cons_append, List.nil_append]
    rw [hnumber]
    rfl
  unfold cpuToken sscanf
  dsimp only
  rw [hfatal, hnamed, hplain]
  rfl

theorem decodeLine_rawCpu (env : AsciiEnv) (hcpu : cpu < 2 ^ 32) (st : Decoder) :
    decodeLine env st (rawLine "CPU" (Nat.toDigits 10 cpu)) =
      (⟨{ st.record with m := { st.record.m with cpu := .ofNat cpu } }.miss, true⟩, []) := by
  have hclean : CleanLine 'g' (rawLine "CPU" (Nat.toDigits 10 cpu)) :=
    rawLine_clean (by decide) (clean_dec (by decide) cpu)
  have hgunk : skipgunk (rawLine "CPU" (Nat.toDigits 10 cpu)) =
      rawLine "CPU" (Nat.toDigits 10 cpu) :=
    skipgunk_cons (hclean.tagFree (by decide)) (by decide)
  have htoken : token env st.record (rawLine "CPU" (Nat.toDigits 10 cpu)) =
      some (cpuToken st.record (rawLine "CPU" (Nat.toDigits 10 cpu))) := rfl
  rw [cpuToken_rawLine hcpu] at htoken
  rw [decodeLine_last hgunk htoken rfl]
  simp

/-- The line of the bank ends the record. -/
theorem decodeLine_rawBank (env : AsciiEnv) (n : ℕ) {st : Decoder} (hdata : st.data = true) :
    decodeLine env st (rawLine "BANK" (Nat.toDigits 10 n)) =
      ({}, dumpMceFinal st.record :: unknownText env (rawLine "BANK" (Nat.toDigits 10 n))) := by
  have hclean : CleanLine 'g' (rawLine "BANK" (Nat.toDigits 10 n)) :=
    rawLine_clean (by decide) (clean_dec (by decide) n)
  have hgunk : skipgunk (rawLine "BANK" (Nat.toDigits 10 n)) =
      rawLine "BANK" (Nat.toDigits 10 n) :=
    skipgunk_cons (hclean.tagFree (by decide)) (by decide)
  have htoken : token env st.record (rawLine "BANK" (Nat.toDigits 10 n)) = none := by
    have hfirst : ((branches env).take 14).find?
        (fun b => b.applies (rawLine "BANK" (Nat.toDigits 10 n))) = none := rfl
    rw [token_eq_late hfirst hclean.notMem_H]
    rfl
  exact decodeLine_unknown hgunk htoken (List.cons_ne_nil _ _) hdata

/-- A printed number as a number of a line. -/
def printedNumeral (n : UInt64) : Numeral 16 64 where
  hex := n ≠ 0
  digits := Nat.toDigits 16 n.toNat
  base_hex _ := rfl
  ne_nil := Nat.toDigits_ne_nil
  isDigit := isDigitOf_hex n.toNat
  lt := by
    rw [ofNumeral_hex]
    exact n.toNat_lt

/-- The line of the TSC is one that is read. -/
theorem rawLine_tsc (n : UInt64) :
    rawLine "TSC" (printHex n.toNat) = (tscLine (printedNumeral n)).text := by
  have hpre : printHex n.toNat = (printedNumeral n).text := by
    unfold printHex Numeral.text printedNumeral
    by_cases hn : n = 0
    · subst hn
      rfl
    · have hnat : n.toNat ≠ 0 := fun h => hn (UInt64.toNat_inj.mp h)
      simp [hn, hnat]
  rw [hpre]
  rfl

theorem finalsFrom_ne_nil (env : AsciiEnv) (r : AsciiRecord) (text : List Char) :
    finalsFrom env ⟨r, true⟩ text ≠ [] := decodeLines_data (getdelimLines text) rfl

/-- What `decodefatal` makes of a raw dump: a record that has nothing but the number of its
    CPU, and at least one more. -/
theorem finals_rawDump (env : AsciiEnv) (m : Mce) (recordlen : ℕ) :
    ∃ r rs, finals (decodefatal env (dumpMceRawAscii m recordlen)) = r :: rs ∧ rs ≠ [] ∧
      r.m = { cpu := .ofNat (cpuNumber m).toNat, finished := 1 } ∧ r.missing = 1 := by
  have hcpu : IsLine (rawLine "CPU" (Nat.toDigits 10 (cpuNumber m).toNat)) :=
    (rawLine_clean (by decide) (clean_dec (by decide) _)).isLine
  have hbank : IsLine (rawLine "BANK" (Nat.toDigits 10 m.bank.toNat)) :=
    (rawLine_clean (by decide) (clean_dec (by decide) _)).isLine
  obtain ⟨fields, hfields⟩ : ∃ fields, rawFields m recordlen =
    (tscLine (printedNumeral m.tsc)).text ++ fields := by
    rw [rawFields, rawLine_tsc]
    exact ⟨_, rfl⟩
  obtain ⟨r, -, hrest⟩ := ((tscLine (printedNumeral m.tsc)).takes env).finalsFrom
    (tscLine (printedNumeral m.tsc)).isLine {} fields
  have hread : finals (decodefatal env (dumpMceRawAscii m recordlen)) =
      { m := { cpu := .ofNat (cpuNumber m).toNat, finished := 1 }, missing := 1 } ::
        finalsFrom env ⟨r, true⟩ fields := by
    show finalsFrom env {} (dumpMceRawAscii m recordlen) = _
    rw [dumpMceRawAscii, finalsFrom_notFinished, finalsFrom_line hcpu,
      decodeLine_rawCpu env (cpuNumber m).toNat_lt, finalsFrom_line hbank, decodeLine_rawBank,
      finals_dumpMceFinal, finals_unknownText, hfields]
    · dsimp only
      rw [hrest]
      rfl
    · rfl
  exact ⟨_, _, hread, finalsFrom_ne_nil env r fields, rfl, rfl⟩

end Reading

/-- **Raw dumps are not read back.** For every record, `decodefatal` makes more than one
    record of its raw dump, the first of which is incomplete. -/
theorem not_rawRoundTrips (env : AsciiEnv) (m : Mce) : ¬ RawRoundTrips env m := by
  rintro ⟨r, hfinals, -, hmissing⟩
  obtain ⟨r', rs, hfinals', hne, -⟩ := finals_rawDump env m sizeofMce
  rw [hfinals] at hfinals'
  exact hne (List.cons.inj hfinals').2.symm

/-- The record of `input/full1`. -/
def fullRecord : Mce where
  cpu := 0
  bank := 1
  status := 0x1234
  tsc := 0x3062652eaab
  cs := 0x3f
  ip := 0x5678
  cpuid := 0x6f5
  time := 123456789
  socketid := 1
  mcgcap := 0xabc
  apicid := 0xf
  finished := 1

/-- Its raw dump is read as two records. The `RIP` line is not read, and the APIC ID 15 is
    read as a hexadecimal number. -/
theorem fullRecord_not_read_back :
    (finals (decodefatal ⟨true, 0⟩ (dumpMceRawAscii fullRecord sizeofMce))).map
        (fun r => (r.m, r.missing)) =
      [({ finished := 1 }, 1),
        ({ fullRecord with bank := 0, cs := 0, ip := 0, apicid := 0x15 }, 1)] ∧
    ¬ RawRoundTrips ⟨true, 0⟩ fullRecord := by
  have hread : (finals (decodefatal ⟨true, 0⟩ (dumpMceRawAscii fullRecord sizeofMce))).map
      (fun r => (r.m, r.missing)) =
    [({ finished := 1 }, 1),
      ({ fullRecord with bank := 0, cs := 0, ip := 0, apicid := 0x15 }, 1)] := by decide +kernel
  refine ⟨hread, ?_⟩
  rintro ⟨r, hfinals, -⟩
  rw [hfinals] at hread
  have hlength := congrArg List.length hread
  simp at hlength

end Mcelog.Ascii
