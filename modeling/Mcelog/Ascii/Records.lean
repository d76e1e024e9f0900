import Mcelog.Ascii.RecordLines

/-!
# Records that follow each other

`decodefatal` ends a record at a line that it does not know, or at the end of its input.
The line of the next CPU is one that it knows, so the records of a text become one, in
which later values replace earlier ones.

* `InputRecord.feeds`: a record is read to its end, and none is printed.
* `finals_records`: however many records there are, one is printed.
* `separates_iff`: the records of the input are kept apart, with their values, only if
  there is at most one and its own lines are read as they are written.
-/

namespace Mcelog.Ascii

open Mcelog.Common Mcelog.Machine

/-! ## The line of the CPU -/

section Header

variable {cpu bank : ℕ} {left : List Char}

/-- The two formats without the kernel's text. -/
theorem cpuToken_plainText (named : Bool) (hcpu : cpu < 2 ^ 32) (hbank : bank < 2 ^ 32)
    (hleft : NumberEnds 10 left) (r : AsciiRecord) :
    cpuToken r (plainText named cpu bank left) =
      ⟨{ r with m := { r.m with cpu := .ofNat cpu, bank := .ofNat bank } }.field Field.bank.endof,
        2, plainText named cpu bank left,
        (plainText named cpu bank left).length - left.length⟩ := by
  cases named with
  | true => exact cpuToken_cpuText hcpu hbank hleft r
  | false =>
    set text := plainText false cpu bank left with htext
    have hform : text = "CPU ".toList ++ (Nat.toDigits 10 cpu ++ (' ' ::
        (Nat.toDigits 10 bank ++ left))) := rfl
    have hcpuEnds : NumberEnds 10 (' ' :: (Nat.toDigits 10 bank ++ left)) :=
      numberEnds_cons (by decide)
    have hnumber : ∀ total fmt, scan total (literal "CPU " ++ (conversionU :: fmt)) text =
        (.num cpu :: (scan total fmt (' ' :: (Nat.toDigits 10 bank ++ left))).1,
          (scan total fmt (' ' :: (Nat.toDigits 10 bank ++ left))).2) := by
      intro total fmt
      rw [hform, scan_literal "CPU " (by decide) (fun _ => noHead_isSpace_toDigits _ _),
        conversionU, scan_printed (by decide) (by decide) hcpuEnds hcpu (by decide)]
    have hfatal : ∀ total, scan total fatalFormat text = ([.num cpu], some .matching) := by
      intro total
      simp only [fatalFormat, List.append_assoc, List.cons_append, List.nil_append]
      rw [hnumber]
      rfl
    have hnamed : ∀ total, scan total (literal "CPU " ++ [conversionU] ++ literal " BANK " ++
        [conversionU, .pos]) text = ([.num cpu], some .matching) := by
      intro total
      simp only [List.append_assoc, List.cons_append, List.nil_append]
      rw [hnumber, show literal " BANK " ++ [conversionU, .pos] =
        .space :: .lit 'B' :: (literal "ANK " ++ [conversionU, .pos]) from rfl,
        scan_space (noHead_isSpace_toDigits _ _)]
      obtain ⟨d, ds, hds⟩ := List.exists_cons_of_ne_nil (Nat.toDigits_ne_nil (n := bank) (b := 10))
      have hd : d ≠ 'B' := by
        rintro rfl
        have := isDigitOf_decimal bank 'B'
          (hds ▸ List.mem_cons_self)
        exact absurd this (by decide)
      rw [hds, List.cons_append, scan, if_neg hd]
    have hplain : ∀ total, scan total (literal "CPU " ++ [conversionU] ++ literal " " ++
        [conversionU, .pos]) text =
        ([.num cpu, .num bank, .pos (total - left.length)], none) := by
      intro total
      simp only [List.append_assoc, List.cons_append, List.nil_append]
      rw [hnumber, show literal " " ++ [conversionU, .pos] = .space :: [conversionU, .pos] from rfl,
        scan_space (noHead_isSpace_toDigits _ _), conversionU,
        scan_printed (by decide) (by decide) hleft hbank (by decide)]
      rfl
    unfold cpuToken sscanf
    dsimp only
    rw [hfatal, hnamed, hplain]
    rfl

/-- What is left of the digits of `mcgstatus` behind those that the set skips. -/
def unskipped (mcgstatus : UInt64) : List Char :=
  (Nat.toDigits 16 mcgstatus.toNat).dropWhile exceptionSet

/-- What is left is `mcgstatus` only if its first digit is below `c`. -/
theorem ofNumeral_unskipped (mcgstatus : UInt64) :
    ofNumeral 16 (unskipped mcgstatus) ≤ mcgstatus.toNat ∧
      (ofNumeral 16 (unskipped mcgstatus) = mcgstatus.toNat ↔
        leadingDigit mcgstatus.toNat < 12) := by
  by_cases h : leadingDigit mcgstatus.toNat < 12
  · have hvalue : ofNumeral 16 (unskipped mcgstatus) = mcgstatus.toNat := by
      rw [unskipped, dropWhile_of_noHead (noHead_of_leadingDigit_lt h),
        ofNumeral_hex]
    exact ⟨hvalue.le, iff_of_true hvalue h⟩
  · have hlt : ofNumeral 16 (unskipped mcgstatus) < mcgstatus.toNat :=
      ofNumeral_dropWhile_lt (not_lt.mp h)
    exact ⟨hlt.le, iff_of_false hlt.ne h⟩

/-- What the first line does to the record. -/
def HeaderLine.read (v : Values) : HeaderLine → Values
  | .fatal cpu _ mcgstatus bank status =>
    if unskipped mcgstatus = [] then
      { v with m := { v.m with cpu := cpu.toUInt8, mcgstatus := 0xba } }
    else
      { v with m := { v.m with
          cpu := cpu.toUInt8, mcgstatus := .ofNat (ofNumeral 16 (unskipped mcgstatus))
          bank := bank, status := status } }
  | .plain _ cpu bank more _ =>
    { v with m := giveAll { v.m with cpu := cpu.toUInt8, bank := bank } more }

theorem ofNat_strtoValue_cpu (cpu : UInt32) :
    UInt8.ofNat (strtoValue false false cpu.toNat % 2 ^ 32) = cpu.toUInt8 := by
  rw [strtoValue_unsigned cpu.toNat_lt (by decide), UInt8.ofNat_uInt32ToNat]

theorem fatal_takes (env : AsciiEnv) (cpu : UInt32) (exception : Bool) (mcgstatus : UInt64)
    (bank : UInt8) (status : UInt64) :
    Takes env (fatalLine cpu.toNat exception mcgstatus bank status true) true
      (fun v => (HeaderLine.fatal cpu exception mcgstatus bank status).read v) := by
  have hword : SkippedText (if exception then " Exception: ".toList else ": ".toList) := by
    cases exception <;> exact ⟨by decide, by decide, by decide⟩
  have hdigit := isDigitOf_hex mcgstatus.toNat
  set word := if exception then " Exception: ".toList else ": ".toList with hwordEq
  set digits := Nat.toDigits 16 mcgstatus.toNat with hdigits
  have hskip : SkippedText (word ++ digits.takeWhile exceptionSet) :=
    hword.append (fun c hc => List.mem_takeWhile_imp hc)
      (fun c hc => hdigit c ((List.takeWhile_prefix _).subset hc))
  have hline : fatalLine cpu.toNat exception mcgstatus bank status true =
      checkLine cpu.toNat (word ++ digits.takeWhile exceptionSet ++ unskipped mcgstatus) bank status
        ['\n'] := by
    rw [unskipped, List.append_assoc, List.takeWhile_append_dropWhile]
    rfl
  have hgunk : skipgunk (fatalLine cpu.toNat exception mcgstatus bank status true) =
      fatalLine cpu.toNat exception mcgstatus bank status true := by
    refine skipgunk_checkLine ?_ (by decide)
    rw [List.mem_append, not_or]
    exact ⟨hword.no_tag, notMem_of_isDigitOf hdigit (by decide)⟩
  have hcall : ∀ r, token env r (fatalLine cpu.toNat exception mcgstatus bank status true) =
      some (cpuToken r (fatalLine cpu.toNat exception mcgstatus bank status true)) := fun r =>
    token_checkLine env r _ _ bank status _
  by_cases hleft : unskipped mcgstatus = []
  · rw [hleft, List.append_nil] at hline
    have hread := cpuToken_all_skipped cpu.toNat bank status hskip ['\n']
    rw [← hline] at hread
    refine takes_last hgunk hcall ?_ ?_ ?_ <;> intro r <;>
      obtain ⟨r', htoken, hm, hsymbol, -⟩ := hread r <;> rw [htoken]
    · rw [HeaderLine.read, if_pos hleft, AsciiRecord.values, hm, hsymbol, ofNat_strtoValue_cpu]
      rfl
    · exact (by decide : (0 : ℤ) < 2)
  · have hleftDigit : ∀ c ∈ unskipped mcgstatus, isDigitOf 16 c = true :=
      fun c hc => hdigit c ((List.dropWhile_suffix _).subset hc)
    have hlen : (unskipped mcgstatus).length ≤ 16 :=
      (List.dropWhile_suffix _).length_le.trans (length_toDigits_le_sixteen mcgstatus)
    have hlt : ofNumeral 16 (unskipped mcgstatus) < 2 ^ 64 :=
      (ofNumeral_unskipped mcgstatus).1.trans_lt mcgstatus.toNat_lt
    have hread := cpuToken_checkLine cpu.toNat bank status hskip hleftDigit hleft
      (noHead_dropWhile _ _) hlen hlt (by decide : ∀ c ∈ ['\n'], isSpace c = true)
    have hend := checkLine_ending cpu.toNat
      (word ++ digits.takeWhile exceptionSet ++ unskipped mcgstatus) bank status ['\n']
    rw [← hline] at hread hend
    have hvalues : ∀ r, (cpuToken r
        (fatalLine cpu.toNat exception mcgstatus bank status true)).record.values =
        (HeaderLine.fatal cpu exception mcgstatus bank status).read r.values := by
      intro r
      obtain ⟨r', htoken, hm, hsymbol, -⟩ := hread r
      rw [htoken, HeaderLine.read, if_neg hleft, AsciiRecord.values, hm, hsymbol,
        ofNat_strtoValue_cpu]
      rfl
    refine Takes.token (takes_blanks env (by decide : ∀ c ∈ ['\n'], isSpace c = true)) hgunk hcall
      hvalues ?_ ?_ ?_ <;> intro r <;> obtain ⟨r', htoken, -⟩ := hread r <;> rw [htoken]
    · exact (by decide : (0 : ℤ) < 4)
    · exact hend.1
    · exact hend.2

theorem plainText_clean (named : Bool) (cpu bank : ℕ) (hleft : CleanLine 'g' left) :
    CleanLine 'g' (plainText named cpu bank left) := by
  have hdec : ∀ n, Clean 'g' (Nat.toDigits 10 n) := clean_dec (by decide)
  have hname : Clean 'g' (if named then " BANK " else " ").toList := by cases named <;> decide
  exact .append (by decide) (.append (hdec _) (.append hname (.append (hdec _) hleft)))

theorem plain_takes (env : AsciiEnv) (named : Bool) (cpu : UInt32) (bank : UInt8)
    (more : List (Gap × Item)) (tail : Blanks) :
    Takes env (plainText named cpu.toNat bank.toNat (moreText more tail)) true
      (fun v => (HeaderLine.plain named cpu bank more tail).read v) := by
  set text := plainText named cpu.toNat bank.toNat (moreText more tail) with htext
  have hclean : CleanLine 'g' text := plainText_clean _ _ _ (moreText_clean more tail)
  have hgunk : skipgunk text = text :=
    skipgunk_cons (hclean.tagFree (by decide)) (by decide)
  have hbank : bank.toNat < 2 ^ 32 := bank.toNat_lt.trans (by decide)
  have hread : ∀ r, cpuToken r text = _ := cpuToken_plainText named cpu.toNat_lt hbank
    (numberEnds_of_space (by decide) (isSpace_head_moreText more tail))
  have hcall : ∀ r, token env r text = some (cpuToken r text) := fun r => rfl
  have hsuffix : moreText more tail <:+ text :=
    (List.suffix_append _ _).trans <| (List.suffix_append _ _).trans <|
      (List.suffix_append _ _).trans (List.suffix_append _ _)
  suffices h : Takes env text true ((fun v => { v with m := giveAll v.m more }) ∘
      fun v => { v with m := { v.m with cpu := cpu.toUInt8, bank := bank } }) from h
  refine Takes.token (moreText_takes env more tail) hgunk hcall ?_ ?_ ?_ ?_ <;>
    intro r <;> rw [hread r]
  · rw [← UInt8.ofNat_uInt32ToNat, UInt8.ofNat_toNat]
    rfl
  · exact (by decide : (0 : ℤ) < 2)
  · have hpos : 0 < "CPU ".toList.length := by decide
    simp only [plainText, List.length_append]
    omega
  · exact drop_length_sub hsuffix

theorem HeaderLine.takes (env : AsciiEnv) (header : HeaderLine) :
    Takes env header.text true (fun v => header.read v) := by
  cases header with
  | fatal cpu exception mcgstatus bank status =>
    exact fatal_takes env cpu exception mcgstatus bank status
  | plain named cpu bank more tail => exact plain_takes env named cpu bank more tail

theorem HeaderLine.isLine (header : HeaderLine) : IsLine header.text := by
  cases header with
  | fatal cpu exception mcgstatus bank status =>
    have hdec : ∀ n, Clean 'g' (Nat.toDigits 10 n) := clean_dec (by decide)
    have hword : Clean 'g' (if exception then " Exception: ".toList else ": ".toList) := by
      cases exception <;> decide
    have hclean : CleanLine 'g' (fatalLine cpu.toNat exception mcgstatus bank status true) :=
      .append (by decide) (.append (hdec _) (.append (by decide) (.append
        (hword.append (clean_hex (by decide) _)) (.append (by decide) (.append (hdec _)
          (.append (by decide) (.append (clean_of_isDigitOf le_rfl (by decide)
            (isDigitOf_status status)) cleanLine_newline)))))))
    exact hclean.isLine
  | plain named cpu bank more tail =>
    exact (plainText_clean _ _ _ (moreText_clean more tail)).isLine

end Header

/-! ## Records one after the other -/

section Feeds

/-- The records that `decodefatal` prints for `text` in the state `st`. -/
def finalsFrom (env : AsciiEnv) (st : Decoder) (text : List Char) : List AsciiRecord :=
  finals (decodeLines env st (getdelimLines text))

theorem Takes.finalsFrom {env : AsciiEnv} {line : List Char} {read : Bool}
    {change : Values → Values} (h : Takes env line read change) (hline : IsLine line) (st : Decoder)
    (text : List Char) : ∃ r, r.values = change st.record.values ∧
      finalsFrom env st (line ++ text) = finalsFrom env ⟨r, st.data || read⟩ text := by
  obtain ⟨r, outs, hr, houts, heq⟩ := h st
  refine ⟨r, hr, ?_⟩
  rw [Ascii.finalsFrom, getdelimLines_line hline, decodeLines_cons, finals_append, heq, houts,
    List.nil_append]
  rfl

/-- No record is printed for the lines of a record, once a field has been read. -/
theorem lines_feed (env : AsciiEnv) (ls : List FieldLine) (r : AsciiRecord) (text : List Char) :
    ∃ r', r'.values = ls.foldl FieldLine.read r.values ∧
      finalsFrom env ⟨r, true⟩ (ls.flatMap FieldLine.text ++ text) =
        finalsFrom env ⟨r', true⟩ text := by
  induction ls generalizing r with
  | nil => exact ⟨r, rfl, rfl⟩
  | cons l ls ih =>
    obtain ⟨r₁, hr₁, heq₁⟩ := (l.takes env).finalsFrom l.isLine ⟨r, true⟩
      (ls.flatMap FieldLine.text ++ text)
    obtain ⟨r₂, hr₂, heq₂⟩ := ih r₁
    refine ⟨r₂, ?_, ?_⟩
    · rw [hr₂, hr₁, List.foldl_cons]
    · rw [List.flatMap_cons, List.append_assoc, heq₁, Bool.true_or, heq₂]

/-- What the lines of a record do to the one that is being read. -/
def InputRecord.read (v : Values) (i : InputRecord) : Values :=
  i.lines.foldl FieldLine.read (i.header.read v)

/-- A record is read to its end, and none is printed. -/
theorem InputRecord.feeds (env : AsciiEnv) (i : InputRecord) (st : Decoder) (text : List Char) :
    ∃ r, r.values = i.read st.record.values ∧
      finalsFrom env st (i.text ++ text) = finalsFrom env ⟨r, true⟩ text := by
  obtain ⟨r₁, hr₁, heq₁⟩ := (i.header.takes env).finalsFrom i.header.isLine st
    (i.lines.flatMap FieldLine.text ++ text)
  obtain ⟨r₂, hr₂, heq₂⟩ := lines_feed env i.lines r₁ text
  refine ⟨r₂, ?_, ?_⟩
  · rw [hr₂, hr₁]
    rfl
  · rw [InputRecord.text, List.append_assoc, heq₁, Bool.or_true, heq₂]

theorem records_feed (env : AsciiEnv) (records : List InputRecord) (r : AsciiRecord) :
    ∃ r', r'.values = records.foldl InputRecord.read r.values ∧
      finalsFrom env ⟨r, true⟩ (records.flatMap InputRecord.text) =
        finalsFrom env ⟨r', true⟩ [] := by
  induction records generalizing r with
  | nil => exact ⟨r, rfl, rfl⟩
  | cons i records ih =>
    obtain ⟨r₁, hr₁, heq₁⟩ := i.feeds env ⟨r, true⟩ (records.flatMap InputRecord.text)
    obtain ⟨r₂, hr₂, heq₂⟩ := ih r₁
    refine ⟨r₂, ?_, ?_⟩
    · rw [hr₂, hr₁, List.foldl_cons]
    · rw [List.flatMap_cons, heq₁, heq₂]

theorem finalsFrom_nil (env : AsciiEnv) (r : AsciiRecord) :
    finalsFrom env ⟨r, true⟩ [] = [{ r with m := { r.m with finished := 1 } }] := rfl

/-- However many records there are, one is printed. The values of later records replace
    those of earlier ones in it. -/
theorem finals_records (env : AsciiEnv) (i : InputRecord) (records : List InputRecord) :
    ∃ r : AsciiRecord, r.values = (i :: records).foldl InputRecord.read {} ∧
      finals (decodefatal env ((i :: records).flatMap InputRecord.text)) =
        [{ r with m := { r.m with finished := 1 } }] := by
  obtain ⟨r₁, hr₁, heq₁⟩ := i.feeds env {} (records.flatMap InputRecord.text)
  obtain ⟨r₂, hr₂, heq₂⟩ := records_feed env records r₁
  refine ⟨r₂, ?_, ?_⟩
  · rw [hr₂, hr₁, List.foldl_cons]
    rfl
  · rw [List.flatMap_cons]
    exact heq₁.trans (heq₂.trans (finalsFrom_nil env r₂))

end Feeds

/-! ## The fields of one record -/

section Fields

/-- The field is one that `p` selects. -/
def Item.gives (p : NumName → Bool) : Item → Bool
  | .number name _ _ => p name
  | .processor .. => false

/-- A field of the line is one that `p` selects. -/
def FieldLine.gives (p : NumName → Bool) : FieldLine → Bool
  | .fields _ first more _ => first.gives p || more.any fun q => q.2.gives p
  | .time .. => p .time
  | .rip .. | .cpuid .. | .blank _ => false

/-- The machine check after a line. -/
def FieldLine.change (m : Mce) (line : FieldLine) : Mce := (line.give { m := m }).m

theorem foldl_give_m (ls : List FieldLine) (v : Values) :
    (ls.foldl FieldLine.give v).m = ls.foldl FieldLine.change v.m := by
  refine (List.foldl_hom Values.m fun v line => ?_).symm
  cases line <;> rfl

theorem foldl_read_m (ls : List FieldLine) (v : Values) :
    (ls.foldl FieldLine.read v).m = ls.foldl FieldLine.change v.m := by
  refine (List.foldl_hom Values.m fun v line => ?_).symm
  cases line <;> rfl

/-- A component of the machine check that the lines of `RIP` and `CPUID` leave alone,
    and that only numbers selected by `p` replace. -/
structure NumberSetter (set : Mce → Mce) (p : NumName → Bool) : Prop where
  store : ∀ (name : NumName) (v : ℕ), Replaces (fun m => name.store m v) set (p name)
  cpuid : ∀ (vendor : UInt8) (cpuid : UInt32),
    Replaces (fun m => { m with cpuvendor := vendor, cpuid := cpuid }) set false
  rip : ∀ (cs : UInt8) (ip : UInt64), Replaces (fun m => { m with cs := cs, ip := ip }) set false

variable {set : Mce → Mce} {p : NumName → Bool}

theorem NumberSetter.item (h : NumberSetter set p) (item : Item) :
    Replaces (fun m => item.give m) set (item.gives p) := by
  cases item with
  | number name blanks n => exact h.store name n.value
  | processor blanks vendor cpuid => exact h.cpuid _ _

theorem NumberSetter.giveAll (h : NumberSetter set p) (more : List (Gap × Item)) :
    Replaces (fun m => giveAll m more) set (more.any fun q => q.2.gives p) := by
  have hitem : ∀ q : Gap × Item, Replaces (fun m => q.2.give m) set (q.2.gives p) :=
    fun q => h.item q.2
  exact replaces_foldl hitem more

theorem NumberSetter.line (h : NumberSetter set p) (line : FieldLine) :
    Replaces (fun m => line.change m) set (line.gives p) := by
  cases line with
  | fields lead first more tail => exact (h.item first).comp (h.giveAll more)
  | time lead blanks n date skippable => exact h.store .time n.value
  | rip inexact cs ip symbol tail => exact h.rip cs ip
  | cpuid vendor family model => exact h.cpuid _ _
  | blank blanks => exact replaces_id set

theorem NumberSetter.lines (h : NumberSetter set p) (ls : List FieldLine) :
    Replaces (fun m => ls.foldl FieldLine.change m) set (ls.any (FieldLine.gives p)) :=
  replaces_foldl h.line ls

theorem numberSetter_mcgstatus (x : UInt64) :
    NumberSetter (fun m => { m with mcgstatus := x }) (· = .mcgstatus) where
  store name v m := by cases name <;> rfl
  cpuid _ _ _ := rfl
  rip _ _ _ := rfl

theorem numberSetter_status (x : UInt64) :
    NumberSetter (fun m => { m with status := x }) (· = .status) where
  store name v m := by cases name <;> rfl
  cpuid _ _ _ := rfl
  rip _ _ _ := rfl

/-- The parts of a machine check that no field gives. -/
def setHeader (x : UInt8 × UInt8 × UInt8) (m : Mce) : Mce :=
  { m with cpu := x.1, bank := x.2.1, finished := x.2.2 }

theorem numberSetter_header (x : UInt8 × UInt8 × UInt8) :
    NumberSetter (setHeader x) (fun _ => false) where
  store name v m := by cases name <;> rfl
  cpuid _ _ _ := rfl
  rip _ _ _ := rfl

theorem Item.gives_false (item : Item) : item.gives (fun _ => false) = false := by
  cases item <;> rfl

theorem FieldLine.gives_false (line : FieldLine) : line.gives (fun _ => false) = false := by
  cases line with
  | fields lead first more tail => simp [FieldLine.gives, Item.gives_false]
  | _ => rfl

theorem lines_replaces_header (ls : List FieldLine) (x : UInt8 × UInt8 × UInt8) :
    Replaces (fun m => ls.foldl FieldLine.change m) (setHeader x) false := by
  have h := (numberSetter_header x).lines ls
  rwa [List.any_eq_false.mpr fun line _ => by simp [FieldLine.gives_false]] at h

theorem giveAll_replaces_header (more : List (Gap × Item)) (x : UInt8 × UInt8 × UInt8) :
    Replaces (fun m => giveAll m more) (setHeader x) false := by
  have h := (numberSetter_header x).giveAll more
  rwa [List.any_eq_false.mpr fun q _ => by simp [Item.gives_false]] at h

/-- A change that leaves the header alone keeps the CPU. -/
theorem cpu_of_replaces_header {f : Mce → Mce} (h : ∀ x, Replaces f (setHeader x) false) (m : Mce) :
    (f m).cpu = m.cpu := by
  have hkept := Replaces.get_eq h (fun m => (m.cpu, m.bank, m.finished)) (fun _ _ => rfl)
    (fun _ => rfl) m
  exact congrArg Prod.fst hkept

/-- A record can be marked as finished before its lines. -/
theorem finished_of_replaces_header {f : Mce → Mce} (h : ∀ x, Replaces f (setHeader x) false)
    (m : Mce) : ({ f m with finished := 1 } : Mce) = f { m with finished := 1 } := by
  have hsame : f m = setHeader (m.cpu, m.bank, m.finished) (f m) :=
    h (m.cpu, m.bank, m.finished) m
  have hset : f { m with finished := 1 } = setHeader (m.cpu, m.bank, 1) (f m) :=
    h (m.cpu, m.bank, 1) m
  rw [hset, hsame]
  rfl

end Fields

/-! ## Main theorem -/

section Main

/-- The symbol of the line. -/
def FieldLine.symbol? : FieldLine → Option Symbol
  | .rip _ _ _ symbol _ => symbol
  | .fields .. | .time .. | .cpuid .. | .blank _ => none

/-- The symbol of the record: a later one replaces an earlier one. -/
def InputRecord.symbol? (i : InputRecord) : Option Symbol :=
  (i.lines.filterMap FieldLine.symbol?).getLast?

/-- A line gives this field. -/
def InputRecord.gives (i : InputRecord) (name : NumName) : Bool :=
  i.lines.any (FieldLine.gives (· = name))

/-- The line of the CPU is read as it is written, or other lines give what is misread. -/
def InputRecord.HeaderRead (i : InputRecord) : Prop :=
  match i.header with
  | .fatal _ _ mcgstatus bank status =>
    leadingDigit mcgstatus.toNat < 12 ∨
      i.gives .mcgstatus = true ∧ ((∃ c ∈ Nat.toDigits 16 mcgstatus.toNat, digitValue c < 12) ∨
        bank = 0 ∧ (status = 0 ∨ i.gives .status = true))
  | .plain .. => True

theorem foldl_symbol (f : Symbol → List Char) (g : Values → FieldLine → Values)
    (hg : ∀ v line, (g v line).symbol = (line.symbol?.map f).getD v.symbol)
    (ls : List FieldLine) (v : Values) :
    (ls.foldl g v).symbol = ((ls.filterMap FieldLine.symbol?).getLast?.map f).getD v.symbol := by
  induction ls generalizing v with
  | nil => rfl
  | cons line ls ih =>
    rw [List.foldl_cons, ih, hg]
    cases hsymbol : line.symbol? with
    | none =>
      rw [List.filterMap_cons_none hsymbol]
      rfl
    | some w =>
      rw [List.filterMap_cons_some hsymbol, List.getLast?_cons]
      cases (ls.filterMap FieldLine.symbol?).getLast? <;> rfl

/-- Only a symbol of 99 characters is stored without its brace. -/
theorem Symbol.stored_eq_iff (w : Symbol) : w.stored = w.chars ↔ w.chars.length = 99 := by
  constructor
  · intro h
    have hlen := congrArg List.length h
    rw [Symbol.stored, List.length_take, List.length_append, List.length_singleton] at hlen
    omega
  · intro h
    rw [Symbol.stored, ← h, List.take_left]

theorem InputRecord.symbol_eq_iff (i : InputRecord) :
    (i.read {}).symbol = i.given.symbol ↔ ∀ w ∈ i.symbol?, w.chars.length = 99 := by
  have hread : (i.read {}).symbol = (i.symbol?.map Symbol.stored).getD [] := by
    have hstart : (i.header.read {}).symbol = [] := by
      cases i.header with
      | fatal cpu exception mcgstatus bank status =>
        rw [HeaderLine.read]
        split_ifs <;> rfl
      | plain named cpu bank more tail => rfl
    rw [InputRecord.read, foldl_symbol Symbol.stored _ (fun v line => by cases line <;> rfl),
      hstart]
    rfl
  have hgiven : i.given.symbol = (i.symbol?.map Symbol.chars).getD [] := by
    have hstart : i.header.give.symbol = [] := by cases i.header <;> rfl
    rw [InputRecord.given, foldl_symbol Symbol.chars _ (fun v line => by cases line <;> rfl),
      hstart]
    rfl
  rw [hread, hgiven]
  cases i.symbol? with
  | none => simp
  | some w => simpa using w.stored_eq_iff

theorem HeaderLine.read_cpu (header : HeaderLine) :
    (header.read {}).m.cpu = header.cpu.toUInt8 := by
  cases header with
  | fatal cpu exception mcgstatus bank status =>
    rw [HeaderLine.read]
    split_ifs <;> rfl
  | plain named cpu bank more tail => exact cpu_of_replaces_header (giveAll_replaces_header more) _

theorem unskipped_eq_nil_iff (mcgstatus : UInt64) :
    unskipped mcgstatus = [] ↔ ∀ c ∈ Nat.toDigits 16 mcgstatus.toNat, 12 ≤ digitValue c := by
  rw [unskipped, List.dropWhile_eq_nil_iff]
  refine forall₂_congr fun c hc => ?_
  rw [exceptionSet_of_mem_toDigits hc, decide_eq_true_eq]

section Fatal

variable {L : Mce → Mce} {givesMcgstatus givesStatus : Bool} {cpu bank : UInt8}
  {mcgstatus status : UInt64}

/-- A part of `mcgstatus` is read. -/
theorem fatal_part_iff
    (hmcgstatus : ∀ x, Replaces L (fun m => { m with mcgstatus := x }) givesMcgstatus) :
    L { cpu := cpu, mcgstatus := .ofNat (ofNumeral 16 (unskipped mcgstatus)), bank := bank,
        status := status, finished := 1 } =
      L { cpu := cpu, mcgstatus := mcgstatus, bank := bank, status := status, finished := 1 } ↔
      leadingDigit mcgstatus.toNat < 12 ∨ givesMcgstatus = true := by
  obtain ⟨hle, hiff⟩ := ofNumeral_unskipped mcgstatus
  have hvalue : UInt64.ofNat (ofNumeral 16 (unskipped mcgstatus)) = mcgstatus ↔
      leadingDigit mcgstatus.toNat < 12 := by
    rw [← hiff, ← UInt64.toNat_inj,
      UInt64.toNat_ofNat_of_lt' (hle.trans_lt mcgstatus.toNat_lt)]
  rw [or_comm, ← hvalue]
  exact ⟨Replaces.eq_of_eq hmcgstatus Mce.mcgstatus (fun _ _ => rfl) (fun _ => rfl),
    fun h => Replaces.congr hmcgstatus h
      { cpu := cpu, bank := bank, status := status, finished := 1 }⟩

/-- `mcgstatus`, the bank and the status are lost, and the `Ba` of `Bank` is read. -/
theorem fatal_lost_iff
    (hmcgstatus : ∀ x, Replaces L (fun m => { m with mcgstatus := x }) givesMcgstatus)
    (hstatus : ∀ x, Replaces L (fun m => { m with status := x }) givesStatus)
    (hheader : ∀ x, Replaces L (setHeader x) false) (hne : mcgstatus ≠ 0xba) :
    L { cpu := cpu, mcgstatus := 0xba, finished := 1 } =
      L { cpu := cpu, mcgstatus := mcgstatus, bank := bank, status := status, finished := 1 } ↔
      givesMcgstatus = true ∧ bank = 0 ∧ (status = 0 ∨ givesStatus = true) := by
  constructor
  · intro heq
    have hm : givesMcgstatus = true ∨ 0xba = mcgstatus :=
      Replaces.eq_of_eq hmcgstatus Mce.mcgstatus (fun _ _ => rfl) (fun _ => rfl) heq
    have hs : givesStatus = true ∨ 0 = status :=
      Replaces.eq_of_eq hstatus Mce.status (fun _ _ => rfl) (fun _ => rfl) heq
    have hb : (cpu, (0 : UInt8), (1 : UInt8)) = (cpu, bank, 1) :=
      (Replaces.eq_of_eq hheader (fun m => (m.cpu, m.bank, m.finished)) (fun _ _ => rfl)
        (fun _ => rfl) heq).resolve_left Bool.false_ne_true
    exact ⟨hm.resolve_right hne.symm, (congrArg (fun t => t.2.1) hb).symm, hs.symm.imp_left Eq.symm⟩
  · rintro ⟨hm, rfl, hs⟩
    calc L { cpu := cpu, mcgstatus := 0xba, finished := 1 }
      _ = L { cpu := cpu, mcgstatus := mcgstatus, finished := 1 } :=
        Replaces.congr hmcgstatus (.inl hm) { cpu := cpu, finished := 1 }
      _ = L { cpu := cpu, mcgstatus := mcgstatus, bank := 0, status := status, finished := 1 } :=
        Replaces.congr hstatus (hs.symm.imp_right Eq.symm)
          { cpu := cpu, mcgstatus := mcgstatus, finished := 1 }

end Fatal

/-- The machine check is the given one exactly if the first line is read, or its
    values are replaced. -/
theorem InputRecord.m_eq_iff (i : InputRecord) :
    ({ (i.read {}).m with finished := 1 } : Mce) = { i.given.m with finished := 1 } ↔
      i.HeaderRead := by
  obtain ⟨header, ls⟩ := i
  set L := fun m => ls.foldl FieldLine.change m with hL
  have hmcgstatus : ∀ x, Replaces L (fun m => { m with mcgstatus := x })
      (ls.any (FieldLine.gives (· = .mcgstatus))) := fun x => (numberSetter_mcgstatus x).lines ls
  have hstatus : ∀ x, Replaces L (fun m => { m with status := x })
      (ls.any (FieldLine.gives (· = .status))) := fun x => (numberSetter_status x).lines ls
  have hheader := lines_replaces_header ls
  have hread : (InputRecord.read {} ⟨header, ls⟩).m = L (header.read {}).m :=
    foldl_read_m ls (header.read {})
  have hgiven : (InputRecord.given ⟨header, ls⟩).m = L header.give.m := foldl_give_m ls header.give
  rw [hread, hgiven, finished_of_replaces_header hheader, finished_of_replaces_header hheader]
  cases header with
  | plain named cpu bank more tail => exact iff_of_true rfl trivial
  | fatal cpu exception mcgstatus bank status =>
    rw [HeaderLine.read]
    by_cases hleft : unskipped mcgstatus = []
    · rw [if_pos hleft]
      rw [unskipped_eq_nil_iff] at hleft
      have hhigh : ¬ leadingDigit mcgstatus.toNat < 12 := by
        obtain ⟨c, ds, hcons⟩ := List.exists_cons_of_ne_nil
          (Nat.toDigits_ne_nil (n := mcgstatus.toNat) (b := 16))
        rw [leadingDigit, hcons]
        exact not_lt.mpr (hleft c (hcons ▸ List.mem_cons_self))
      have hne : mcgstatus ≠ 0xba := by
        rintro rfl
        exact hhigh (by decide)
      have hnone : ¬ ∃ c ∈ Nat.toDigits 16 mcgstatus.toNat, digitValue c < 12 := by
        rintro ⟨c, hc, hlt⟩
        exact not_lt.mpr (hleft c hc) hlt
      refine (fatal_lost_iff hmcgstatus hstatus hheader hne).trans ?_
      simp only [HeaderLine.give, InputRecord.HeaderRead, InputRecord.gives, hhigh, hnone, false_or]
    · rw [if_neg hleft]
      have hsome : ∃ c ∈ Nat.toDigits 16 mcgstatus.toNat, digitValue c < 12 := by
        simpa only [unskipped_eq_nil_iff, not_forall, not_le, exists_prop] using hleft
      refine (fatal_part_iff hmcgstatus).trans ?_
      simp only [InputRecord.HeaderRead, InputRecord.gives, hsome, true_or, and_true]

theorem InputRecord.carriedBy_iff (i : InputRecord) {r : AsciiRecord}
    (hr : r.values = i.read {}) :
    i.CarriedBy { r with m := { r.m with finished := 1 } } ↔
      i.header.cpu.toNat < 256 ∧ i.HeaderRead ∧ ∀ w ∈ i.symbol?, w.chars.length = 99 := by
  have hm : r.m = (i.read {}).m := congrArg Values.m hr
  have hsymbol : r.symbol = (i.read {}).symbol := congrArg Values.symbol hr
  have hcpu : r.m.cpu = i.header.cpu.toUInt8 := by
    rw [hm, InputRecord.read, foldl_read_m, cpu_of_replaces_header (lines_replaces_header i.lines)]
    exact i.header.read_cpu
  rw [InputRecord.CarriedBy, ← i.m_eq_iff, ← i.symbol_eq_iff, hsymbol, ← hm]
  dsimp only
  rw [hcpu, UInt32.toNat_toUInt8]
  have hmod : i.header.cpu.toNat % 2 ^ 8 = i.header.cpu.toNat ↔ i.header.cpu.toNat < 256 := by
    omega
  rw [hmod]
  tauto

/-- **Records.** The records of the input, each with the line of its CPU and its lines
    of fields, are decoded one by one and with their values if and only if there is at
    most one, its CPU number is below 256, its first line is read (or later lines give
    what is misread) and its symbol, if any, has 99 characters. -/
theorem separates_iff (env : AsciiEnv) (records : List InputRecord) :
    Separates env records ↔ records = [] ∨ ∃ i, records = [i] ∧ i.header.cpu.toNat < 256 ∧
      i.HeaderRead ∧ ∀ w ∈ i.symbol?, w.chars.length = 99 := by
  unfold Separates
  cases records with
  | nil => exact iff_of_true .nil (.inl rfl)
  | cons i records =>
    obtain ⟨r, hr, hfinals⟩ := finals_records env i records
    rw [hfinals, List.forall₂_cons]
    cases records with
    | nil =>
      rw [i.carriedBy_iff hr]
      simp
    | cons i' records => simp

/-- `TSC n` -/
def tscLine (n : Numeral 16 64) : FieldLine :=
  .fields ⟨[], by decide⟩ (.number .tsc ⟨[' '], by decide⟩ n) [] ⟨[], by decide⟩

/-- A panic of two CPUs. -/
def twoPanics : List InputRecord :=
  [{ header := .fatal 0 true 5 4 0xb200000000070f0f
     lines := [tscLine ⟨false, "1f".toList, fun _ => rfl, by decide, by decide, by decide⟩] },
    { header := .fatal 1 true 5 4 0xf200000000100e0f
      lines := [tscLine ⟨false, "2a".toList, fun _ => rfl, by decide, by decide, by decide⟩] }]

/-- The two become one: the record of CPU 0 is lost. -/
theorem twoPanics_merged :
    String.ofList (twoPanics.flatMap InputRecord.text) =
      "CPU 0: Machine Check Exception: 5 Bank 4: b200000000070f0f\nTSC 1f\n" ++
      "CPU 1: Machine Check Exception: 5 Bank 4: f200000000100e0f\nTSC 2a\n" ∧
    ¬ Separates ⟨false, 0⟩ twoPanics := by
  refine ⟨by decide +kernel, ?_⟩
  intro h
  obtain ⟨r, -, hfinals⟩ := finals_records ⟨false, 0⟩ _ _
  rw [Separates, twoPanics, hfinals] at h
  exact absurd h.length_eq (by simp)

end Main

end Mcelog.Ascii
