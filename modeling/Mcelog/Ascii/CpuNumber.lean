import Mcelog.Ascii.Records

/-!
# The CPU number of a record

A record tells its CPU in the kernel's fatal line, in one of the two short lines, or in the
line of the Xen hypervisor. All of them store the number in `m.cpu`, which is one byte;
`m.extcpu`, which every report prefers, is left zero.

* `CpuHeader.feeds`: what `decodefatal` makes of these lines.
* `reportedFor_iff`: a record is reported for the CPU that its text names, in whatever
  format and whatever lines follow, exactly if the number is below 256.
-/

namespace Mcelog.Ascii

open Mcelog.Common Mcelog.Machine

/-! ## The lines of Xen -/

/-- The text before the number in the line of the CPU. -/
def xenSentence : String :=
  " MCE: The hardware reports a non fatal, correctable incident occurred on "

/-- `"(XEN) MCE: The hardware reports a non fatal, correctable incident occurred on CPU %u.\n"` -/
def xenCpuLine (cpu : ℕ) : List Char :=
  "(XEN)".toList ++ (xenSentence.toList ++ ("CPU ".toList ++ (Nat.toDigits 10 cpu ++
    ".\n".toList)))

/-- `" at %16lx"`, if the address is known -/
def xenAddrText : Option UInt64 → List Char
  | none => []
  | some addr => " at ".toList ++ (Nat.toDigits 16 addr.toNat).leftpad 16 ' '

/-- `"(XEN) Bank %d: %016lx at %16lx\n"` -/
def xenBankLine (bank : UInt8) (status : UInt64) (addr : Option UInt64) : List Char :=
  "(XEN)".toList ++ (" Bank ".toList ++ (Nat.toDigits 10 bank.toNat ++ (": ".toList ++
    ((Nat.toDigits 16 status.toNat).leftpad 16 '0' ++ (xenAddrText addr ++ ['\n'])))))

section Xen

variable {env : AsciiEnv} {line : List Char}

theorem xenCpuLine_clean (cpu : ℕ) : CleanLine 'g' (xenCpuLine cpu) :=
  .append (by decide) (.append (by decide) (.append (by decide) (.append (clean_dec (by decide) cpu)
    ⟨['.'], rfl, by decide⟩)))

theorem strstr_xenCpuLine (cpu : ℕ) :
    (strstr (xenCpuLine cpu)
      "The hardware reports a non fatal, correctable incident occurred").isSome = true ∧
    strstr (xenCpuLine cpu) "CPU" =
      some ("CPU ".toList ++ (Nat.toDigits 10 cpu ++ ".\n".toList)) :=
  ⟨rfl, rfl⟩

theorem skipgunk_xen (h : CleanLine 'g' ("(XEN)".toList ++ line)) :
    skipgunk ("(XEN)".toList ++ line) = "(XEN)".toList ++ line :=
  skipgunk_cons (h.tagFree (by decide)) (by decide)

/-- The branch of Xen stands behind the test for `HARDWARE ERROR`. -/
theorem token_xen (h : CleanLine 'g' ("(XEN)".toList ++ line)) (r : AsciiRecord) :
    token env r ("(XEN)".toList ++ line) = some (xenToken env r ("(XEN)".toList ++ line)) := by
  rw [token_eq_late rfl h.notMem_H]
  rfl

theorem scan_xenCpu (cpu : UInt32) (total : ℕ) : scan total (literal "CPU " ++ [conversionD])
    ("CPU ".toList ++ (Nat.toDigits 10 cpu.toNat ++ ".\n".toList)) = ([.num cpu.toNat], none) := by
  have hend : NumberEnds 10 ".\n".toList := numberEnds_cons (by decide)
  rw [scan_literal "CPU " (by decide) (fun _ => noHead_isSpace_toDigits _ _), conversionD,
    scan_num (by decide) (isDigitOf_decimal cpu.toNat)
      Nat.toDigits_ne_nil hend (by simp),
    ofNumeral_decimal, strtoValue_signed cpu.toNat_lt (by decide)]
  rfl

theorem xenToken_xenCpuLine (cpu : UInt32) (r : AsciiRecord) :
    xenToken env r (xenCpuLine cpu.toNat) =
      ⟨{ r with m := { r.m with cpu := cpu.toUInt8 } }.field Field.cpu.endof, 0,
        xenCpuLine cpu.toNat, 0⟩ := by
  obtain ⟨hsentence, hcpu⟩ := strstr_xenCpuLine cpu.toNat
  obtain ⟨found, hfound⟩ := Option.isSome_iff_exists.mp hsentence
  rw [← UInt8.ofNat_uInt32ToNat]
  generalize xenCpuLine cpu.toNat = line at hfound hcpu
  unfold xenToken sscanf
  rw [hfound, hcpu]
  dsimp only
  rw [scan_xenCpu]
  rfl

/-- The number is stored in one byte, and no field has been read yet. -/
theorem xenCpuLine_takes (env : AsciiEnv) (cpu : UInt32) :
    Takes env (xenCpuLine cpu.toNat) false
      (fun v => { v with m := { v.m with cpu := cpu.toUInt8 } }) := by
  have hclean := xenCpuLine_clean cpu.toNat
  have hgunk : skipgunk (xenCpuLine cpu.toNat) = xenCpuLine cpu.toNat := skipgunk_xen hclean
  have hcall : ∀ r, token env r (xenCpuLine cpu.toNat) =
      some (xenToken env r (xenCpuLine cpu.toNat)) := token_xen hclean
  refine takes_end hgunk hcall ?_ ?_ ?_ <;> intro r <;> rw [xenToken_xenCpuLine]
  · rfl
  · rfl

theorem xenAddrText_clean {x : Char} (hx : x = 'g' ∨ x = 'T') (addr : Option UInt64) :
    Clean x (xenAddrText addr) := by
  have hdigit : isDigitOf 16 x = false := by rcases hx with rfl | rfl <;> decide
  have hblank : ' ' ≠ x := by rcases hx with rfl | rfl <;> decide
  have hat : Clean x " at ".toList := by rcases hx with rfl | rfl <;> decide
  cases addr with
  | none => exact clean_nil
  | some addr =>
    refine hat.append (.append (fun c hc => ?_) (clean_hex hdigit _))
    rw [(List.mem_replicate.mp hc).2]
    exact ⟨by decide, by decide, by decide, hblank⟩

theorem xenBankLine_clean {x : Char} (hx : x = 'g' ∨ x = 'T') (bank : UInt8) (status : UInt64)
    (addr : Option UInt64) : CleanLine x (xenBankLine bank status addr) := by
  have hdigit : isDigitOf 16 x = false := by rcases hx with rfl | rfl <;> decide
  have hname : Clean x "(XEN)".toList ∧ Clean x " Bank ".toList ∧ Clean x ": ".toList := by
    rcases hx with rfl | rfl <;> decide
  exact .append hname.1 (.append hname.2.1 (.append (clean_dec hdigit _) (.append hname.2.2
    (.append (clean_of_isDigitOf le_rfl hdigit (isDigitOf_status status))
      (.append (xenAddrText_clean hx addr) cleanLine_newline)))))

/-- The line of the bank does not say that the hardware reports an incident. -/
theorem strstr_xenBankLine (bank : UInt8) (status : UInt64) (addr : Option UInt64) :
    strstr (xenBankLine bank status addr)
      "The hardware reports a non fatal, correctable incident occurred" = none := by
  obtain ⟨line, hline, hclean⟩ := xenBankLine_clean (.inr rfl) bank status addr
  refine strstr_of_notMem (x := 'T') (by decide) fun hmem => ?_
  rw [hline, List.mem_append, List.mem_singleton] at hmem
  exact hmem.elim (fun h => (hclean _ h).2.2.2 rfl) (by decide)

/-- What the address gives. -/
def xenAddrArgs : Option UInt64 → List Arg
  | none => []
  | some addr => [.num addr.toNat]

theorem scan_xenAddr (addr : Option UInt64) (total : ℕ) :
    (scan total (literal " at " ++ [conversionLlx]) (xenAddrText addr ++ ['\n'])).1 =
      xenAddrArgs addr := by
  cases addr with
  | none => rfl
  | some addr =>
    have hblanks : ∀ c ∈ List.replicate (16 - (Nat.toDigits 16 addr.toNat).length) ' ',
        isSpace c = true := by
      intro c hc
      rw [(List.mem_replicate.mp hc).2]
      decide
    have hdigits := isDigitOf_hex addr.toNat
    show (scan total (literal " at" ++ (.space :: [conversionLlx])) (" at".toList ++
      ((' ' :: List.replicate (16 - (Nat.toDigits 16 addr.toNat).length) ' ') ++
        Nat.toDigits 16 addr.toNat ++ ['\n']))).1 = _
    rw [scan_literal " at" (by decide) (fun h => absurd h (by decide)), List.append_assoc,
      scan_blanks (fun c hc => (List.mem_cons.mp hc).elim (fun h => h ▸ rfl) (hblanks c))
        (noHead_isSpace_digits le_rfl hdigits Nat.toDigits_ne_nil), conversionLlx,
      scan_printed (by decide) le_rfl (numberEnds_newline le_rfl) addr.toNat_lt le_rfl]
    rfl

theorem scan_xenBank (bank : UInt8) (status : UInt64) (addr : Option UInt64) (total : ℕ) :
    (scan total (literal "(XEN) Bank " ++ [conversionD] ++ literal ": " ++ [conversionLlx] ++
      literal " at " ++ [conversionLlx]) (xenBankLine bank status addr)).1 =
      .num bank.toNat :: .num status.toNat :: xenAddrArgs addr := by
  have hstatusNe : (Nat.toDigits 16 status.toNat).leftpad 16 '0' ≠ [] := by
    rw [← List.length_pos_iff, List.length_leftpad]
    omega
  have hend : NumberEnds 16 (xenAddrText addr ++ ['\n']) := by
    cases addr with
    | none => exact numberEnds_newline le_rfl
    | some addr => exact numberEnds_cons (by decide)
  simp only [List.append_assoc, List.cons_append, List.nil_append]
  show (scan total (literal "(XEN) Bank " ++ _) ("(XEN) Bank ".toList ++ _)).1 = _
  rw [scan_literal "(XEN) Bank " (by decide) (fun _ => noHead_isSpace_toDigits _ _), conversionD,
    scan_num (by decide) (isDigitOf_decimal bank.toNat)
      Nat.toDigits_ne_nil (numberEnds_text ": " (by decide)) (by simp),
    ofNumeral_decimal,
    strtoValue_signed (bank.toNat_lt.trans (by decide)) (by decide),
    scan_literal ": " (by decide)
      (fun _ => noHead_isSpace_digits le_rfl (isDigitOf_status status) hstatusNe), conversionLlx,
    scan_num le_rfl (isDigitOf_status status) hstatusNe hend (by simp), ofNumeral_leftpad,
    ofNumeral_hex, strtoValue_unsigned status.toNat_lt le_rfl]
  dsimp only
  rw [← conversionLlx, scan_xenAddr]

/-- The values that the line of the bank gives. -/
def xenBankChange (bank : UInt8) (status : UInt64) (addr : Option UInt64) (v : Values) : Values :=
  { v with m := { v.m with bank := bank, status := status, addr := addr.getD v.m.addr } }

theorem sscanf_xenBank (bank : UInt8) (status : UInt64) (addr : Option UInt64) :
    sscanf (literal "(XEN) Bank " ++ [conversionD] ++ literal ": " ++ [conversionLlx] ++
      literal " at " ++ [conversionLlx]) (xenBankLine bank status addr) =
      { ret := 2 + (xenAddrArgs addr).length
        args := .num bank.toNat :: .num status.toNat :: xenAddrArgs addr } := by
  have hargs := scan_xenBank bank status addr (xenBankLine bank status addr).length
  unfold sscanf
  dsimp only
  rw [hargs]
  cases addr <;> rfl

theorem xenToken_xenBankLine (bank : UInt8) (status : UInt64) (addr : Option UInt64)
    (r : AsciiRecord) : ∃ (r' : AsciiRecord) (n : ℤ),
      xenToken env r (xenBankLine bank status addr) =
        ⟨r', n, xenBankLine bank status addr, 0⟩ ∧ 0 < n ∧
      r'.values = xenBankChange bank status addr r.values := by
  have hbank : UInt8.ofNat bank.toNat = bank := UInt8.ofNat_toNat
  have hstatus : UInt64.ofNat status.toNat = status := UInt64.ofNat_toNat
  unfold xenToken
  rw [strstr_xenBankLine, sscanf_xenBank, xenBankChange]
  cases addr with
  | none =>
    refine ⟨_, _, rfl, (by decide : (0 : ℤ) < 2), ?_⟩
    conv_rhs => rw [← hbank, ← hstatus]
    rfl
  | some addr =>
    have haddr : UInt64.ofNat addr.toNat = addr := UInt64.ofNat_toNat
    refine ⟨_, _, rfl, (by decide : (0 : ℤ) < 3), ?_⟩
    conv_rhs => rw [← hbank, ← hstatus, ← haddr]
    rfl

theorem xenBankLine_takes (env : AsciiEnv) (bank : UInt8) (status : UInt64)
    (addr : Option UInt64) : Takes env (xenBankLine bank status addr) true
      (xenBankChange bank status addr) := by
  have hclean := xenBankLine_clean (.inl rfl) bank status addr
  have hgunk : skipgunk (xenBankLine bank status addr) = xenBankLine bank status addr :=
    skipgunk_xen hclean
  have hcall : ∀ r, token env r (xenBankLine bank status addr) =
      some (xenToken env r (xenBankLine bank status addr)) := token_xen hclean
  refine takes_last hgunk hcall ?_ ?_ ?_ <;> intro r <;>
    obtain ⟨r', n, htoken, hn, hvalues⟩ := xenToken_xenBankLine bank status addr r <;> rw [htoken]
  · exact hvalues
  · exact hn

end Xen

/-! ## The CPU of a record -/

/-- The lines that tell the CPU of a record. -/
inductive CpuHeader
  | line (header : HeaderLine)
  /-- the two lines of Xen -/
  | xen (cpu : UInt32) (bank : UInt8) (status : UInt64) (addr : Option UInt64)

def CpuHeader.cpu : CpuHeader → UInt32
  | .line header => header.cpu
  | .xen cpu .. => cpu

def CpuHeader.text : CpuHeader → List Char
  | .line header => header.text
  | .xen cpu bank status addr => xenCpuLine cpu.toNat ++ xenBankLine bank status addr

/-- What these lines do to an empty record. -/
def CpuHeader.read : CpuHeader → Values
  | .line header => header.read {}
  | .xen cpu bank status addr => xenBankChange bank status addr { m := { cpu := cpu.toUInt8 } }

/-- `decodefatal` makes one record of `text`, and the number that is printed for its CPU is
    `cpu`. -/
def ReportedFor (env : AsciiEnv) (text : List Char) (cpu : UInt32) : Prop :=
  ∃ r, finals (decodefatal env text) = [r] ∧ cpuNumber r.m = cpu

section Reported

variable {env : AsciiEnv}

theorem CpuHeader.feeds (env : AsciiEnv) (h : CpuHeader) (text : List Char) :
    ∃ r : AsciiRecord, r.values = h.read ∧
      finalsFrom env {} (h.text ++ text) = finalsFrom env ⟨r, true⟩ text := by
  cases h with
  | line header => exact (header.takes env).finalsFrom header.isLine {} text
  | xen cpu bank status addr =>
    obtain ⟨r₁, hr₁, heq₁⟩ := (xenCpuLine_takes env cpu).finalsFrom
      (xenCpuLine_clean cpu.toNat).isLine {} (xenBankLine bank status addr ++ text)
    obtain ⟨r₂, hr₂, heq₂⟩ := (xenBankLine_takes env bank status addr).finalsFrom
      (xenBankLine_clean (.inl rfl) bank status addr).isLine ⟨r₁, false⟩ text
    refine ⟨r₂, ?_, ?_⟩
    · rw [hr₂, hr₁]
      rfl
    · rw [CpuHeader.text, List.append_assoc]
      exact heq₁.trans heq₂

/-- No field gives the CPU number that every report prefers. -/
theorem numberSetter_extcpu (x : UInt32) :
    NumberSetter (fun m => { m with extcpu := x }) (fun _ => false) where
  store name v m := by cases name <;> rfl
  cpuid _ _ _ := rfl
  rip _ _ _ := rfl

theorem extcpu_of_replaces {f : Mce → Mce}
    (h : ∀ x : UInt32, Replaces f (fun m => { m with extcpu := x }) false) (m : Mce) :
    (f m).extcpu = m.extcpu :=
  Replaces.get_eq h Mce.extcpu (fun _ _ => rfl) (fun _ => rfl) m

theorem lines_extcpu (ls : List FieldLine) (m : Mce) :
    (ls.foldl FieldLine.change m).extcpu = m.extcpu := by
  refine extcpu_of_replaces (f := fun m => ls.foldl FieldLine.change m) (fun x => ?_) m
  have h := (numberSetter_extcpu x).lines ls
  rwa [List.any_eq_false.mpr fun line _ => by simp [FieldLine.gives_false]] at h

theorem giveAll_extcpu (more : List (Gap × Item)) (m : Mce) :
    (giveAll m more).extcpu = m.extcpu := by
  refine extcpu_of_replaces (f := fun m => giveAll m more) (fun x => ?_) m
  have h := (numberSetter_extcpu x).giveAll more
  rwa [List.any_eq_false.mpr fun q _ => by simp [Item.gives_false]] at h

theorem CpuHeader.read_cpu (h : CpuHeader) :
    h.read.m.cpu = h.cpu.toUInt8 ∧ h.read.m.extcpu = 0 := by
  cases h with
  | xen cpu bank status addr => exact ⟨rfl, rfl⟩
  | line header =>
    refine ⟨header.read_cpu, ?_⟩
    cases header with
    | fatal cpu exception mcgstatus bank status =>
      rw [CpuHeader.read, HeaderLine.read]
      split_ifs <;> rfl
    | plain named cpu bank more tail => exact giveAll_extcpu more _

/-- The number that is printed is the one of the text modulo 256. -/
theorem finals_cpuHeader (env : AsciiEnv) (h : CpuHeader) (ls : List FieldLine) :
    ∃ r, finals (decodefatal env (h.text ++ ls.flatMap FieldLine.text)) = [r] ∧
      cpuNumber r.m = h.cpu.toUInt8.toUInt32 := by
  obtain ⟨r₁, hr₁, heq₁⟩ := h.feeds env (ls.flatMap FieldLine.text)
  obtain ⟨r₂, hr₂, heq₂⟩ := lines_feed env ls r₁ []
  rw [List.append_nil] at heq₂
  have hm : r₂.m = ls.foldl FieldLine.change h.read.m := by
    have hvalues := congrArg Values.m hr₂
    rwa [foldl_read_m, hr₁] at hvalues
  obtain ⟨hcpu, hextcpu⟩ := h.read_cpu
  refine ⟨_, heq₁.trans (heq₂.trans (finalsFrom_nil env r₂)), ?_⟩
  have hext : r₂.m.extcpu = 0 := by rw [hm, lines_extcpu, hextcpu]
  have hcpu₂ : r₂.m.cpu = h.cpu.toUInt8 := by
    rw [hm, cpu_of_replaces_header (lines_replaces_header ls), hcpu]
  show (if r₂.m.extcpu ≠ 0 then r₂.m.extcpu else r₂.m.cpu.toUInt32) = _
  rw [if_neg (not_not_intro hext), hcpu₂]

end Reported

theorem toUInt8_toUInt32_eq_iff (cpu : UInt32) :
    cpu.toUInt8.toUInt32 = cpu ↔ cpu.toNat < 256 := by
  rw [← UInt32.toNat_inj, UInt8.toNat_toUInt32, UInt32.toNat_toUInt8]
  omega

/-- **The CPU number of a record.** For every number of 32 bits, every format in which a
    record tells its CPU, and every sequence of lines behind it: the record is reported for
    that CPU if and only if the number is below 256. -/
theorem reportedFor_iff (env : AsciiEnv) (h : CpuHeader) (ls : List FieldLine) :
    ReportedFor env (h.text ++ ls.flatMap FieldLine.text) h.cpu ↔ h.cpu.toNat < 256 := by
  obtain ⟨r, hfinals, hcpu⟩ := finals_cpuHeader env h ls
  rw [ReportedFor, hfinals, ← toUInt8_toUInt32_eq_iff, ← hcpu]
  simp

/-- A panic of CPU 256, decoded offline, is reported for CPU 0. -/
theorem cpu_256_reported_as_0 :
    String.ofList (CpuHeader.line (.fatal 256 true 5 4 0xb200000000070f0f)).text =
      "CPU 256: Machine Check Exception: 5 Bank 4: b200000000070f0f\n" ∧
    ¬ ReportedFor ⟨false, 0⟩ (CpuHeader.line (.fatal 256 true 5 4 0xb200000000070f0f)).text 256 ∧
    ReportedFor ⟨false, 0⟩ (CpuHeader.line (.fatal 256 true 5 4 0xb200000000070f0f)).text 0 := by
  obtain ⟨r, hfinals, hcpu⟩ :=
    finals_cpuHeader ⟨false, 0⟩ (.line (.fatal 256 true 5 4 0xb200000000070f0f)) []
  rw [List.flatMap_nil, List.append_nil] at hfinals
  refine ⟨by decide +kernel, ?_, r, hfinals, hcpu⟩
  rintro ⟨r', hr', hcpu'⟩
  rw [hfinals, List.singleton_inj] at hr'
  rw [← hr', hcpu] at hcpu'
  exact absurd hcpu' (by decide)

end Mcelog.Ascii
