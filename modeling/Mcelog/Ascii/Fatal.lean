import Mcelog.Ascii.Tokens

/-!
# The kernel's fatal line

The kernel prints a machine check that panics as
`CPU n: Machine Check[ Exception]: mcgstatus Bank b: status`. `decodefatal` skips
the optional word with the set `[ :Ec-x]`, which also has the hexadecimal digits
`c` to `f`.

* `fatal_line_faithful_iff`: the line is decoded faithfully exactly if the first
  digit of `mcgstatus` is below `c`.
-/

namespace Mcelog.Ascii

open Mcelog.Common Mcelog.Machine

/-! ## The line -/

/-- The line with the text `check` between `Machine Check` and `Bank`. -/
def checkLine (cpu : ℕ) (check : List Char) (bank : UInt8) (status : UInt64)
    (ending : List Char) : List Char :=
  "CPU ".toList ++ (Nat.toDigits 10 cpu ++ (": Machine Check".toList ++ (check ++
    (" Bank ".toList ++ (Nat.toDigits 10 bank.toNat ++ (": ".toList ++
      ((Nat.toDigits 16 status.toNat).leftpad 16 '0' ++ ending)))))))

/-- `"CPU %d: Machine Check%s: %Lx Bank %d: %016Lx\n"`, where `%s` is empty or
    `" Exception"`; the last line of a file may lack its newline. -/
def fatalLine (cpu : ℕ) (exception : Bool) (mcgstatus : UInt64) (bank : UInt8)
    (status : UInt64) (newline : Bool) : List Char :=
  checkLine cpu ((if exception then " Exception: ".toList else ": ".toList) ++
    Nat.toDigits 16 mcgstatus.toNat) bank status (if newline then ['\n'] else [])

/-- The first hexadecimal digit of a number. -/
def leadingDigit (n : ℕ) : ℕ := digitValue ((Nat.toDigits 16 n).headD '0')

/-- Read in the state `st`, the line gives the record these values and is not
    incomplete. -/
def DecodesFatal (env : AsciiEnv) (st : Decoder) (line : List Char) (mcgstatus : UInt64)
    (bank : UInt8) (status : UInt64) : Prop :=
  let r := (decodeLine env st line).1.record
  r.m.mcgstatus = mcgstatus ∧ r.m.bank = bank ∧ r.m.status = status ∧
    r.missing = st.record.missing

/-! ## Reading the line -/

section Line

variable {cpu : ℕ} {check ending : List Char} {bank : UInt8} {status : UInt64}
  {env : AsciiEnv} {st : Decoder} {skipped ds : List Char}

theorem length_toDigits_le_sixteen (n : UInt64) : (Nat.toDigits 16 n.toNat).length ≤ 16 :=
  (Nat.length_toDigits_le_iff (by decide) (by decide)).mpr n.toNat_lt

theorem isDigitOf_status (status : UInt64) :
    ∀ c ∈ (Nat.toDigits 16 status.toNat).leftpad 16 '0', isDigitOf 16 c = true :=
  isDigitOf_of_mem_leftpad (by decide) (isDigitOf_hex _)

/-- A text that the set skips, and that is no part of the tag of syslog. -/
structure SkippedText (text : List Char) : Prop where
  skipped : ∀ c ∈ text, exceptionSet c = true
  ne_nil : text ≠ []
  no_tag : 'g' ∉ text

/-- Digits that the set has are skipped with the text before them. -/
theorem SkippedText.append (h : SkippedText skipped) (hset : ∀ c ∈ ds, exceptionSet c = true)
    (hds : ∀ c ∈ ds, isDigitOf 16 c = true) : SkippedText (skipped ++ ds) where
  skipped := fun c hc => (List.mem_append.mp hc).elim (h.skipped c) (hset c)
  ne_nil := by simp [h.ne_nil]
  no_tag := by
    rw [List.mem_append, not_or]
    exact ⟨h.no_tag, notMem_of_isDigitOf hds (by decide)⟩

/-- The format and the line up to the number. -/
theorem scan_checkLine_start (hskip : ∀ c ∈ skipped, exceptionSet c = true)
    (hskipped : skipped ≠ []) (hhead : NoHead exceptionSet ds) (total : ℕ) :
    scan total fatalFormat ("CPU ".toList ++ (Nat.toDigits 10 cpu ++
        (": Machine Check".toList ++ (skipped ++ ds)))) =
      let after := scan total (.num 16 false (some 16) 64 :: (literal " Bank " ++ (conversionD ::
        (literal ": " ++ [.num 16 false (some 16) 64, .pos])))) ds
      (.num (strtoValue false false cpu % 2 ^ 32) :: after.1, after.2) := by
  have hcpu := isDigitOf_decimal cpu
  simp only [fatalFormat, List.append_assoc, List.cons_append, List.nil_append]
  rw [scan_literal "CPU " (by decide)
      (fun _ => noHead_isSpace_toDigits _ _),
    conversionU, scan_num (by decide) hcpu Nat.toDigits_ne_nil
      (numberEnds_text ": Machine Check" (by decide)) (by simp),
    ofNumeral_decimal,
    scan_literal ": Machine Check" (by decide) (fun h => absurd h (by decide)),
    scan_skipSet hskip hskipped hhead]

/-- The text before the number is skipped by the set. Then the rest of the line is
    read. -/
theorem scan_checkLine (hskip : ∀ c ∈ skipped, exceptionSet c = true) (hskipped : skipped ≠ [])
    (hds : ∀ c ∈ ds, isDigitOf 16 c = true) (hne : ds ≠ []) (hhead : NoHead exceptionSet ds)
    (hlen : ds.length ≤ 16) (hv : ofNumeral 16 ds < 2 ^ 64) (hend : NumberEnds 16 ending)
    (total : ℕ) :
    scan total fatalFormat (checkLine cpu (skipped ++ ds) bank status ending) =
      ([.num (strtoValue false false cpu % 2 ^ 32), .num (ofNumeral 16 ds),
        .num bank.toNat, .num status.toNat, .pos (total - ending.length)], none) := by
  have hbank := isDigitOf_decimal bank.toNat
  have hbankValue : strtoValue true false bank.toNat % 2 ^ 32 = bank.toNat :=
    strtoValue_signed (bank.toNat_lt.trans (by decide)) (by decide)
  have hstatus := isDigitOf_status status
  have hstatusNe : (Nat.toDigits 16 status.toNat).leftpad 16 '0' ≠ [] := by
    rw [← List.length_pos_iff, List.length_leftpad]
    omega
  have hstatusLen : ((Nat.toDigits 16 status.toNat).leftpad 16 '0').length ≤ 16 := by
    rw [List.length_leftpad]
    exact max_le le_rfl (length_toDigits_le_sixteen status)
  have hheadDs : ∀ t, NoHead exceptionSet (ds ++ t) := by
    intro t
    obtain ⟨c, ds', rfl⟩ := List.exists_cons_of_ne_nil hne
    exact hhead
  rw [checkLine, List.append_assoc skipped, scan_checkLine_start hskip hskipped (hheadDs _)]
  dsimp only
  rw [scan_num (by decide) hds hne (numberEnds_text " Bank " (by decide)) (by simpa using hlen),
    strtoValue_unsigned hv le_rfl,
    scan_literal " Bank " (by decide)
      (fun _ => noHead_isSpace_toDigits _ _),
    conversionD, scan_num (by decide) hbank Nat.toDigits_ne_nil
      (numberEnds_text ": " (by decide)) (by simp),
    ofNumeral_decimal, hbankValue,
    scan_literal ": " (by decide) (fun _ => noHead_isSpace_digits (by decide) hstatus hstatusNe),
    scan_num (by decide) hstatus hstatusNe hend (by simpa using hstatusLen),
    ofNumeral_leftpad, ofNumeral_hex,
    strtoValue_unsigned status.toNat_lt le_rfl]
  rfl

/-- No part of the line is skipped before it is read. -/
theorem skipgunk_checkLine (hcheck : 'g' ∉ check) (hending : 'g' ∉ ending) :
    skipgunk (checkLine cpu check bank status ending) = checkLine cpu check bank status ending := by
  have hdec : ∀ n, 'g' ∉ Nat.toDigits 10 n := fun n =>
    notMem_of_isDigitOf (isDigitOf_decimal n) (by decide)
  have hstatus : 'g' ∉ (Nat.toDigits 16 status.toNat).leftpad 16 '0' :=
    notMem_of_isDigitOf (isDigitOf_status status) (by decide)
  have hnot : 'g' ∉ checkLine cpu check bank status ending := by
    simp only [checkLine, List.mem_append, not_or]
    exact ⟨by decide, hdec cpu, by decide, hcheck, by decide, hdec _, by decide, hstatus, hending⟩
  obtain ⟨t, ht⟩ : ∃ t, checkLine cpu check bank status ending = 'C' :: t := ⟨_, rfl⟩
  rw [ht] at hnot ⊢
  have hfree : TagFree ('C' :: t) := ⟨'g', by decide, hnot⟩
  exact skipgunk_cons hfree (by decide)

theorem token_checkLine (env : AsciiEnv) (r : AsciiRecord) (cpu : ℕ) (check : List Char)
    (bank : UInt8) (status : UInt64) (ending : List Char) :
    token env r (checkLine cpu check bank status ending) =
      some (cpuToken r (checkLine cpu check bank status ending)) := rfl

/-- The record after a line whose number the set does not touch. -/
theorem cpuToken_checkLine (cpu : ℕ) (bank : UInt8) (status : UInt64) (hskip : SkippedText skipped)
    (hds : ∀ c ∈ ds, isDigitOf 16 c = true) (hne : ds ≠ []) (hhead : NoHead exceptionSet ds)
    (hlen : ds.length ≤ 16) (hv : ofNumeral 16 ds < 2 ^ 64)
    (hending : ∀ c ∈ ending, isSpace c = true) (r : AsciiRecord) :
    let line := checkLine cpu (skipped ++ ds) bank status ending
    ∃ r', cpuToken r line = ⟨r', 4, line, line.length - ending.length⟩ ∧
      r'.m = { r.m with
        cpu := .ofNat (strtoValue false false cpu % 2 ^ 32), mcgstatus := .ofNat (ofNumeral 16 ds)
        bank := bank, status := status } ∧
      r'.symbol = r.symbol ∧ r'.missing = r.missing := by
  intro line
  have hend : NumberEnds 16 ending :=
    numberEnds_of_space le_rfl fun c hc => hending c (List.mem_of_mem_head? hc)
  have hscan : scan line.length fatalFormat line =
      ([.num (strtoValue false false cpu % 2 ^ 32), .num (ofNumeral 16 ds), .num bank.toNat,
        .num status.toNat, .pos (line.length - ending.length)], none) :=
    scan_checkLine hskip.skipped hskip.ne_nil hds hne hhead hlen hv hend line.length
  have hbank : bank = .ofNat bank.toNat := UInt8.ofNat_toNat.symm
  have hstatus : status = .ofNat status.toNat := UInt64.ofNat_toNat.symm
  rw [hbank, hstatus]
  unfold cpuToken sscanf
  dsimp only
  rw [hscan]
  exact ⟨_, rfl, rfl, rfl, rfl⟩

/-- A line is at its end after its number, bank and status. -/
theorem checkLine_ending (cpu : ℕ) (check : List Char) (bank : UInt8) (status : UInt64)
    (ending : List Char) :
    let line := checkLine cpu check bank status ending
    0 < line.length - ending.length ∧ line.drop (line.length - ending.length) = ending := by
  intro line
  have hsuffix : ending <:+ line := by
    simp only [line, checkLine, ← List.append_assoc]
    exact List.suffix_append _ _
  refine ⟨?_, (List.suffix_iff_eq_drop.mp hsuffix).symm⟩
  have hcpu : 0 < "CPU ".toList.length := by decide
  simp only [line, checkLine, List.length_append]
  omega

/-- A number that the set does not touch is what the record gets. -/
theorem decodeLine_checkLine (env : AsciiEnv) (st : Decoder) (cpu : ℕ) (bank : UInt8)
    (status : UInt64) (hskip : SkippedText skipped)
    (hds : ∀ c ∈ ds, isDigitOf 16 c = true) (hne : ds ≠ []) (hhead : NoHead exceptionSet ds)
    (hlen : ds.length ≤ 16) (hv : ofNumeral 16 ds < 2 ^ 64)
    (hending : ∀ c ∈ ending, isSpace c = true) :
    DecodesFatal env st (checkLine cpu (skipped ++ ds) bank status ending)
      (.ofNat (ofNumeral 16 ds)) bank status := by
  have hgunk : skipgunk (checkLine cpu (skipped ++ ds) bank status ending) =
      checkLine cpu (skipped ++ ds) bank status ending := by
    refine skipgunk_checkLine ?_ fun hmem => absurd (hending _ hmem) (by decide)
    rw [List.mem_append, not_or]
    exact ⟨hskip.no_tag, notMem_of_isDigitOf hds (by decide)⟩
  obtain ⟨r, htoken, hm, -, hmissing⟩ :=
    cpuToken_checkLine cpu bank status hskip hds hne hhead hlen hv hending st.record
  obtain ⟨hpos, hleft⟩ := checkLine_ending cpu (skipped ++ ds) bank status ending
  have hcall := token_checkLine env st.record cpu (skipped ++ ds) bank status ending
  rw [htoken] at hcall
  unfold DecodesFatal
  rw [decodeLine_of_token hgunk hcall hpos hleft, decodeLine_blank (skipgunk_of_blanks hending)]
  dsimp only
  rw [hm]
  exact ⟨rfl, rfl, rfl, hmissing⟩

/-- If the set takes the whole number, it takes the blank after it as well, and the
    number that is read is the `Ba` of `Bank`. -/
theorem cpuToken_all_skipped (cpu : ℕ) (bank : UInt8) (status : UInt64)
    (hcheck : SkippedText check) (ending : List Char) (r : AsciiRecord) :
    let line := checkLine cpu check bank status ending
    ∃ r', cpuToken r line = ⟨r', 2, line, 0⟩ ∧
      r'.m = { r.m with cpu := .ofNat (strtoValue false false cpu % 2 ^ 32), mcgstatus := 0xba } ∧
      r'.symbol = r.symbol ∧ r'.missing = r.missing + 1 := by
  intro line
  have hsplit : line = "CPU ".toList ++ (Nat.toDigits 10 cpu ++ (": Machine Check".toList ++
      ((check ++ [' ']) ++ ("Ba".toList ++ ("nk ".toList ++ (Nat.toDigits 10 bank.toNat ++
        (": ".toList ++ ((Nat.toDigits 16 status.toNat).leftpad 16 '0' ++ ending)))))))) := by
    rw [show line = checkLine cpu check bank status ending from rfl, checkLine,
      List.append_assoc check]
    rfl
  have hskip : ∀ c ∈ check ++ [' '], exceptionSet c = true := by
    intro c hc
    rcases List.mem_append.mp hc with hc | hc
    · exact hcheck.skipped c hc
    · rw [List.mem_singleton.mp hc]
      decide
  have hscan : scan line.length fatalFormat line =
      ([.num (strtoValue false false cpu % 2 ^ 32), .num 0xba], some .matching) := by
    have hhead : ∀ t, NoHead exceptionSet ("Ba".toList ++ t) := fun t => noHead_cons (by decide)
    generalize line.length = total
    rw [hsplit, scan_checkLine_start hskip (by simp) (hhead _)]
    dsimp only
    rw [scan_num (by decide) (by decide) (by decide) (numberEnds_text "nk " (by decide))
      (by decide)]
    rfl
  unfold cpuToken sscanf
  dsimp only
  rw [hscan]
  exact ⟨_, rfl, rfl, rfl, rfl⟩

theorem decodeLine_checkLine_all_skipped (env : AsciiEnv) (st : Decoder) (cpu : ℕ)
    (bank : UInt8) (status : UInt64) (hcheck : SkippedText check)
    (hending : ∀ c ∈ ending, isSpace c = true) :
    (decodeLine env st (checkLine cpu check bank status ending)).1.record.missing =
      st.record.missing + 1 := by
  have hgunk : skipgunk (checkLine cpu check bank status ending) = _ :=
    skipgunk_checkLine hcheck.no_tag fun hmem => absurd (hending _ hmem) (by decide)
  obtain ⟨r, htoken, -, -, hmissing⟩ :=
    cpuToken_all_skipped cpu bank status hcheck ending st.record
  have hcall := token_checkLine env st.record cpu check bank status ending
  rw [htoken] at hcall
  rw [decodeLine_last hgunk hcall rfl]
  exact hmissing

end Line

/-! ## Main theorem -/

section Main

/-- The set has the digits from `c` on. -/
theorem exceptionSet_of_mem_toDigits {c : Char} {n : ℕ} (hc : c ∈ Nat.toDigits 16 n) :
    exceptionSet c = decide (12 ≤ digitValue c) := by
  obtain ⟨d, hd, rfl⟩ := exists_digitChar_of_mem_toDigits (by decide) n c hc
  rw [digitValue_digitChar hd]
  clear hc
  revert d
  decide

variable {word ending : List Char} {mcgstatus : UInt64}

theorem noHead_of_leadingDigit_lt (h : leadingDigit mcgstatus.toNat < 12) :
    NoHead exceptionSet (Nat.toDigits 16 mcgstatus.toNat) := by
  intro c hc
  rw [exceptionSet_of_mem_toDigits (List.mem_of_mem_head? hc)]
  rw [leadingDigit, List.headD_eq_head?_getD, hc] at h
  exact decide_eq_false (not_le.mpr h)

/-- A first digit below `c` is not skipped. -/
theorem decodesFatal_of_low (env : AsciiEnv) (st : Decoder) (cpu : ℕ) (bank : UInt8)
    (status : UInt64) (hword : SkippedText word) (hending : ∀ c ∈ ending, isSpace c = true)
    (h : leadingDigit mcgstatus.toNat < 12) :
    DecodesFatal env st (checkLine cpu (word ++ Nat.toDigits 16 mcgstatus.toNat) bank status ending)
      mcgstatus bank status := by
  have hvalue : ofNumeral 16 (Nat.toDigits 16 mcgstatus.toNat) = mcgstatus.toNat :=
    ofNumeral_hex _
  have hdecodes := decodeLine_checkLine env st cpu bank status hword
    (isDigitOf_hex _) Nat.toDigits_ne_nil
    (noHead_of_leadingDigit_lt h) (length_toDigits_le_sixteen mcgstatus)
    (by rw [hvalue]; exact mcgstatus.toNat_lt) hending
  rwa [hvalue, UInt64.ofNat_toNat] at hdecodes

/-- The number that remains of `mcgstatus` when its leading digits from `c` on are
    skipped. -/
theorem ofNumeral_dropWhile_lt (h : 12 ≤ leadingDigit mcgstatus.toNat) :
    ofNumeral 16 ((Nat.toDigits 16 mcgstatus.toNat).dropWhile exceptionSet) <
      mcgstatus.toNat := by
  obtain ⟨c, ds, hcons⟩ := List.exists_cons_of_ne_nil
    (Nat.toDigits_ne_nil (n := mcgstatus.toNat) (b := 16))
  have hlead : 12 ≤ digitValue c := by rwa [leadingDigit, hcons] at h
  have hc : exceptionSet c = true := by
    rw [exceptionSet_of_mem_toDigits (hcons ▸ List.mem_cons_self)]
    exact decide_eq_true hlead
  have hlt := ofNumeral_lt_append (by decide : 0 < 16) (by omega : 0 < digitValue c)
    (ds.takeWhile exceptionSet) (ds.dropWhile exceptionSet)
  rw [List.cons_append, List.takeWhile_append_dropWhile, ← hcons,
    ofNumeral_hex] at hlt
  rwa [hcons, List.dropWhile_cons, if_pos hc]

/-- A first digit from `c` on is skipped: `mcgstatus` lacks it, or is lost. -/
theorem not_decodesFatal_of_high (env : AsciiEnv) (st : Decoder) (cpu : ℕ) (bank : UInt8)
    (status : UInt64) (hword : SkippedText word) (hending : ∀ c ∈ ending, isSpace c = true)
    (h : 12 ≤ leadingDigit mcgstatus.toNat) :
    ¬ DecodesFatal env st
      (checkLine cpu (word ++ Nat.toDigits 16 mcgstatus.toNat) bank status ending)
      mcgstatus bank status := by
  intro hdecodes
  have hlt := ofNumeral_dropWhile_lt h
  have hlen := length_toDigits_le_sixteen mcgstatus
  have hdigit := isDigitOf_hex mcgstatus.toNat
  set digits := Nat.toDigits 16 mcgstatus.toNat
  have hskip : SkippedText (word ++ digits.takeWhile exceptionSet) :=
    hword.append (fun c hc => List.mem_takeWhile_imp hc)
      (fun c hc => hdigit c ((List.takeWhile_prefix _).subset hc))
  have hsplit : word ++ digits =
      word ++ digits.takeWhile exceptionSet ++ digits.dropWhile exceptionSet := by
    rw [List.append_assoc, List.takeWhile_append_dropWhile]
  rw [hsplit] at hdecodes
  by_cases hpost : digits.dropWhile exceptionSet = []
  · rw [hpost, List.append_nil] at hdecodes
    have hmissing := decodeLine_checkLine_all_skipped env st cpu bank status hskip hending
    have hsame := hdecodes.2.2.2
    omega
  · have hread := decodeLine_checkLine env st cpu bank status hskip
      (fun c hc => hdigit c ((List.dropWhile_suffix _).subset hc)) hpost (noHead_dropWhile _ _)
      ((List.dropWhile_suffix _).length_le.trans hlen) (hlt.trans mcgstatus.toNat_lt) hending
    have hvalues := congrArg UInt64.toNat (hdecodes.1.symm.trans hread.1)
    rw [UInt64.toNat_ofNat_of_lt' (hlt.trans mcgstatus.toNat_lt)] at hvalues
    omega

/-- **The fatal line.** For every state of the decoder, CPU, bank, `mcgstatus` and
    status, with and without `Exception`: reading the line gives the record exactly
    these values and leaves `missing` alone if and only if the first hexadecimal
    digit of `mcgstatus` is below `c`. -/
theorem fatal_line_faithful_iff (env : AsciiEnv) (st : Decoder) (cpu : ℕ)
    (exception newline : Bool) (mcgstatus status : UInt64) (bank : UInt8) :
    DecodesFatal env st (fatalLine cpu exception mcgstatus bank status newline) mcgstatus bank
      status ↔ leadingDigit mcgstatus.toNat < 12 := by
  have hword : SkippedText (if exception then " Exception: ".toList else ": ".toList) := by
    cases exception <;> exact ⟨by decide, by decide, by decide⟩
  have hending : ∀ c ∈ (if newline then ['\n'] else []), isSpace c = true := by
    cases newline <;> decide
  constructor
  · intro hdecodes
    by_contra hhigh
    exact not_decodesFatal_of_high env st cpu bank status hword hending (not_lt.mp hhigh) hdecodes
  · exact decodesFatal_of_low env st cpu bank status hword hending

/-- `mcgstatus` is `c`: the number that is read is the `Ba` of `Bank`. -/
theorem fatal_line_misread :
    ¬ DecodesFatal ⟨false, 0⟩ {} (fatalLine 0 true 0xc 14 0xbe000f42001000c1 true) 0xc 14
      0xbe000f42001000c1 := by
  rintro ⟨-, -, -, hmissing⟩
  revert hmissing
  decide +kernel

end Main

end Mcelog.Ascii
