import Mcelog.Ascii.Date
import Mcelog.Ascii.Text

/-!
# Reading the lines of a record

The lines that `dump_mce` prints, up to the one of the status, are read by
`decodefatal` one after the other.

* `cpuLine_feeds`, `miscAddrLine_feeds`, `timeLine_feeds`, `statusLine_feeds`: each
  line is read to its end and stores what it shows.
* `decodedFrom_bad_date`, `decodedFrom_no_date`: a date that cannot be skipped ends
  the record.
-/

namespace Mcelog.Ascii

open Mcelog.Common Mcelog.Machine

/-! ## Text without special characters -/

section Clean

variable {x : Char} {l l' : List Char}

/-- A text without newline, NUL, the letter `H` and the letter `x`. -/
def Clean (x : Char) (l : List Char) : Prop := ∀ c ∈ l, c ≠ '\n' ∧ c ≠ '\x00' ∧ c ≠ 'H' ∧ c ≠ x

instance (x : Char) (l : List Char) : Decidable (Clean x l) :=
  inferInstanceAs (Decidable (∀ c ∈ l, c ≠ '\n' ∧ c ≠ '\x00' ∧ c ≠ 'H' ∧ c ≠ x))

theorem clean_nil : Clean x [] := fun _ h => by cases h

theorem Clean.append (h : Clean x l) (h' : Clean x l') : Clean x (l ++ l') :=
  fun c hc => (List.mem_append.mp hc).elim (h c) (h' c)

theorem clean_of_isDigitOf {base : ℕ} (hb : base ≤ 16) (hx : isDigitOf 16 x = false)
    (h : ∀ c ∈ l, isDigitOf base c = true) : Clean x l := by
  intro c hc
  have hne : ∀ y, isDigitOf 16 y = false → c ≠ y := by
    rintro y hy rfl
    exact of_decide_eq_false hy (lt_of_lt_of_le (of_decide_eq_true (h c hc)) hb)
  exact ⟨hne _ (by decide), hne _ (by decide), hne _ (by decide), hne _ hx⟩

theorem clean_hex (hx : isDigitOf 16 x = false) (n : ℕ) : Clean x (Nat.toDigits 16 n) :=
  clean_of_isDigitOf le_rfl hx (isDigitOf_hex n)

theorem clean_dec (hx : isDigitOf 16 x = false) (n : ℕ) : Clean x (Nat.toDigits 10 n) :=
  clean_of_isDigitOf (by decide) hx (isDigitOf_decimal n)

/-- A line of such a text. -/
def CleanLine (x : Char) (line : List Char) : Prop := ∃ l, line = l ++ ['\n'] ∧ Clean x l

theorem cleanLine_newline : CleanLine x ['\n'] := ⟨[], rfl, clean_nil⟩

theorem CleanLine.append {line : List Char} (h : Clean x l) (h' : CleanLine x line) :
    CleanLine x (l ++ line) := by
  obtain ⟨l', rfl, hl'⟩ := h'
  exact ⟨l ++ l', by rw [List.append_assoc], h.append hl'⟩

variable {line : List Char}

theorem CleanLine.isLine (h : CleanLine x line) : IsLine line := by
  obtain ⟨l, rfl, hl⟩ := h
  exact ⟨l, rfl, fun hmem => (hl _ hmem).1 rfl, fun hmem => (hl _ hmem).2.1 rfl⟩

theorem CleanLine.tagFree (hx : x ∈ "mcelog: ".toList) (h : CleanLine x line) : TagFree line := by
  obtain ⟨l, rfl, hl⟩ := h
  refine ⟨x, hx, fun hmem => ?_⟩
  rcases List.mem_append.mp hmem with hmem | hmem
  · exact (hl x hmem).2.2.2 rfl
  · rw [List.mem_singleton.mp hmem] at hx
    exact absurd hx (by decide)

theorem CleanLine.notMem_H (h : CleanLine x line) : 'H' ∉ line := by
  obtain ⟨l, rfl, hl⟩ := h
  intro hmem
  rcases List.mem_append.mp hmem with hmem | hmem
  · exact (hl _ hmem).2.2.1 rfl
  · exact absurd hmem (by decide)

end Clean

/-! ## Lines of fields -/

section Lines

variable {base bits v : ℕ} {f : Field} {store : Mce → ℕ → Mce} {blanks left ds : List Char}

theorem TagFree.behind {name : String}
    (h : TagFree (blanks ++ (name.toList ++ (' ' :: (ds ++ left))))) : TagFree left :=
  h.suffix <| (List.suffix_append _ _).trans <| (List.suffix_cons _ _).trans <|
    (List.suffix_append _ _).trans (List.suffix_append _ _)

/-- Reading a field that was printed. -/
theorem Reaches.printed (env : AsciiEnv) (name : String)
    (hname : startsToken name = true) (hbase : 1 < base) (hb : base ≤ 16)
    (hv : v < 2 ^ bits) (hbits : bits ≤ 64) (hleft : NumberEnds base left)
    (hblanks : ∀ c ∈ blanks, isSpace c = true)
    (hfree : TagFree (blanks ++ (name.toList ++ (' ' :: (Nat.toDigits base v ++ left)))))
    (ht : ∀ r, Ascii.token env r (name.toList ++ (' ' :: (Nat.toDigits base v ++ left))) =
      some (numField name base bits f store r
        (name.toList ++ (' ' :: (Nat.toDigits base v ++ left))))) :
    Reaches env (blanks ++ (name.toList ++ (' ' :: (Nat.toDigits base v ++ left)))) left true
      (fun m => store m v) := by
  have hvalue := ofNumeral_toDigits hbase hb v
  have h := Reaches.digits hname hb (isDigitOf_of_mem_toDigits hbase hb v) Nat.toDigits_ne_nil
    (by rwa [hvalue]) hbits hleft hblanks hfree ht
  rwa [hvalue] at h

/-- Reading a hexadecimal number of 64 bits. -/
theorem Reaches.hex (env : AsciiEnv) (name : String) {n : UInt64}
    (hname : startsToken name = true) (hleft : NumberEnds 16 left)
    (hblanks : ∀ c ∈ blanks, isSpace c = true)
    (hfree : TagFree (blanks ++ (name.toList ++ (' ' :: (Nat.toDigits 16 n.toNat ++ left)))))
    (ht : ∀ r, Ascii.token env r (name.toList ++ (' ' :: (Nat.toDigits 16 n.toNat ++ left))) =
      some (numField name 16 64 f store r
        (name.toList ++ (' ' :: (Nat.toDigits 16 n.toNat ++ left))))) :
    Reaches env (blanks ++ (name.toList ++ (' ' :: (Nat.toDigits 16 n.toNat ++ left)))) left true
      (fun m => store m n.toNat) :=
  Reaches.printed env name hname (by decide) (by decide) n.toNat_lt le_rfl hleft hblanks hfree ht

theorem Reaches.congr {env : AsciiEnv} {s : List Char} {read : Bool} {change change' : Mce → Mce}
    (h : Reaches env s left read change) (heq : ∀ m, change m = change' m) :
    Reaches env s left read change' := by
  rwa [funext heq] at h

theorem numberEnds_blank (hb : base ≤ 16) : NumberEnds base ([' '] ++ left) :=
  numberEnds_of_space hb (by simp [isSpace])

theorem numberEnds_newline (hb : base ≤ 16) : NumberEnds base ['\n'] :=
  numberEnds_of_space hb (by simp [isSpace])

theorem statusLine_clean (m : Mce) : CleanLine 'g' (statusLine m) := by
  have hhex : ∀ n, Clean 'g' (Nat.toDigits 16 n) := clean_hex (by decide)
  exact .append (by decide) (.append (hhex _) (.append (by decide) (.append (hhex _)
    cleanLine_newline)))

theorem statusLine_reaches (env : AsciiEnv) (m : Mce) :
    Reaches env (statusLine m) ['\n'] true
      (fun x => { x with status := m.status, mcgstatus := m.mcgstatus }) := by
  have hfree := (statusLine_clean m).tagFree (by decide)
  have hsplit : statusLine m = [] ++ ("STATUS".toList ++ (' ' :: (Nat.toDigits 16 m.status.toNat ++
      ([' '] ++ ("MCGSTATUS".toList ++ (' ' :: (Nat.toDigits 16 m.mcgstatus.toNat ++
        ['\n']))))))) := rfl
  rw [hsplit] at hfree ⊢
  have hstatus := Reaches.hex env "STATUS" (by decide) (numberEnds_blank le_rfl) (by simp)
    hfree (fun r => rfl)
  have hmcgstatus := Reaches.hex env "MCGSTATUS" (by decide) (numberEnds_newline le_rfl)
    (by decide) hfree.behind (fun r => rfl)
  refine (hstatus.trans hmcgstatus).congr fun x => ?_
  simp

/-- A field that may not be printed, with a blank behind it. -/
theorem Reaches.optional (env : AsciiEnv) (name : String) {printed : Bool}
    (hname : startsToken name = true) (hv : v < 2 ^ bits) (hbits : bits ≤ 64)
    (hblanks : ∀ c ∈ blanks, isSpace c = true)
    (hfree : TagFree (blanks ++ (optionalField printed name v ++ left)))
    (ht : ∀ r t, Ascii.token env r (name.toList ++ (' ' :: t)) =
      some (numField name 16 bits f store r (name.toList ++ (' ' :: t)))) :
    Reaches env (blanks ++ (optionalField printed name v ++ left))
      ((if printed then [' '] else blanks) ++ left) printed
      (fun m => if printed then store m v else m) := by
  cases printed with
  | false => exact Reaches.refl env _
  | true =>
    have htext : blanks ++ (optionalField true name v ++ left) =
        blanks ++ (name.toList ++ (' ' :: (Nat.toDigits 16 v ++ ([' '] ++ left)))) := by
      rw [optionalField, if_pos rfl, List.append_assoc, List.cons_append, List.append_assoc]
    rw [htext] at hfree ⊢
    exact Reaches.printed env name hname (by decide) (by decide) hv hbits (numberEnds_blank le_rfl)
      hblanks hfree (fun r => ht r _)

theorem TagFree.optional {printed : Bool} {name : String}
    (hfree : TagFree (blanks ++ (optionalField printed name v ++ left))) :
    TagFree ((if printed then [' '] else blanks) ++ left) := by
  obtain ⟨x, hx, hnot⟩ := hfree
  refine ⟨x, hx, fun hmem => hnot ?_⟩
  cases printed with
  | false => exact hmem
  | true =>
    rw [optionalField, if_pos rfl]
    rcases List.mem_append.mp hmem with hmem | hmem
    · simp [List.mem_singleton.mp hmem]
    · simp [hmem]

theorem clean_optional (printed : Bool) {name : String} (hname : Clean 'g' name.toList) (n : ℕ) :
    Clean 'g' (optionalField printed name n) := by
  unfold optionalField
  split_ifs
  · exact hname.append (Clean.append (l := [' ']) (by decide)
      ((clean_hex (by decide) n).append (by decide)))
  · exact clean_nil

theorem optionalField_eq_nil {printed : Bool} {name : String} {n : ℕ} :
    optionalField printed name n = [] ↔ printed = false := by
  cases printed <;> simp [optionalField]

theorem isSpace_blanks {printed : Bool} (hblanks : ∀ c ∈ blanks, isSpace c = true) :
    ∀ c ∈ (if printed then [' '] else blanks), isSpace c = true := by
  cases printed with
  | false => exact hblanks
  | true => simp [isSpace]

theorem isSpace_append_newline (hblanks : ∀ c ∈ blanks, isSpace c = true) :
    ∀ c ∈ blanks ++ ['\n'], isSpace c = true := by
  intro c hc
  rcases List.mem_append.mp hc with hc | hc
  · exact hblanks c hc
  · rw [List.mem_singleton.mp hc]
    decide

/-- The text `part` is read and changes the record so, once a field has been
    read. -/
def Feeds (env : AsciiEnv) (part : List Char) (change : Mce → Mce) : Prop :=
  ∀ st text, st.data = true → ∃ r, r.m = change st.record.m ∧
    decodedFrom env st (part ++ text) = decodedFrom env ⟨r, true⟩ text

theorem Reaches.feeds {env : AsciiEnv} {line : List Char} {read : Bool} {change : Mce → Mce}
    (h : Reaches env line left read change) (hline : IsLine line) (hleft : skipgunk left = []) :
    Feeds env line change := by
  intro st text hdata
  obtain ⟨r, hr, heq⟩ := decodedFrom_reaches hline h hleft st text
  refine ⟨r, hr, ?_⟩
  rw [heq, hdata, Bool.true_or]

theorem feeds_nil (env : AsciiEnv) : Feeds env [] id := by
  intro st text hdata
  refine ⟨st.record, rfl, ?_⟩
  rw [List.nil_append, ← hdata]

theorem statusLine_feeds (env : AsciiEnv) (m : Mce) : Feeds env (statusLine m)
    (fun x => { x with status := m.status, mcgstatus := m.mcgstatus }) :=
  (statusLine_reaches env m).feeds (statusLine_clean m).isLine (skipgunk_of_blanks (by decide))

/-- The effect of the line of the MISC and ADDR registers. -/
def miscAddrChange (m x : Mce) : Mce :=
  { x with
    misc := if m.status &&& mciStatusMiscv != 0 then m.misc else x.misc
    addr := if m.status &&& mciStatusAddrv != 0 then m.addr else x.addr }

theorem miscAddrLine_feeds (env : AsciiEnv) (m : Mce) :
    Feeds env (miscAddrLine m) (miscAddrChange m) := by
  set misc := optionalField (m.status &&& mciStatusMiscv != 0) "MISC" m.misc.toNat with hmisc
  set addr := optionalField (m.status &&& mciStatusAddrv != 0) "ADDR" m.addr.toNat with haddr
  by_cases hany : misc ++ addr = []
  · have hline : miscAddrLine m = [] := by
      rw [miscAddrLine, ← hmisc, ← haddr, if_neg (not_not.mpr hany), List.append_nil, hany]
    have hchange : miscAddrChange m = id := by
      obtain ⟨hnoMisc, hnoAddr⟩ := List.append_eq_nil_iff.mp hany
      rw [hmisc, optionalField_eq_nil] at hnoMisc
      rw [haddr, optionalField_eq_nil] at hnoAddr
      funext x
      rw [miscAddrChange, hnoMisc, hnoAddr]
      rfl
    rw [hline, hchange]
    exact feeds_nil env
  · have hline : miscAddrLine m = [] ++ (misc ++ (addr ++ ['\n'])) := by
      rw [miscAddrLine, ← hmisc, ← haddr, if_pos hany, List.nil_append]
    have hclean : CleanLine 'g' (miscAddrLine m) := by
      rw [hline]
      exact .append clean_nil (.append (clean_optional _ (by decide) _)
        (.append (clean_optional _ (by decide) _) cleanLine_newline))
    have hfree := hclean.tagFree (by decide)
    rw [hline] at hfree
    have hreadMisc := Reaches.optional env "MISC" (by decide) m.misc.toNat_lt le_rfl (by simp) hfree
      (fun r t => rfl)
    have hreadAddr := Reaches.optional env "ADDR" (by decide) m.addr.toNat_lt le_rfl
      (isSpace_blanks (by simp)) hfree.optional (fun r t => rfl)
    have hreaches := hreadMisc.trans hreadAddr
    rw [← hline] at hreaches
    refine (hreaches.congr fun x => ?_).feeds hclean.isLine (skipgunk_of_blanks ?_)
    · cases hmiscv : (m.status &&& mciStatusMiscv != 0) <;>
        cases haddrv : (m.status &&& mciStatusAddrv != 0) <;> simp [miscAddrChange, hmiscv, haddrv]
    · exact isSpace_append_newline (isSpace_blanks (isSpace_blanks (by simp)))

end Lines

/-! ## The line of the CPU -/

section CpuLine

variable {m : Mce} {denv : DumpEnv}

theorem printInt_cpuNumber (h : cpuNumber m < 256) :
    printInt (cpuNumber m).toInt32.toInt = Nat.toDigits 10 (cpuNumber m).toNat := by
  have hlt : (cpuNumber m).toNat < 256 := h
  have hint : (cpuNumber m).toInt32.toInt = ((cpuNumber m).toNat : ℤ) :=
    BitVec.toInt_eq_toNat_of_lt (by
      show 2 * (cpuNumber m).toNat < 2 ^ 32
      omega)
  rw [hint, printInt, if_neg (by omega), Int.natAbs_natCast]

/-- The CPU number and the bank, as they are printed. -/
def cpuText (cpu bank : ℕ) (left : List Char) : List Char :=
  "CPU ".toList ++ (Nat.toDigits 10 cpu ++ (" BANK ".toList ++ (Nat.toDigits 10 bank ++ left)))

section CpuToken

variable {cpu bank : ℕ} {left : List Char}

/-- The format of a fatal error reads the CPU number and no more. -/
theorem scan_fatalFormat (total : ℕ) (hcpu : cpu < 2 ^ 32) :
    scan total fatalFormat (cpuText cpu bank left) = ([.num cpu], some .matching) := by
  simp only [fatalFormat, List.append_assoc, List.cons_append, List.nil_append]
  rw [cpuText, scan_literal "CPU " (by decide) (fun _ => noHead_isSpace_toDigits _ _), conversionU,
    scan_printed (by decide) (by decide) (numberEnds_text " BANK " (by decide)) hcpu (by decide)]
  rfl

theorem scan_cpuBank (total : ℕ) (hcpu : cpu < 2 ^ 32) (hbank : bank < 2 ^ 32)
    (hleft : NumberEnds 10 left) :
    scan total (literal "CPU " ++ [conversionU] ++ literal " BANK " ++ [conversionU, .pos])
      (cpuText cpu bank left) = ([.num cpu, .num bank, .pos (total - left.length)], none) := by
  simp only [List.append_assoc, List.cons_append, List.nil_append]
  rw [cpuText, scan_literal "CPU " (by decide) (fun _ => noHead_isSpace_toDigits _ _), conversionU,
    scan_printed (by decide) (by decide) (numberEnds_text " BANK " (by decide)) hcpu (by decide),
    scan_literal " BANK " (by decide) (fun _ => noHead_isSpace_toDigits _ _),
    scan_printed (by decide) (by decide) hleft hbank (by decide)]
  rfl

theorem cpuToken_cpuText (hcpu : cpu < 2 ^ 32) (hbank : bank < 2 ^ 32)
    (hleft : NumberEnds 10 left) (r : AsciiRecord) :
    cpuToken r (cpuText cpu bank left) =
      ⟨{ r with m := { r.m with cpu := .ofNat cpu, bank := .ofNat bank } }.field Field.bank.endof,
        2, cpuText cpu bank left, (cpuText cpu bank left).length - left.length⟩ := by
  unfold cpuToken sscanf
  dsimp only
  rw [scan_fatalFormat _ hcpu, scan_cpuBank _ hcpu hbank hleft]
  rfl

theorem cpuToken_reaches (env : AsciiEnv) (hcpu : cpu < 2 ^ 32) (hbank : bank < 2 ^ 32)
    (hleft : NumberEnds 10 left) (hfree : TagFree (cpuText cpu bank left)) :
    Reaches env (cpuText cpu bank left) left true
      (fun x => { x with cpu := .ofNat cpu, bank := .ofNat bank }) := by
  have htoken := cpuToken_cpuText hcpu hbank hleft
  have hsuffix : left <:+ cpuText cpu bank left :=
    (List.suffix_append _ _).trans <| (List.suffix_append _ _).trans <|
      (List.suffix_append _ _).trans (List.suffix_append _ _)
  have hlen : left.length < (cpuText cpu bank left).length := by
    have : 0 < "CPU ".toList.length := by decide
    simp only [cpuText, List.length_append]
    omega
  have hgunk : skipgunk (cpuText cpu bank left) = cpuText cpu bank left :=
    skipgunk_cons hfree (by decide)
  have hcall : ∀ r, token env r (cpuText cpu bank left) =
      some (cpuToken r (cpuText cpu bank left)) := fun r => rfl
  refine Reaches.token hgunk hcall ?_ ?_ ?_ ?_ <;> intro r <;> rw [htoken r]
  · rfl
  · exact (by decide : (0 : ℤ) < 2)
  · exact Nat.sub_pos_of_lt hlen
  · exact drop_length_sub hsuffix

end CpuToken

/-- What stands between the brackets of a decoded TSC. -/
def tscBody (t : TscText) : List Char :=
  "at ".toList ++ (t.mhz ++ (" Mhz ".toList ++ (Nat.toDigits 10 t.days.toNat ++
    (" days ".toList ++ (Nat.toDigits 10 t.hours.toNat ++ (":".toList ++
      (Nat.toDigits 10 t.mins.toNat ++ (":".toList ++ (Nat.toDigits 10 t.secs.toNat ++
        " uptime (unreliable)".toList)))))))))

theorem fmtTsc_eq (t : TscText) : fmtTsc t = '[' :: (tscBody t ++ [']']) := by
  simp only [tscBody, List.append_assoc]
  rfl

theorem clean_tscBody {x : Char} (hx : x = 'g' ∨ x = ']') (t : TscText) : Clean x (tscBody t) := by
  have hdigit : isDigitOf 16 x = false := by
    rcases hx with rfl | rfl <;> decide
  have hmhz : Clean x t.mhz := by
    intro c hc
    have hnumber : ∀ c ∈ "-0123456789infa".toList,
        c ≠ '\n' ∧ c ≠ '\x00' ∧ c ≠ 'H' ∧ c ≠ 'g' ∧ c ≠ ']' := by decide
    obtain ⟨hnl, hnul, hH, hg, hbr⟩ := hnumber c (t.mhz_number c hc)
    refine ⟨hnl, hnul, hH, ?_⟩
    rcases hx with rfl | rfl
    · exact hg
    · exact hbr
  have hdec : ∀ n, Clean x (Nat.toDigits 10 n) := clean_dec hdigit
  have hcolon : Clean x ":".toList := by
    rcases hx with rfl | rfl <;> decide
  have hat : Clean x "at ".toList ∧ Clean x " Mhz ".toList ∧ Clean x " days ".toList ∧
      Clean x " uptime (unreliable)".toList := by
    rcases hx with rfl | rfl <;> decide
  exact hat.1.append (hmhz.append (hat.2.1.append ((hdec _).append (hat.2.2.1.append
    ((hdec _).append (hcolon.append ((hdec _).append (hcolon.append ((hdec _).append
      hat.2.2.2)))))))))

theorem clean_decodedTsc (denv : DumpEnv) (m : Mce) : Clean 'g' (decodedTsc denv m) := by
  unfold decodedTsc
  split
  · rename_i t _
    rw [fmtTsc_eq]
    exact Clean.append (l := ['[']) (by decide)
      ((clean_tscBody (Or.inl rfl) t).append (by decide))
  · exact clean_nil

theorem skipgunk_decodedTsc (h : TagFree ([' '] ++ (decodedTsc denv m ++ ['\n']))) :
    skipgunk ([' '] ++ (decodedTsc denv m ++ ['\n'])) = [] := by
  unfold decodedTsc at h ⊢
  split at h
  · rename_i t _
    have htext : fmtTsc t ++ ['\n'] = '[' :: (tscBody t ++ ']' :: ['\n']) := by
      rw [fmtTsc_eq, List.cons_append, List.append_assoc]
      rfl
    rw [htext] at h ⊢
    exact skipgunk_bracket h (by decide)
      (fun hmem => (clean_tscBody (Or.inr rfl) t _ hmem).2.2.2 rfl) (by decide)
  · exact skipgunk_of_blanks (by decide)

/-- The line of the CPU, for a number that `%d` prints as it is. -/
theorem cpuLine_eq (h : cpuNumber m < 256) (denv : DumpEnv) :
    cpuLine denv m = cpuText (cpuNumber m).toNat m.bank.toNat
      ([' '] ++ ((if m.tsc ≠ 0 then printTsc denv m else []) ++ ['\n'])) := by
  rw [cpuLine, printInt_cpuNumber h]
  rfl

theorem cpuLine_clean (h : cpuNumber m < 256) (denv : DumpEnv) :
    CleanLine 'g' (cpuLine denv m) := by
  have hdec : ∀ n, Clean 'g' (Nat.toDigits 10 n) := clean_dec (by decide)
  have htsc : Clean 'g' (if m.tsc ≠ 0 then printTsc denv m else []) := by
    split_ifs
    · exact Clean.append (by decide) ((clean_hex (by decide) _).append
        (Clean.append (l := [' ']) (by decide) (clean_decodedTsc denv m)))
    · exact clean_nil
  rw [cpuLine_eq h]
  exact .append (by decide) (.append (hdec _) (.append (by decide) (.append (hdec _)
    (.append (by decide) (.append htsc cleanLine_newline)))))

/-- The TSC and its decoded text are read to the end of the line. -/
theorem tsc_reaches (env : AsciiEnv) (hfree : TagFree ([' '] ++
    ((if m.tsc ≠ 0 then printTsc denv m else []) ++ ['\n']))) :
    ∃ left read, skipgunk left = [] ∧
      Reaches env ([' '] ++ ((if m.tsc ≠ 0 then printTsc denv m else []) ++ ['\n'])) left read
        (fun x => { x with tsc := if m.tsc ≠ 0 then m.tsc else x.tsc }) := by
  by_cases htsc : m.tsc ≠ 0
  · simp only [if_pos htsc] at hfree ⊢
    have hsplit : [' '] ++ (printTsc denv m ++ ['\n']) = [' '] ++ ("TSC".toList ++ (' ' ::
        (Nat.toDigits 16 m.tsc.toNat ++ ([' '] ++ (decodedTsc denv m ++ ['\n']))))) := by
      rw [printTsc, List.append_assoc, List.append_assoc]
      rfl
    rw [hsplit] at hfree ⊢
    refine ⟨_, true, skipgunk_decodedTsc hfree.behind, ?_⟩
    refine (Reaches.hex env "TSC" (by decide) (numberEnds_blank le_rfl) (by decide) hfree
      (fun r => rfl)).congr fun x => ?_
    simp
  · refine ⟨_, false, ?_, (Reaches.refl env _).congr fun x => ?_⟩
    · rw [if_neg htsc]
      exact skipgunk_of_blanks (by decide)
    · simp [htsc]

/-- The record after the line of the CPU. -/
def cpuChange (m x : Mce) : Mce :=
  { x with
    cpu := .ofNat (cpuNumber m).toNat
    bank := m.bank
    tsc := if m.tsc ≠ 0 then m.tsc else x.tsc }

theorem cpuLine_feeds (h : cpuNumber m < 256) (env : AsciiEnv) (denv : DumpEnv)
    (text : List Char) : ∃ r, r.m = cpuChange m {} ∧
      decodedFrom env {} (cpuLine denv m ++ text) = decodedFrom env ⟨r, true⟩ text := by
  have hclean := cpuLine_clean h denv
  have hfree := hclean.tagFree (by decide)
  have hline := cpuLine_eq h denv
  rw [hline] at hfree
  have hbank := m.bank.toNat_lt
  have hcpu := cpuToken_reaches env (cpuNumber m).toNat_lt
    (by omega : m.bank.toNat < 2 ^ 32) (numberEnds_blank (by decide)) hfree
  obtain ⟨left, read, hleft, htsc⟩ := tsc_reaches env (m := m)
    (hfree.suffix <| (List.suffix_append _ _).trans <| (List.suffix_append _ _).trans <|
      (List.suffix_append _ _).trans (List.suffix_append _ _))
  have hreaches := hcpu.trans htsc
  rw [← hline] at hreaches
  obtain ⟨r, hr, heq⟩ := decodedFrom_reaches hclean.isLine hreaches hleft {} text
  refine ⟨r, ?_, heq⟩
  rw [hr]
  simp [cpuChange]

end CpuLine

/-! ## Tokens behind the search for the disclaimer -/

section Late

variable {env : AsciiEnv} {s : List Char}

/-- The branches behind one that does not apply. -/
theorem token_eq_behind {before after : List Branch} {b : Branch}
    (hsplit : branches env = before ++ b :: after)
    (hfirst : before.find? (fun b => b.applies s) = none) (hb : b.applies s = false)
    (r : AsciiRecord) :
    token env r s = (after.find? fun b => b.applies s).map fun b => b.run r s := by
  rw [token, hsplit, List.find?_append, hfirst, Option.none_or,
    List.find?_cons_of_neg (by rw [hb]; exact Bool.false_ne_true)]

/-- The branches behind the test for `HARDWARE ERROR`. -/
theorem token_eq_late (hfirst : ((branches env).take 14).find? (fun b => b.applies s) = none)
    (hH : 'H' ∉ s) (r : AsciiRecord) : token env r s =
      (((branches env).drop 15).find? fun b => b.applies s).map fun b => b.run r s := by
  have hdisclaimer : (strstr s "HARDWARE ERROR").isSome = false := by
    rw [strstr_of_notMem (x := 'H') (by decide) hH]
    rfl
  obtain ⟨b, hb, hsplit⟩ : ∃ b : Branch, b.applies s = (strstr s "HARDWARE ERROR").isSome ∧
      branches env = (branches env).take 14 ++ b :: (branches env).drop 15 := ⟨_, rfl, rfl⟩
  exact token_eq_behind hsplit hfirst (hb.trans hdisclaimer) r

end Late

/-! ## The line of the time -/

section TimeLine

variable {denv : DumpEnv} {m : Mce}

theorem clean_name : (∀ i, Clean 'm' (wdayName i).toList) ∧ ∀ i, Clean 'm' (monName i).toList := by
  decide

theorem clean_printInt (n : ℤ) : Clean 'm' (printInt n) := by
  unfold printInt
  split_ifs
  · exact Clean.append (l := ['-']) (by decide) (clean_dec (by decide) _)
  · exact clean_dec (by decide) _

theorem asctime_clean (tm : Tm) : CleanLine 'm' (asctime tm) := by
  have htwo : ∀ n, Clean 'm' (printTwo n) :=
    fun n => clean_of_isDigitOf (by decide) (by decide) (isDigitOf_printTwo n)
  have hmday : Clean 'm' ((Nat.toDigits 10 tm.mday).leftpad 3 ' ') := by
    refine Clean.append (fun c hc => ?_) (clean_dec (by decide) _)
    rw [(List.mem_replicate.mp hc).2]
    decide
  exact .append (clean_name.1 _) (.append (l := [' ']) (by decide) (.append (clean_name.2 _)
    (.append hmday (.append (l := [' ']) (by decide) (.append (htwo _) (.append (by decide)
      (.append (htwo _) (.append (by decide) (.append (htwo _) (.append (l := [' ']) (by decide)
        (.append (clean_printInt _) cleanLine_newline)))))))))))

/-- The time with the text behind it. -/
def timeText (m : Mce) (date : List Char) : List Char :=
  "TIME".toList ++ (' ' :: (Nat.toDigits 10 m.time.toNat ++ (' ' :: date)))

theorem date_suffix (m : Mce) (date : List Char) : ' ' :: date <:+ timeText m date :=
  (List.suffix_append _ _).trans ((List.suffix_cons _ _).trans (List.suffix_append _ _))

/-- The time is read, and its date is skipped if it can be. -/
theorem time_reaches (env : AsciiEnv) {date : List Char} (hfree : TagFree (timeText m date)) :
    Reaches env (timeText m date) ((' ' :: date).drop (skipDate (' ' :: date))) true
      (fun x => { x with time := m.time }) := by
  set text := timeText m date with htext
  have hvalue := ofNumeral_decimal m.time.toNat
  have hsuffix : ' ' :: date <:+ text := date_suffix m date
  have hlen : (' ' :: date).length < text.length := by
    simp only [htext, timeText, List.length_append, List.length_cons]
    omega
  have hgunk : skipgunk text = text :=
    skipgunk_cons hfree (by decide)
  have hread : ∀ r, numField "TIME" 10 64 .time (fun m v => { m with time := .ofNat v }) r text =
      _ := numField_read (by decide) (by decide)
      (isDigitOf_decimal m.time.toNat)
      Nat.toDigits_ne_nil (by rw [hvalue]; exact m.time.toNat_lt) le_rfl
      (numberEnds_cons (by decide))
  have hcall : ∀ r, token env r text = some (timeToken r text) := fun r => rfl
  have htime : ∀ r, timeToken r text =
      { record := { r with m := { r.m with time := m.time } }.field Field.time.endof, n := 1
        s := text
        next := (text.length - (' ' :: date).length) + skipDate (' ' :: date) } := by
    intro r
    unfold timeToken
    rw [hread r, hvalue]
    dsimp only
    rw [← timeText, ← htext, drop_length_sub hsuffix, UInt64.ofNat_toNat]
  refine Reaches.token hgunk hcall ?_ ?_ ?_ ?_ <;> intro r <;> rw [htime r]
  · rfl
  · exact Int.one_pos
  · dsimp only
    omega
  · dsimp only
    rw [← List.drop_drop, drop_length_sub hsuffix]

/-- The date of the time is skipped, if there is one. -/
def DateSkipped (denv : DumpEnv) (time : UInt64) : Prop :=
  time = 0 ∨ ∃ tm, denv.localtime time.toInt64.toInt = some tm ∧ tm.Skippable

def timeChange (m x : Mce) : Mce := { x with time := if m.time ≠ 0 then m.time else x.time }

/-- A line of the time with a date. -/
theorem timeLine_eq {tm : Tm} (htime : m.time ≠ 0)
    (htm : denv.localtime m.time.toInt64.toInt = some tm) :
    timeLine denv m = timeText m (asctime tm) := by
  rw [timeLine, if_pos htime, ctime, htm]
  rfl

theorem timeText_clean {date : List Char} (hdate : CleanLine 'm' date) (m : Mce) :
    CleanLine 'm' (timeText m date) :=
  .append (by decide) (.append (l := [' ']) (by decide) (.append (clean_dec (by decide) _)
    (.append (l := [' ']) (by decide) hdate)))

theorem drop_skipDate_asctime {tm : Tm} (hskip : tm.Skippable) :
    (' ' :: asctime tm).drop (skipDate (' ' :: asctime tm)) = ['\n'] := by
  obtain ⟨l, hl, -⟩ := asctime_clean tm
  rw [skipDate_asctime, if_pos hskip, hl, List.length_append, List.length_singleton,
    List.drop_succ_cons, List.drop_left]

theorem timeLine_feeds (h : DateSkipped denv m.time) (env : AsciiEnv) :
    Feeds env (timeLine denv m) (timeChange m) := by
  by_cases htime : m.time ≠ 0
  · obtain ⟨tm, htm, hskip⟩ := h.resolve_left htime
    have hclean := timeText_clean (asctime_clean tm) m
    have hreaches := time_reaches env (hclean.tagFree (by decide))
    rw [drop_skipDate_asctime hskip] at hreaches
    rw [timeLine_eq htime htm]
    refine (hreaches.congr fun x => ?_).feeds hclean.isLine (skipgunk_of_blanks (by decide))
    rw [timeChange, if_pos htime]
  · have hchange : timeChange m = id := by
      funext x
      rw [timeChange, if_neg htime]
      rfl
    rw [timeLine, if_neg htime, hchange]
    exact feeds_nil env

/-- A date that is not skipped is no token. -/
theorem token_asctime (env : AsciiEnv) (r : AsciiRecord) (tm : Tm) :
    token env r (asctime tm) = none := by
  have hH := (asctime_clean tm).notMem_H
  rw [asctime] at hH ⊢
  have hbranches : ∀ (w : Fin 7) (t : List Char),
      ((branches env).take 14).find? (fun b => b.applies ((wdayName w).toList ++ t)) = none ∧
      ((branches env).drop 15).find? (fun b => b.applies ((wdayName w).toList ++ t)) = none := by
    intro w t
    fin_cases w <;> exact ⟨rfl, rfl⟩
  rw [token_eq_late (hbranches _ _).1 hH, (hbranches _ _).2]
  rfl

/-- A date that is not skipped ends the record. -/
theorem decodedFrom_bad_date {tm : Tm} (htime : m.time ≠ 0)
    (htm : denv.localtime m.time.toInt64.toInt = some tm) (hskip : ¬ tm.Skippable)
    (env : AsciiEnv) (st : Decoder) (text : List Char) :
    ∃ x, decodedFrom env st (timeLine denv m ++ text) = x :: decodedFrom env {} text := by
  have hclean := timeText_clean (asctime_clean tm) m
  have hfree := hclean.tagFree (by decide)
  have hreaches := time_reaches env hfree
  rw [skipDate_asctime, if_neg hskip, List.drop_zero] at hreaches
  have hgunk : skipgunk ([' '] ++ asctime tm) = asctime tm :=
    skipgunk_name (by generalize tm.wday = w; revert w; decide) (by decide)
      (hfree.suffix (date_suffix m _))
  rw [timeLine_eq htime htm]
  refine ⟨_, decodedFrom_unknown hclean.isLine hreaches hgunk ?_ (fun r => token_asctime env r tm)
    (Bool.or_true _) text⟩
  obtain ⟨l, hl, -⟩ := asctime_clean tm
  rw [hl]
  simp

/-- Without a local time, the line of the status is appended to it and lost. -/
theorem decodedFrom_no_date (htime : m.time ≠ 0)
    (htm : denv.localtime m.time.toInt64.toInt = none) (env : AsciiEnv) (st : Decoder)
    (text : List Char) :
    ∃ x, decodedFrom env st (timeLine denv m ++ (statusLine m ++ text)) =
      x :: decodedFrom env {} text := by
  have hstatus : CleanLine 'm' (statusLine m) := by
    have hhex : ∀ n, Clean 'm' (Nat.toDigits 16 n) := clean_hex (by decide)
    exact .append (by decide) (.append (hhex _) (.append (by decide) (.append (hhex _)
      cleanLine_newline)))
  have hnull : CleanLine 'm' ("(null)".toList ++ statusLine m) := .append (by decide) hstatus
  have hclean := timeText_clean hnull m
  have hfree := hclean.tagFree (by decide)
  have hreaches := time_reaches env hfree
  have hdate : skipDate (' ' :: ("(null)".toList ++ statusLine m)) = 0 :=
    skipDate_eq_zero "(null)STAT".toList rfl (by decide)
  rw [hdate, List.drop_zero] at hreaches
  have hgunk : skipgunk ([' '] ++ ("(null)".toList ++ statusLine m)) =
      "(null)".toList ++ statusLine m :=
    skipgunk_name (by decide) (by decide)
      (hfree.suffix (date_suffix m _))
  have htoken : ∀ r, token env r ("(null)".toList ++ statusLine m) = none := by
    intro r
    rw [token_eq_late rfl hnull.notMem_H]
    rfl
  have hline : timeLine denv m ++ (statusLine m ++ text) =
      timeText m ("(null)".toList ++ statusLine m) ++ text := by
    rw [timeLine, if_pos htime, ctime, htm, timeText]
    simp only [List.append_assoc, List.cons_append]
    rfl
  rw [hline]
  exact ⟨_, decodedFrom_unknown hclean.isLine hreaches hgunk (by simp) htoken (Bool.or_true _)
    text⟩

end TimeLine

end Mcelog.Ascii
