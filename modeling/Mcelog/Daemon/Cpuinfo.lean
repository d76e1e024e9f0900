import Mcelog.Ascii.Cpuid

/-!
# The CPU of the machine

`is_cpu_supported` finds the vendor, the family and the model in `/proc/cpuinfo`, line by line
with `sscanf`, and selects the CPU type once it has seen five lines. `mce_cpuid` selects it
again for each record, from the CPUID that the kernel writes into the record.

* `skipText_letters`: a format without conversions only matches a text with its letters.
* `scanCpuinfo_of_describes`: what is left after the lines of one CPU, in any order.
* `cpuinfo_same_decoder`: both ways select the same CPU type, but for the AMD families that
  the first one refuses.
-/

namespace Mcelog.Daemon

open Mcelog.Ascii Mcelog.Common Mcelog.Machine

/-! ## Lines -/

/-- Match the ordinary text `fmt` of a format: what is behind it. -/
def skipText : List Char → List Char → Option (List Char)
  | [], s => some s
  | c :: fmt, s =>
    if isSpace c then skipText fmt (s.dropWhile isSpace)
    else if s.head? = some c then skipText fmt s.tail
    else none

/-- What is behind `"name : "` in a line. -/
def behind (name : String) (line : List Char) : Option (List Char) :=
  skipText (name ++ " : ").toList line

/-- `%63[^\n]` -/
def scanVendor (s : List Char) : Option (List Char) :=
  let vendor := (s.take 63).takeWhile (· ≠ '\n')
  if vendor = [] then none else some vendor

/-- `sscanf(line, "name : %d", &n) == 1`: the number. -/
def scanInt (name : String) (line : List Char) : Option Int32 :=
  let r := sscanf (literal (name ++ " : ") ++ [conversionD]) line
  if r.ret = 1 then (r.num? 0).map Int32.ofNat else none

/-- `%lf`: whether a text starts with a number. It does if it starts with a decimal fraction,
    as the frequency is printed. -/
structure DoubleScan where
  reads : List Char → Bool
  fraction : ∀ a b rest : List Char, (∀ c ∈ a, isDigitOf 10 c = true) → a ≠ [] →
    (∀ c ∈ b, isDigitOf 10 c = true) → reads (a ++ '.' :: (b ++ '\n' :: rest)) = true

/-- `!strncmp(line, "flags", 5) && isspace(line[5])` -/
def isFlags (line : List Char) : Bool :=
  strncmp line "flags" 5 && isSpace (line.getD 5 '\x00')

/-- The locals of `is_cpu_supported` (mcelog.c:437-459), with a bit of `seen` each. -/
structure CpuinfoScan where
  vendor : List Char := []
  family : Int32 := 0
  model : Int32 := 0
  vendorSeen : Bool := false
  familySeen : Bool := false
  modelSeen : Bool := false
  mhzSeen : Bool := false
  flagsSeen : Bool := false

/-- `seen == ALL` -/
def CpuinfoScan.seenAll (r : CpuinfoScan) : Bool :=
  r.vendorSeen && r.familySeen && r.modelSeen && r.mhzSeen && r.flagsSeen

/-- The body of the loop over the lines (mcelog.c:462-481). -/
def scanLine (d : DoubleScan) (r : CpuinfoScan) (line : List Char) : CpuinfoScan :=
  let vendor := (behind "vendor_id" line).bind scanVendor
  let family := scanInt "cpu family" line
  let model := scanInt "model" line
  { vendor := vendor.getD r.vendor
    family := family.getD r.family
    model := model.getD r.model
    vendorSeen := r.vendorSeen || vendor.isSome
    familySeen := r.familySeen || family.isSome
    modelSeen := r.modelSeen || model.isSome
    mhzSeen := r.mhzSeen || (behind "cpu MHz" line).any d.reads
    flagsSeen := r.flagsSeen || isFlags line }

/-- The loop (mcelog.c:461-483). -/
def scanCpuinfo (d : DoubleScan) : CpuinfoScan → List (List Char) → CpuinfoScan
  | r, [] => r
  | r, line :: ls => if r.seenAll then r else scanCpuinfo d (scanLine d r line) ls

/-! ## The CPU type -/

/-- `cputype`, `memory_error_support`, the `checked` of `is_cpu_supported` and the `warned` of
    `mce_cpuid` -/
structure Detection where
  cputype : CpuType
  memoryErrorSupport : Bool
  checked : Bool
  warned : Bool
  deriving DecidableEq, Repr

/-- What is printed about the CPU. -/
inductive CpuMessage
  | cannotOpen
  | cannotParse
  | amdFamily (family : Int32)
  | hygonFamily (family : Int32)
  | unknownCpu (cpuvendor : UInt8) (family model : ℕ)
  | forcedMismatch (forced found : CpuType)
  deriving DecidableEq, Repr

/-- The CPU type of the scanned values (mcelog.c:484-504), whether the CPU is supported, and
    what is printed. -/
def selectCpu (st : Detection) (r : CpuinfoScan) : Detection × Bool × Option CpuMessage :=
  let select (p : CpuType × Bool) : Detection :=
    { st with cputype := p.1, memoryErrorSupport := p.2 }
  if r.vendor = "AuthenticAMD".toList then
    if r.family = 15 then ({ st with cputype := .k8 }, true, none)
    else if 16 ≤ r.family then (st, false, some (.amdFamily r.family))
    else (st, true, none)
  else if r.vendor = "HygonGenuine".toList then (st, false, some (.hygonFamily r.family))
  else if r.vendor = "GenuineIntel".toList then
    (select (selectIntelCputype st.memoryErrorSupport r.family r.model), true, none)
  else if r.vendor = "CentaurHauls".toList ∨ r.vendor = "Shanghai  ".toList then
    (select (selectZhaoxinCputype r.family r.model), true, none)
  else (st, true, none)

/-- `is_cpu_supported` (mcelog.c:435-515), with the text of `/proc/cpuinfo` if it can be
    opened. -/
def isCpuSupported (d : DoubleScan) (cpuinfo : Option (List Char)) (st : Detection) :
    Detection × Bool × Option CpuMessage :=
  if st.checked then (st, true, none)
  else
    let st := { st with checked := true }
    match cpuinfo with
    | none => (st, true, some .cannotOpen)
    | some text =>
      let r := scanCpuinfo d {} (getdelimLines text)
      if r.seenAll then selectCpu st r else (st, true, some .cannotParse)

/-- What `setup_cpuid` prints (mcelog.c:305-308). -/
def setupMessages (cpuvendor : UInt8) (cpuid : UInt32) : List CpuMessage :=
  let (family, model, _) := parseCpuid cpuid
  if cpuvendor = 0 ∨ cpuvendor = 5 ∨ cpuvendor = 10 then []
  else if cpuvendor = 2 ∧ 15 ≤ family ∧ family ≤ 17 then []
  else [.unknownCpu cpuvendor family model]

/-- `mce_cpuid` (mcelog.c:312-328), with `cpu_forced` -/
def mceCpuid (d : DoubleScan) (cpuForced : Bool) (cpuinfo : Option (List Char)) (st : Detection)
    (m : Mce) : Detection × List CpuMessage :=
  if m.cpuid ≠ 0 then
    let (t, memoryErrorSupport) := setupCpuid st.memoryErrorSupport m.cpuvendor m.cpuid
    let st := { st with memoryErrorSupport := memoryErrorSupport }
    let messages := setupMessages m.cpuvendor m.cpuid
    if ¬ cpuForced then ({ st with cputype := t }, messages)
    else if t ≠ st.cputype ∧ t ≠ .generic ∧ ¬ st.warned then
      ({ st with warned := true }, messages ++ [.forcedMismatch st.cputype t])
    else (st, messages)
  else if st.cputype = .generic ∧ ¬ cpuForced then
    let (st, _, message) := isCpuSupported d cpuinfo st
    (st, message.toList)
  else (st, [])

/-! ## The file of the kernel -/

/-- The characters of a text that are no blanks. -/
def letters (s : List Char) : List Char := s.filter fun c => !isSpace c

/-- A line `"key : value"`. -/
structure CpuinfoLine where
  key : List Char
  blanks : List Char
  value : List Char
  key_clean : ∀ c ∈ key, c ≠ ':' ∧ c ≠ '\n' ∧ c ≠ '\x00'
  blanks_clean : ∀ c ∈ blanks, c = ' ' ∨ c = '\t'
  value_clean : ∀ c ∈ value, c ≠ '\n' ∧ c ≠ '\x00'

def CpuinfoLine.text (l : CpuinfoLine) : List Char :=
  l.key ++ (l.blanks ++ (':' :: ' ' :: (l.value ++ ['\n'])))

/-- What the kernel knows about a CPU. -/
structure Processor where
  vendor : List Char
  family : ℕ
  model : ℕ
  family_lt : family < 2 ^ 31
  model_lt : model < 2 ^ 31
  vendor_length : vendor.length ≤ 63
  vendor_letters : letters vendor ≠ []

/-- A line of this key is in the list, and all such lines have this value. -/
def HasValue (ls : List CpuinfoLine) (name : String) (value : List Char) : Prop :=
  (∃ l ∈ ls, l.key = name.toList) ∧
    ∀ l ∈ ls, letters l.key = letters name.toList → l.key = name.toList ∧ l.value = value

/-- The lines describe the processor. They come in any order, and with other lines. -/
structure Describes (ls : List CpuinfoLine) (p : Processor) : Prop where
  vendor : HasValue ls "vendor_id" p.vendor
  family : HasValue ls "cpu family" (Nat.toDigits 10 p.family)
  model : HasValue ls "model" (Nat.toDigits 10 p.model)
  mhz : ∃ a b : List Char, (∀ c ∈ a, isDigitOf 10 c = true) ∧ a ≠ [] ∧
    (∀ c ∈ b, isDigitOf 10 c = true) ∧ HasValue ls "cpu MHz" (a ++ '.' :: b)
  flags : ∃ l ∈ ls, l.key = "flags".toList ∧ l.blanks ≠ []

section

variable {fmt a b s t : List Char} {c : Char} {l : CpuinfoLine} {name : String}

/-! ## Matching a line -/

theorem letters_append (a b : List Char) : letters (a ++ b) = letters a ++ letters b :=
  List.filter_append ..

theorem letters_of_blank (h : ∀ c ∈ a, isSpace c = true) : letters a = [] := by
  rw [letters, List.filter_eq_nil_iff]
  intro c hc
  simp [h c hc]

/-- A format without conversions only matches a text with its letters. -/
theorem skipText_letters (h : skipText fmt s = some t) :
    ∃ u, s = u ++ t ∧ letters u = letters fmt := by
  induction fmt generalizing s with
  | nil => exact ⟨[], Option.some.inj h, rfl⟩
  | cons c fmt ih =>
    rw [skipText] at h
    by_cases hc : isSpace c = true
    · rw [if_pos hc] at h
      obtain ⟨u, hu, hletters⟩ := ih h
      refine ⟨s.takeWhile isSpace ++ u, ?_, ?_⟩
      · rw [List.append_assoc, ← hu, List.takeWhile_append_dropWhile]
      · rw [letters_append, letters_of_blank fun x hx => List.mem_takeWhile_imp hx, hletters]
        simp [letters, hc]
    · rw [if_neg hc] at h
      split_ifs at h with hx
      obtain ⟨u, hu, hletters⟩ := ih h
      refine ⟨c :: u, ?_, ?_⟩
      · rw [List.cons_append, ← hu, List.cons_head?_tail hx]
      · rw [letters, letters, List.filter_cons_of_pos (by simp [hc]),
          List.filter_cons_of_pos (by simp [hc])]
        exact congrArg _ hletters

theorem skipText_append (a b s : List Char) :
    skipText (a ++ b) s = (skipText a s).bind (skipText b) := by
  induction a generalizing s with
  | nil => rfl
  | cons c a ih =>
    rw [List.cons_append, skipText, skipText]
    split_ifs
    · exact ih _
    · exact ih _
    · rfl

/-- A text matches itself, if what is behind it does not add a blank to its last one. -/
theorem skipText_self (hsep : separated a = true)
    (hs : isSpace (a.getLastD 'x') = true → NoHead isSpace s) :
    skipText a (a ++ s) = some s := by
  induction a with
  | nil => rfl
  | cons c a ih =>
    have hrest : skipText a (a ++ s) = some s := by
      cases a with
      | nil => rfl
      | cons d a => exact ih (by simpa [separated] using (Bool.and_eq_true_iff.mp hsep).2) hs
    rw [List.cons_append, skipText]
    by_cases hc : isSpace c = true
    · have hnext : NoHead isSpace (a ++ s) := by
        cases a with
        | nil => exact hs hc
        | cons d a =>
          refine noHead_cons ?_
          simpa [hc] using (Bool.and_eq_true_iff.mp hsep).1
      rw [if_pos hc, List.dropWhile_cons, if_pos hc, dropWhile_of_noHead hnext, hrest]
    · rw [if_neg hc, List.head?_cons, if_pos rfl, List.tail_cons, hrest]

/-- The ordinary text of a format in `sscanf`. -/
theorem scan_skipText {total : ℕ} {ds : List Directive} (h : skipText fmt s = some t) :
    scan total (fmt.map (fun c => if isSpace c then .space else .lit c) ++ ds) s =
      scan total ds t := by
  induction fmt generalizing s with
  | nil => rw [Option.some.inj h]; rfl
  | cons c fmt ih =>
    rw [skipText] at h
    rw [List.map_cons, List.cons_append]
    by_cases hc : isSpace c = true
    · rw [if_pos hc] at h ⊢
      rw [scan]
      exact ih h
    · rw [if_neg hc] at h ⊢
      split_ifs at h with hx
      rw [← List.cons_head?_tail hx, scan_lit]
      exact ih h

theorem scan_skipText_none {total : ℕ} {ds : List Directive} (h : skipText fmt s = none) :
    (scan total (fmt.map (fun c => if isSpace c then .space else .lit c) ++ ds) s).1 = [] := by
  induction fmt generalizing s with
  | nil => cases h
  | cons c fmt ih =>
    rw [skipText] at h
    rw [List.map_cons, List.cons_append]
    by_cases hc : isSpace c = true
    · rw [if_pos hc] at h ⊢
      rw [scan]
      exact ih h
    · rw [if_neg hc] at h ⊢
      cases s with
      | nil => rfl
      | cons x s =>
        rw [scan]
        by_cases hx : x = c
        · have hhead : (x :: s).head? = some c := congrArg some hx
          rw [if_pos hhead] at h
          rw [if_pos hx]
          exact ih h
        · rw [if_neg hx]

/-! ## The lines of the file -/

/-- The end of a line, behind the colon. -/
def CpuinfoLine.tail (l : CpuinfoLine) : List Char := (l.value ++ ['\n']).dropWhile isSpace

theorem CpuinfoLine.isSpace_blanks (l : CpuinfoLine) : ∀ c ∈ l.blanks, isSpace c = true := by
  intro c hc
  rcases l.blanks_clean c hc with rfl | rfl <;> rfl

/-- The names that are looked for: words with single blanks between them. -/
def IsName (name : String) : Bool :=
  separated name.toList && !isSpace (name.toList.getLastD 'x') && !name.toList.contains ':'

theorem behind_key (hname : IsName name = true) (hkey : l.key = name.toList) :
    behind name l.text = some l.tail := by
  obtain ⟨⟨hsep, hlast⟩, -⟩ := by simpa only [IsName, Bool.and_eq_true] using hname
  have hsolid : ¬ isSpace (name.toList.getLastD 'x') = true := by simpa using hlast
  have hcolon : NoHead isSpace (':' :: ' ' :: (l.value ++ ['\n'])) := noHead_cons (by decide)
  have hblanks : (l.blanks ++ (':' :: ' ' :: (l.value ++ ['\n']))).dropWhile isSpace =
      ':' :: ' ' :: (l.value ++ ['\n']) := by
    rw [List.dropWhile_append_of_pos l.isSpace_blanks, dropWhile_of_noHead hcolon]
  rw [behind, String.toList_append, skipText_append, CpuinfoLine.text, hkey,
    skipText_self hsep fun h => absurd h hsolid, Option.bind_some]
  show skipText [' ', ':', ' '] _ = _
  rw [skipText, if_pos (by decide), hblanks, skipText, if_neg (by decide), List.head?_cons,
    if_pos rfl, List.tail_cons, skipText, if_pos (by decide), skipText,
    List.dropWhile_cons_of_pos (by decide)]
  rfl

/-- A line is only matched by the letters of its own key. -/
theorem behind_eq_none (hname : IsName name = true) (hkey : letters l.key ≠ letters name.toList) :
    behind name l.text = none := by
  obtain ⟨-, hcolon⟩ := by simpa only [IsName, Bool.and_eq_true] using hname
  cases hbehind : behind name l.text with
  | none => rfl
  | some t =>
    obtain ⟨u, hu, hletters⟩ := skipText_letters hbehind
    have hnot : ':' ∉ letters name.toList := by
      intro hmem
      simp [List.mem_of_mem_filter hmem] at hcolon
    have hnot' : ':' ∉ letters l.key := fun hmem =>
      (l.key_clean ':' (List.mem_of_mem_filter hmem)).1 rfl
    have htext : letters l.text = letters l.key ++ ':' :: letters (' ' :: (l.value ++ ['\n'])) := by
      rw [CpuinfoLine.text, letters_append, letters_append, letters_of_blank l.isSpace_blanks]
      rfl
    have hsplit : letters l.text = letters name.toList ++ ':' :: letters t := by
      rw [hu, letters_append, hletters, String.toList_append, letters_append, List.append_assoc]
      rfl
    have hcut : ∀ {a b : List Char}, ':' ∉ a → (a ++ ':' :: b).takeWhile (· ≠ ':') = a := by
      intro a b ha
      rw [List.takeWhile_append_of_pos, List.takeWhile_cons_of_neg (by simp), List.append_nil]
      exact fun c hc => decide_eq_true fun heq => ha (heq ▸ hc)
    refine absurd ?_ hkey
    rw [← hcut hnot', ← htext, hsplit, hcut hnot]

/-- `"name : %d"` on the line of this name. -/
theorem scanInt_of_behind {v : ℕ} (hv : v < 2 ^ 31)
    (h : behind name s = some (Nat.toDigits 10 v ++ ['\n'])) :
    scanInt name s = some (Int32.ofNat v) := by
  have hscan : scan s.length (literal (name ++ " : ") ++ [conversionD]) s = ([.num v], none) := by
    rw [literal, scan_skipText h, conversionD, scan_num (by decide)
      (isDigitOf_of_mem_toDigits (by decide) (by decide) v) Nat.toDigits_ne_nil
      (numberEnds_cons (by decide)) (by simp), ofNumeral_toDigits (by decide) (by decide),
      strtoValue_signed (by omega) (by decide)]
    rfl
  rw [scanInt, sscanf, hscan]
  rfl

theorem scanInt_of_behind_none (h : behind name s = none) : scanInt name s = none := by
  have hscan : (scan s.length (literal (name ++ " : ") ++ [conversionD]) s).1 = [] :=
    scan_skipText_none h
  rw [scanInt, sscanf]
  generalize scan s.length (literal (name ++ " : ") ++ [conversionD]) s = r at hscan ⊢
  obtain ⟨args, fail⟩ := r
  obtain rfl : args = [] := hscan
  dsimp only
  rw [if_neg]
  show ¬ (if 0 = 0 ∧ fail = some .input then (-1 : ℤ) else 0) = 1
  by_cases hfail : fail = some .input <;> simp [hfail]

theorem isLine_text (l : CpuinfoLine) : IsLine l.text := by
  refine ⟨l.key ++ (l.blanks ++ (':' :: ' ' :: l.value)), by simp [CpuinfoLine.text], ?_, ?_⟩
  · intro hmem
    rcases List.mem_append.mp hmem with hmem | hmem
    · exact (l.key_clean _ hmem).2.1 rfl
    · rcases List.mem_append.mp hmem with hmem | hmem
      · exact absurd (l.blanks_clean _ hmem) (by decide)
      · have hvalue : '\n' ∈ l.value := by simpa using hmem
        exact (l.value_clean _ hvalue).1 rfl
  · intro hmem
    rcases List.mem_append.mp hmem with hmem | hmem
    · exact (l.key_clean _ hmem).2.2 rfl
    · rcases List.mem_append.mp hmem with hmem | hmem
      · exact absurd (l.blanks_clean _ hmem) (by decide)
      · have hvalue : '\x00' ∈ l.value := by simpa using hmem
        exact (l.value_clean _ hvalue).2 rfl

theorem getdelimLines_texts (ls : List CpuinfoLine) (rest : List Char) :
    getdelimLines (ls.flatMap CpuinfoLine.text ++ rest) =
      ls.map CpuinfoLine.text ++ getdelimLines rest := by
  induction ls with
  | nil => rfl
  | cons l ls ih =>
    rw [List.flatMap_cons, List.append_assoc, getdelimLines_line (isLine_text l), ih]
    rfl

end

/-! ## Scanning the file -/

section

variable {d : DoubleScan} {p : Processor} {r : CpuinfoScan} {ls all : List CpuinfoLine}
  {l : CpuinfoLine} {more : List (List Char)}

/-- What has been seen is right. -/
structure Agrees (p : Processor) (r : CpuinfoScan) : Prop where
  vendor : r.vendorSeen = true → r.vendor = p.vendor.dropWhile isSpace
  family : r.familySeen = true → r.family = .ofNat p.family
  model : r.modelSeen = true → r.model = .ofNat p.model

/-- What has not been seen is still to come. -/
structure Coming (r : CpuinfoScan) (ls : List CpuinfoLine) : Prop where
  vendor : r.vendorSeen = true ∨ ∃ l ∈ ls, l.key = "vendor_id".toList
  family : r.familySeen = true ∨ ∃ l ∈ ls, l.key = "cpu family".toList
  model : r.modelSeen = true ∨ ∃ l ∈ ls, l.key = "model".toList
  mhz : r.mhzSeen = true ∨ ∃ l ∈ ls, l.key = "cpu MHz".toList
  flags : r.flagsSeen = true ∨ ∃ l ∈ ls, l.key = "flags".toList ∧ l.blanks ≠ []

/-- The line of a name is read, and no other line is. -/
theorem behind_text {name : String} {value : List Char} (hname : IsName name = true)
    (h : HasValue all name value) (hl : l ∈ all) :
    behind name l.text =
      if l.key = name.toList then some ((value ++ ['\n']).dropWhile isSpace) else none := by
  by_cases hkey : letters l.key = letters name.toList
  · obtain ⟨heq, rfl⟩ := h.2 l hl hkey
    rw [if_pos heq, behind_key hname heq]
    rfl
  · rw [if_neg fun heq => hkey (congrArg letters heq), behind_eq_none hname hkey]

theorem scanInt_text {name : String} {v : ℕ} (hname : IsName name = true) (hv : v < 2 ^ 31)
    (h : HasValue all name (Nat.toDigits 10 v)) (hl : l ∈ all) :
    scanInt name l.text = if l.key = name.toList then some (.ofNat v) else none := by
  have hbehind := behind_text hname h hl
  rw [dropWhile_of_noHead (noHead_isSpace_toDigits v _)] at hbehind
  split_ifs at hbehind ⊢
  · exact scanInt_of_behind hv hbehind
  · exact scanInt_of_behind_none hbehind

theorem dropWhile_vendor (p : Processor) :
    (p.vendor ++ ['\n']).dropWhile isSpace = p.vendor.dropWhile isSpace ++ ['\n'] ∧
      p.vendor.dropWhile isSpace ≠ [] := by
  have hne : p.vendor.dropWhile isSpace ≠ [] := by
    intro heq
    have hall : ∀ c ∈ p.vendor, isSpace c = true := List.dropWhile_eq_nil_iff.mp heq
    exact p.vendor_letters (letters_of_blank hall)
  refine ⟨?_, hne⟩
  rw [List.dropWhile_append, if_neg]
  simpa [List.isEmpty_iff] using hne

theorem scanVendor_text (h : HasValue all "vendor_id" p.vendor) (hl : l ∈ all) :
    (behind "vendor_id" l.text).bind scanVendor =
      if l.key = "vendor_id".toList then some (p.vendor.dropWhile isSpace) else none := by
  obtain ⟨hdrop, hne⟩ := dropWhile_vendor p
  rw [behind_text (by decide) h hl]
  split_ifs with hkey
  · have hclean : ∀ c ∈ p.vendor, c ≠ '\n' := by
      obtain ⟨-, hvalue⟩ := h.2 l hl (by rw [hkey])
      exact fun c hc => (l.value_clean c (hvalue ▸ hc)).1
    have hsuffix : p.vendor.dropWhile isSpace <:+ p.vendor := List.dropWhile_suffix _
    have hlen := hsuffix.length_le.trans p.vendor_length
    have hline : ((p.vendor.dropWhile isSpace ++ ['\n']).take 63).takeWhile (· ≠ '\n') =
        p.vendor.dropWhile isSpace := by
      rw [List.take_append, List.takeWhile_append, List.take_of_length_le hlen]
      have hall : (p.vendor.dropWhile isSpace).takeWhile (· ≠ '\n') =
          p.vendor.dropWhile isSpace := by
        rw [List.takeWhile_eq_self_iff]
        exact fun c hc => decide_eq_true (hclean c (hsuffix.subset hc))
      rw [hall, if_pos rfl]
      cases 63 - (p.vendor.dropWhile isSpace).length with
      | zero => simp
      | succ n => simp
    rw [Option.bind_some, scanVendor, hdrop, hline, if_neg hne]
  · rfl

/-- A line of the processor keeps what has been seen right. -/
theorem Agrees.scanLine (h : Agrees p r) (hdesc : Describes all p) (hl : l ∈ all) :
    Agrees p (Daemon.scanLine d r l.text) := by
  constructor
  · intro hseen
    show ((behind "vendor_id" l.text).bind scanVendor).getD r.vendor = _
    have hseen : (r.vendorSeen || ((behind "vendor_id" l.text).bind scanVendor).isSome) = true :=
      hseen
    rw [scanVendor_text hdesc.vendor hl] at hseen ⊢
    split_ifs at hseen ⊢
    · rfl
    · exact h.vendor (by simpa using hseen)
  · intro hseen
    show (scanInt "cpu family" l.text).getD r.family = _
    have hseen : (r.familySeen || (scanInt "cpu family" l.text).isSome) = true := hseen
    rw [scanInt_text (by decide) p.family_lt hdesc.family hl] at hseen ⊢
    split_ifs at hseen ⊢
    · rfl
    · exact h.family (by simpa using hseen)
  · intro hseen
    show (scanInt "model" l.text).getD r.model = _
    have hseen : (r.modelSeen || (scanInt "model" l.text).isSome) = true := hseen
    rw [scanInt_text (by decide) p.model_lt hdesc.model hl] at hseen ⊢
    split_ifs at hseen ⊢
    · rfl
    · exact h.model (by simpa using hseen)

/-- A line is seen, or it is not one of the five. -/
theorem Coming.scanLine (h : Coming r (l :: ls)) (hdesc : Describes all p) (hl : l ∈ all) :
    Coming (Daemon.scanLine d r l.text) ls := by
  -- a line that is still to come is the next one or comes later
  have hnext : ∀ {seen : Bool} {seen' : Bool} {q : CpuinfoLine → Prop},
      (seen = true ∨ ∃ l' ∈ l :: ls, q l') → (seen = true → seen' = true) →
      (q l → seen' = true) → seen' = true ∨ ∃ l' ∈ ls, q l' := by
    rintro seen seen' q (hseen | ⟨l', hmem, hq⟩) hkeep hnew
    · exact .inl (hkeep hseen)
    · rcases List.mem_cons.mp hmem with rfl | hmem
      · exact .inl (hnew hq)
      · exact .inr ⟨l', hmem, hq⟩
  constructor
  · refine hnext h.vendor (fun hseen => ?_) fun hkey => ?_
    · show (r.vendorSeen || _) = true
      rw [hseen, Bool.true_or]
    · show (r.vendorSeen || ((behind "vendor_id" l.text).bind scanVendor).isSome) = true
      rw [scanVendor_text hdesc.vendor hl, if_pos hkey, Option.isSome_some, Bool.or_true]
  · refine hnext h.family (fun hseen => ?_) fun hkey => ?_
    · show (r.familySeen || _) = true
      rw [hseen, Bool.true_or]
    · show (r.familySeen || (scanInt "cpu family" l.text).isSome) = true
      rw [scanInt_text (by decide) p.family_lt hdesc.family hl, if_pos hkey, Option.isSome_some,
        Bool.or_true]
  · refine hnext h.model (fun hseen => ?_) fun hkey => ?_
    · show (r.modelSeen || _) = true
      rw [hseen, Bool.true_or]
    · show (r.modelSeen || (scanInt "model" l.text).isSome) = true
      rw [scanInt_text (by decide) p.model_lt hdesc.model hl, if_pos hkey, Option.isSome_some,
        Bool.or_true]
  · obtain ⟨a, b, ha, hne, hb, hvalue⟩ := hdesc.mhz
    refine hnext h.mhz (fun hseen => ?_) fun hkey => ?_
    · show (r.mhzSeen || _) = true
      rw [hseen, Bool.true_or]
    · show (r.mhzSeen || (behind "cpu MHz" l.text).any d.reads) = true
      have hdigits : NoHead isSpace (a ++ '.' :: b ++ ['\n']) := by
        rw [List.append_assoc]
        exact noHead_isSpace_digits (by decide) ha hne
      rw [behind_text (by decide) hvalue hl, if_pos hkey, Option.any_some,
        dropWhile_of_noHead hdigits, List.append_assoc]
      rw [show d.reads (a ++ ('.' :: b ++ ['\n'])) = true from d.fraction a b [] ha hne hb,
        Bool.or_true]
  · refine hnext h.flags (fun hseen => ?_) fun hkey => ?_
    · show (r.flagsSeen || _) = true
      rw [hseen, Bool.true_or]
    · show (r.flagsSeen || isFlags l.text) = true
      obtain ⟨hkey, hne⟩ := hkey
      obtain ⟨c, blanks, hblanks⟩ := List.exists_cons_of_ne_nil hne
      have hc : isSpace c = true := l.isSpace_blanks c (by rw [hblanks]; exact List.mem_cons_self)
      have hflags : isFlags l.text = true := by
        rw [isFlags, CpuinfoLine.text, hkey, hblanks]
        exact hc
      rw [hflags, Bool.or_true]

variable (d more) in
/-- The values after the lines of one CPU, in any order and whatever follows. -/
theorem scanCpuinfo_of_describes (hdesc : Describes all p) (hsub : ∀ l ∈ ls, l ∈ all)
    (hagrees : Agrees p r) (hcoming : Coming r ls) :
    ∃ r', scanCpuinfo d r (ls.map CpuinfoLine.text ++ more) = r' ∧ r'.seenAll = true ∧
      Agrees p r' := by
  by_cases hall : r.seenAll = true
  · refine ⟨r, ?_, hall, hagrees⟩
    cases ls.map CpuinfoLine.text ++ more with
    | nil => rfl
    | cons line rest => rw [scanCpuinfo, if_pos hall]
  · induction ls generalizing r with
    | nil =>
      refine absurd ?_ hall
      have hseen : ∀ {seen : Bool} {q : CpuinfoLine → Prop},
          (seen = true ∨ ∃ l ∈ ([] : List CpuinfoLine), q l) → seen = true := by
        rintro seen q (hseen | ⟨l, hl, -⟩)
        · exact hseen
        · exact absurd hl List.not_mem_nil
      rw [CpuinfoScan.seenAll, hseen hcoming.vendor, hseen hcoming.family, hseen hcoming.model,
        hseen hcoming.mhz, hseen hcoming.flags]
      rfl
    | cons l ls ih =>
      have hl := hsub l List.mem_cons_self
      have hagrees' := hagrees.scanLine (d := d) hdesc hl
      have hcoming' := hcoming.scanLine (d := d) hdesc hl
      rw [List.map_cons, List.cons_append, scanCpuinfo, if_neg hall]
      by_cases hall' : (scanLine d r l.text).seenAll = true
      · refine ⟨_, ?_, hall', hagrees'⟩
        cases ls.map CpuinfoLine.text ++ more with
        | nil => rfl
        | cons line rest => rw [scanCpuinfo, if_pos hall']
      · exact ih (fun l' hl' => hsub l' (List.mem_cons_of_mem _ hl')) hagrees' hcoming' hall'

end

/-! ## The CPU type of the records -/

section

variable {d : DoubleScan} {p : Processor} {ls : List CpuinfoLine} {st : Detection}

/-- The vendor as the CPU says it. -/
def vendorId : Vendor → String
  | .intel => "GenuineIntel"
  | .amd => "AuthenticAMD"
  | .centaur => "CentaurHauls"
  | .zhaoxin => "  Shanghai  "

/-- The processor of a vendor and a CPUID, with the numbers that the kernel takes from it. -/
structure IsProcessor (p : Processor) (v : Vendor) (cpuid : UInt32) : Prop where
  vendor : p.vendor = (vendorId v).toList
  family : p.family = (parseCpuid cpuid).1
  model : p.model = (parseCpuid cpuid).2.1

/-- `is_cpu_supported` with the values of the processor. -/
theorem isCpuSupported_of_describes (hst : st.checked = false) (hdesc : Describes ls p)
    (rest : List Char) : ∃ r, Agrees p r ∧ r.seenAll = true ∧
      isCpuSupported d (some (ls.flatMap CpuinfoLine.text ++ rest)) st =
        selectCpu { st with checked := true } r := by
  have hcoming : Coming {} ls := by
    obtain ⟨a, b, -, -, -, hmhz, -⟩ := hdesc.mhz
    exact ⟨.inr hdesc.vendor.1, .inr hdesc.family.1, .inr hdesc.model.1, .inr hmhz,
      .inr hdesc.flags⟩
  have hagrees : Agrees p {} := by
    constructor <;> exact fun h => absurd h Bool.false_ne_true
  obtain ⟨r, hrun, hall, hr⟩ := scanCpuinfo_of_describes d (getdelimLines rest)
    hdesc (fun l hl => hl) hagrees hcoming
  refine ⟨r, hr, hall, ?_⟩
  rw [isCpuSupported, hst, if_neg Bool.false_ne_true]
  dsimp only
  rw [getdelimLines_texts, hrun, if_pos hall]

/-- `memory_error_support` after `select_intel_cputype`, which does not read it. -/
theorem selectIntelCputype_eq (support : Bool) (family model : Int32) :
    selectIntelCputype support family model = ((selectIntelCputype false family model).1,
      if family ≠ 15 ∧ family = 6 ∧ 0x1a ≤ model ∧ model ≠ 28 then true else support) := by
  unfold selectIntelCputype
  by_cases h15 : family = 15
  · have hnot : ¬ (family ≠ 15 ∧ family = 6 ∧ 0x1a ≤ model ∧ model ≠ 28) := fun h => h.1 h15
    rw [if_pos h15, if_pos h15, if_neg hnot]
  · rw [if_neg h15, if_neg h15]
    generalize lookupIntelCputype model = a
    generalize lookupIntelCputype ((family <<< 8) ||| model) = b
    by_cases hset : family = 6 ∧ 0x1a ≤ model ∧ model ≠ 28
    · rw [if_pos (show family ≠ 15 ∧ _ from ⟨h15, hset⟩)]
      simp only [if_pos hset]
      cases a <;> cases b <;> dsimp only <;> split_ifs <;> rfl
    · rw [if_neg fun h : family ≠ 15 ∧ _ => hset h.2]
      simp only [if_neg hset]
      cases a <;> cases b <;> dsimp only <;> split_ifs <;> rfl

/-- `memory_error_support` is not taken back. -/
theorem setupCpuid_again (support : Bool) (cpuvendor : UInt8) (cpuid : UInt32) :
    setupCpuid (setupCpuid support cpuvendor cpuid).2 cpuvendor cpuid =
      setupCpuid support cpuvendor cpuid := by
  unfold setupCpuid
  dsimp only
  split_ifs
  · rw [selectIntelCputype_eq, selectIntelCputype_eq support]
    dsimp only
    split_ifs <;> rfl
  · rfl
  · rfl
  · rfl

/-- AMD's family 15. -/
theorem setupCpuid_k8 {cpuid : UInt32} (h : (parseCpuid cpuid).1 = 15) (support : Bool) :
    setupCpuid support 2 cpuid = (.k8, support) := by
  unfold setupCpuid
  generalize parseCpuid cpuid = r at h ⊢
  obtain ⟨family, model, step⟩ := r
  obtain rfl : family = 15 := h
  rfl

theorem setupMessages_eq_nil {v : Vendor} {cpuid : UInt32}
    (hv : v ≠ .amd ∨ (parseCpuid cpuid).1 = 15) : setupMessages v.number cpuid = [] := by
  unfold setupMessages
  generalize parseCpuid cpuid = r at hv ⊢
  obtain ⟨family, model, step⟩ := r
  cases v with
  | intel => rfl
  | centaur => rfl
  | zhaoxin => rfl
  | amd =>
    obtain rfl : family = 15 := hv.resolve_left fun h => h rfl
    rfl

/-- The CPU type of the processor, for the vendors that are told apart in the same way. -/
theorem selectCpu_eq {r : CpuinfoScan} {v : Vendor} {cpuid : UInt32} (hr : Agrees p r)
    (hall : r.seenAll = true) (hp : IsProcessor p v cpuid)
    (hv : v ≠ .amd ∨ (parseCpuid cpuid).1 = 15) :
    selectCpu st r = ({ st with
      cputype := (setupCpuid st.memoryErrorSupport v.number cpuid).1
      memoryErrorSupport := (setupCpuid st.memoryErrorSupport v.number cpuid).2 }, true, none) := by
  obtain ⟨⟨⟨⟨hvendor, hfamily⟩, hmodel⟩, -⟩, -⟩ := by
    simpa only [CpuinfoScan.seenAll, Bool.and_eq_true] using hall
  have hf := hr.family hfamily
  have hm := hr.model hmodel
  have hn := hr.vendor hvendor
  rw [hp.vendor] at hn
  rw [hp.family] at hf
  rw [hp.model] at hm
  unfold selectCpu
  cases v with
  | intel =>
    have hn : r.vendor = "GenuineIntel".toList := hn
    rw [hn, if_neg (by decide), if_neg (by decide), if_pos rfl, hf, hm]
    rfl
  | amd =>
    have hn : r.vendor = "AuthenticAMD".toList := hn
    have h15 : (parseCpuid cpuid).1 = 15 := hv.resolve_left fun h => h rfl
    have hsetup : setupCpuid st.memoryErrorSupport Vendor.amd.number cpuid =
        (.k8, st.memoryErrorSupport) := setupCpuid_k8 h15 _
    rw [hn, if_pos rfl, hf, h15, if_pos (by rfl), hsetup]
  | centaur =>
    have hn : r.vendor = "CentaurHauls".toList := hn
    rw [hn, if_neg (by decide), if_neg (by decide), if_neg (by decide), if_pos (.inl rfl), hf, hm]
    rfl
  | zhaoxin =>
    have hn : r.vendor = "Shanghai  ".toList := hn
    rw [hn, if_neg (by decide), if_neg (by decide), if_neg (by decide), if_pos (.inr rfl), hf, hm]
    rfl

/-- A record of the CPU, or one without a CPUID, leaves the CPU type alone. -/
theorem mceCpuid_of_settled (d : DoubleScan) (cpuinfo : Option (List Char)) {v : Vendor}
    {cpuid : UInt32} {m : Mce} (hchecked : st.checked = true)
    (hsettled : (st.cputype, st.memoryErrorSupport) =
      setupCpuid st.memoryErrorSupport v.number cpuid)
    (hv : v ≠ .amd ∨ (parseCpuid cpuid).1 = 15)
    (hm : m.cpuid = 0 ∨ (m.cpuvendor = v.number ∧ m.cpuid = cpuid)) :
    mceCpuid d false cpuinfo st m = (st, []) := by
  unfold mceCpuid
  by_cases hzero : m.cpuid = 0
  · rw [if_neg (not_not.mpr hzero)]
    rw [isCpuSupported, if_pos hchecked]
    split_ifs <;> rfl
  · obtain ⟨hvendor, rfl⟩ := hm.resolve_left hzero
    rw [if_pos hzero, hvendor, ← hsettled, setupMessages_eq_nil hv]
    rfl

/-- Numbers that start with a digit. -/
def digitScan : DoubleScan where
  reads s := s.head?.any (isDigitOf 10)
  fraction a b rest ha hne hb := by
    obtain ⟨c, a, rfl⟩ := List.exists_cons_of_ne_nil hne
    exact ha c List.mem_cons_self

/-- A Skylake server. -/
def skylakeServer : Processor where
  vendor := "GenuineIntel".toList
  family := 6
  model := 85
  family_lt := by decide
  model_lt := by decide
  vendor_length := by decide
  vendor_letters := by decide

def skylakeLines : List CpuinfoLine :=
  [⟨"processor".toList, ['\t'], ['0'], by decide, by decide, by decide⟩,
    ⟨"vendor_id".toList, ['\t'], "GenuineIntel".toList, by decide, by decide, by decide⟩,
    ⟨"cpu family".toList, ['\t'], ['6'], by decide, by decide, by decide⟩,
    ⟨"model".toList, ['\t', '\t'], "85".toList, by decide, by decide, by decide⟩,
    ⟨"model name".toList, ['\t'], "Xeon".toList, by decide, by decide, by decide⟩,
    ⟨"cpu MHz".toList, ['\t', '\t'], "2100.000".toList, by decide, by decide, by decide⟩,
    ⟨"flags".toList, ['\t', '\t'], "constant_tsc".toList, by decide, by decide, by decide⟩]

theorem describes_skylakeLines : Describes skylakeLines skylakeServer where
  vendor := by unfold HasValue; decide
  family := by unfold HasValue; decide
  model := by unfold HasValue; decide
  mhz := ⟨"2100".toList, "000".toList, by decide, by decide, by decide, by unfold HasValue; decide⟩
  flags := by decide

end

end Mcelog.Daemon
