import Mcelog.Ascii.FieldLines

/-!
# Reading back what was printed

`mcelog --ascii` also reads the output of mcelog. The field lines that `dump_mce`
prints for a record are read in their order.

* `reparse_iff`: they give one record with the printed values exactly if the
  socket number is below 10 (it is printed in hexadecimal and read in decimal),
  the microcode revision and the CPUID are not both printed (the line of the
  first is not known and ends the record), and the date of the time can be
  skipped.
-/

namespace Mcelog.Ascii

open Mcelog.Common Mcelog.Machine

/-! ## The line of the socket -/

section SocketLine

variable {env : AsciiEnv} {m : Mce}

/-- The field of the socket number, as it is printed. -/
def socketText (m : Mce) : List Char :=
  [' '] ++ ("SOCKETID".toList ++ (' ' :: (Nat.toDigits 16 m.socketid.toNat ++ [' ', '\n'])))

theorem socketText_clean (m : Mce) : CleanLine 'g' (socketText m) :=
  .append (by decide) (.append (by decide) (.append (l := [' ']) (by decide)
    (.append (clean_hex (by decide) _) (.append (l := [' ']) (by decide) cleanLine_newline))))

theorem socketLine_eq (m : Mce) : socketLine m sizeofMce =
    [] ++ (optionalField (m.mcgcap != 0) "MCGCAP" m.mcgcap.toNat ++
      (optionalField true "APICID" m.apicid.toNat ++
        (optionalField true "SOCKETID" m.socketid.toNat ++ ['\n']))) := by
  have hcap : (decide (sizeofMce > 60) && m.mcgcap != 0) = (m.mcgcap != 0) := rfl
  have hapicid : decide (sizeofMce > 76) = true := rfl
  have hsocket : decide (sizeofMce > offsetofSocketid) = true := rfl
  have hne : optionalField (m.mcgcap != 0) "MCGCAP" m.mcgcap.toNat ++
      (optionalField true "APICID" m.apicid.toNat ++
        optionalField true "SOCKETID" m.socketid.toNat) ≠ [] := by
    intro h
    have hapic := (List.append_eq_nil_iff.mp (List.append_eq_nil_iff.mp h).2).1
    exact absurd (optionalField_eq_nil.mp hapic) (by decide)
  rw [socketLine, hcap, hapicid, hsocket, if_pos hne, List.nil_append]

theorem socketLine_clean (m : Mce) : CleanLine 'g' (socketLine m sizeofMce) := by
  rw [socketLine_eq]
  exact .append clean_nil (.append (clean_optional _ (by decide) _)
    (.append (clean_optional _ (by decide) _) (.append (clean_optional _ (by decide) _)
      cleanLine_newline)))

/-- The record in front of the field of the socket number. -/
def capChange (m x : Mce) : Mce :=
  { x with mcgcap := if m.mcgcap != 0 then m.mcgcap else x.mcgcap, apicid := m.apicid }

theorem socketLine_reaches (env : AsciiEnv) (m : Mce) :
    Reaches env (socketLine m sizeofMce) (socketText m) true (capChange m) := by
  have hfree := (socketLine_clean m).tagFree (by decide)
  have hapicid : m.apicid.toNat < 2 ^ 32 := m.apicid.toNat_lt
  rw [socketLine_eq] at hfree ⊢
  have hcap := Reaches.optional env "MCGCAP" (by decide) m.mcgcap.toNat_lt le_rfl (by simp) hfree
    (fun r t => rfl)
  have hapic := Reaches.optional env "APICID" (by decide) hapicid (by decide)
    (isSpace_blanks (by simp)) hfree.optional (fun r t => rfl)
  have htext : (if true = true then [' '] else if (m.mcgcap != 0) = true then [' '] else []) ++
      (optionalField true "SOCKETID" m.socketid.toNat ++ ['\n']) = socketText m := by
    have hblank : ∀ d : List Char, ' ' :: (d ++ [' ']) ++ ['\n'] = ' ' :: (d ++ [' ', '\n']) := by
      simp
    rw [if_pos rfl, optionalField, if_pos rfl, List.append_assoc "SOCKETID".toList, hblank]
    rfl
  have hreaches := hcap.trans hapic
  rw [htext, Bool.or_true] at hreaches
  refine hreaches.congr fun x => ?_
  cases hzero : (m.mcgcap != 0) <;> simp [capChange, hzero]

/-- The effect of the line of the socket. -/
def socketChange (m x : Mce) : Mce := { capChange m x with socketid := m.socketid }

/-- A socket number of one decimal digit is the same in both bases. -/
theorem socketLine_feeds (h : m.socketid < 10) (env : AsciiEnv) :
    Feeds env (socketLine m sizeofMce) (socketChange m) := by
  have hreaches := socketLine_reaches env m
  have hfree := (socketText_clean m).tagFree (by decide)
  have hlt : m.socketid.toNat < 10 := h
  have hdigits : Nat.toDigits 16 m.socketid.toNat = Nat.toDigits 10 m.socketid.toNat := by
    rw [Nat.toDigits_of_lt_base (by omega), Nat.toDigits_of_lt_base hlt]
  rw [socketText, hdigits] at hreaches hfree
  have hsocket := Reaches.printed env "SOCKETID" (by decide) (by decide) (by decide)
    m.socketid.toNat_lt (by decide) (numberEnds_cons (by decide)) (by decide) hfree (fun r => rfl)
  refine ((hreaches.trans hsocket).congr fun x => ?_).feeds (socketLine_clean m).isLine
    (skipgunk_of_blanks (by decide))
  simp [socketChange]

/-- A hexadecimal digit that is no decimal one. -/
theorem letter_of_not_decimal {c : Char} {n : ℕ} (hc : c ∈ Nat.toDigits 16 n)
    (h : isDigitOf 10 c = false) : c ∈ "abcdef".toList := by
  obtain ⟨d, hd, rfl⟩ := exists_digitChar_of_mem_toDigits (by decide) n c hc
  have hle : 10 ≤ d := by
    rw [isDigitOf, digitValue_digitChar hd] at h
    exact not_lt.mp (of_decide_eq_false h)
  clear hc h
  revert d
  decide

/-- Letters that are left of a number are no token. -/
theorem token_letters (env : AsciiEnv) (r : AsciiRecord) {c : Char} (hc : c ∈ "abcdef".toList)
    {t : List Char} (hH : 'H' ∉ c :: t) : token env r (c :: t) = none := by
  have hbranches : ∀ c ∈ "abcdef".toList,
      ((branches env).take 14).find? (fun b => b.applies (c :: t)) = none ∧
      ((branches env).drop 15).find? (fun b => b.applies (c :: t)) = none := by
    intro c hc
    have hcases : c = 'a' ∨ c = 'b' ∨ c = 'c' ∨ c = 'd' ∨ c = 'e' ∨ c = 'f' := by
      simpa using hc
    rcases hcases with rfl | rfl | rfl | rfl | rfl | rfl <;> exact ⟨rfl, rfl⟩
  rw [token_eq_late (hbranches c hc).1 hH, (hbranches c hc).2]
  rfl

/-- A socket number that starts with a letter is not read. -/
theorem socketText_letter {c : Char} {ds : List Char}
    (hds : Nat.toDigits 16 m.socketid.toNat = c :: ds) (hc : isDigitOf 10 c = false)
    (st : Decoder) :
    decodeLine env st (socketText m) = (⟨st.record.miss, st.data⟩, []) := by
  have hletter : c ∈ "abcdef".toList :=
    letter_of_not_decimal (hds ▸ List.mem_cons_self) hc
  have hother : isSpace c = false ∧ c ≠ '-' ∧ c ≠ '+' := by
    have hall : ∀ c ∈ "abcdef".toList, isSpace c = false ∧ c ≠ '-' ∧ c ≠ '+' := by decide
    exact hall c hletter
  have hfree := (socketText_clean m).tagFree (by decide)
  rw [socketText] at hfree ⊢
  have hgunk := skipgunk_name (by decide) (by decide) hfree
  rw [hds] at hgunk ⊢
  set text := "SOCKETID".toList ++ (' ' :: (c :: ds ++ [' ', '\n'])) with htext
  have hscan : scan text.length (literal "SOCKETID" ++ [.space, .num 10 false none 32, .pos]) text =
      ([], some .matching) := by
    generalize text.length = total
    rw [htext, List.cons_append, scan_literal "SOCKETID" (by decide)
      (fun h => absurd h (by decide)), scan_space (noHead_cons hother.1), scan,
      scanNumber_of_not_digit (by decide) hc hother.1 hother.2.1 hother.2.2 (by simp)]
  have htoken : socketidToken st.record text = ⟨st.record.miss, 0, text, 0⟩ := by
    unfold socketidToken numField sscanf
    dsimp only
    rw [hscan]
    rfl
  have hcall : token env st.record text = some (socketidToken st.record text) := rfl
  rw [htoken] at hcall
  rw [decodeLine_last hgunk hcall rfl]
  simp

/-- The leading decimal digits of a socket number are read, as another number. -/
theorem socketText_reaches (h : 10 ≤ m.socketid.toNat)
    (hpre : (Nat.toDigits 16 m.socketid.toNat).takeWhile (isDigitOf 10) ≠ [])
    (env : AsciiEnv) : ∃ v, v ≠ m.socketid ∧
      Reaches env (socketText m) ((Nat.toDigits 16 m.socketid.toNat).dropWhile (isDigitOf 10) ++
        [' ', '\n']) true (fun x => { x with socketid := v }) := by
  have hfree := (socketText_clean m).tagFree (by decide)
  have hvalue := ofNumeral_ten_lt h
  have hlt : ofNumeral 10 ((Nat.toDigits 16 m.socketid.toNat).takeWhile (isDigitOf 10)) <
      UInt32.size := hvalue.trans m.socketid.toNat_lt
  set ds := Nat.toDigits 16 m.socketid.toNat with hds
  refine ⟨.ofNat (ofNumeral 10 (ds.takeWhile (isDigitOf 10))), ?_, ?_⟩
  · intro heq
    have := congrArg UInt32.toNat heq
    rw [UInt32.toNat_ofNat_of_lt' hlt] at this
    omega
  · have htext : socketText m = [' '] ++ ("SOCKETID".toList ++ (' ' ::
        (ds.takeWhile (isDigitOf 10) ++ (ds.dropWhile (isDigitOf 10) ++ [' ', '\n'])))) := by
      rw [← List.append_assoc (ds.takeWhile _), List.takeWhile_append_dropWhile, hds]
      rfl
    have hends : NumberEnds 10 (ds.dropWhile (isDigitOf 10) ++ [' ', '\n']) := by
      cases hpost : ds.dropWhile (isDigitOf 10) with
      | nil => exact numberEnds_cons (by decide)
      | cons c post =>
        have hc := noHead_dropWhile (isDigitOf 10) ds c (by rw [hpost]; rfl)
        have hmem : c ∈ ds := (List.dropWhile_suffix _).subset (hpost ▸ List.mem_cons_self)
        have hletter : ∀ c ∈ "abcdef".toList, c ≠ 'x' ∧ c ≠ 'X' := by decide
        exact numberEnds_cons ⟨hc, hletter c (letter_of_not_decimal hmem hc)⟩
    rw [htext] at hfree ⊢
    exact Reaches.digits (by decide) (by decide) (fun c hc => List.mem_takeWhile_imp hc) hpre
      hlt (by decide) hends (by decide) hfree (fun r => rfl)

/-- The rest of a socket number is read no further: it is no token. -/
theorem letters_unknown {c : Char} {post : List Char}
    (hpost : (Nat.toDigits 16 m.socketid.toNat).dropWhile (isDigitOf 10) = c :: post) :
    skipgunk (c :: post ++ [' ', '\n']) = c :: post ++ [' ', '\n'] ∧
      ∀ (env : AsciiEnv) (r : AsciiRecord), token env r (c :: post ++ [' ', '\n']) = none := by
  have hc := noHead_dropWhile (isDigitOf 10) _ c (by rw [hpost]; rfl)
  have hmem : c ∈ Nat.toDigits 16 m.socketid.toNat :=
    (List.dropWhile_suffix _).subset (hpost ▸ List.mem_cons_self)
  have hletter := letter_of_not_decimal hmem hc
  have hsuffix : c :: post ++ [' ', '\n'] <:+ socketText m := by
    refine List.IsSuffix.trans ?_ ((List.suffix_cons _ _).trans
      ((List.suffix_append _ _).trans (List.suffix_append _ _)))
    exact ⟨(Nat.toDigits 16 m.socketid.toNat).takeWhile (isDigitOf 10), by
      rw [← List.append_assoc, ← hpost, List.takeWhile_append_dropWhile]⟩
  constructor
  · have hletters : ∀ c ∈ "abcdef".toList, Ordinary c := by decide
    exact skipgunk_cons (((socketText_clean m).tagFree (by decide)).suffix hsuffix)
      (hletters c hletter)
  · exact fun env r => token_letters env r hletter
      (fun hmem => (socketText_clean m).notMem_H (hsuffix.subset hmem))

/-- A socket number that starts with a letter leaves the socket as it is. -/
theorem socketLine_letter
    (h : (Nat.toDigits 16 m.socketid.toNat).takeWhile (isDigitOf 10) = []) (env : AsciiEnv)
    (st : Decoder) (hdata : st.data = true) (text : List Char) :
    ∃ r, r.m = capChange m st.record.m ∧
      decodedFrom env st (socketLine m sizeofMce ++ text) = decodedFrom env ⟨r, true⟩ text := by
  obtain ⟨c, ds, hds⟩ := List.exists_cons_of_ne_nil
    (Nat.toDigits_ne_nil (n := m.socketid.toNat) (b := 16))
  have hc : isDigitOf 10 c = false := by
    by_contra hc
    rw [hds, List.takeWhile_cons, if_pos (Bool.eq_true_of_not_eq_false hc)] at h
    cases h
  obtain ⟨r, hr, heq⟩ := socketLine_reaches env m st
  refine ⟨r.miss, hr, ?_⟩
  rw [decodedFrom_line (socketLine_clean m).isLine, heq, socketText_letter hds hc, hdata]
  rfl

/-- **A socket number above 9.** It is read as another number: the next record has
    a wrong socket. -/
theorem socketLine_bad (h : 10 ≤ m.socketid.toNat) (env : AsciiEnv) (st : Decoder)
    (hdata : st.data = true) (hzero : st.record.m.socketid = 0) (text : List Char) :
    (∃ x more, decodedFrom env st (socketLine m sizeofMce ++ text) = x :: more ∧
      x.socketid ≠ m.socketid) ∨
    ∃ r, r.m.socketid ≠ m.socketid ∧
      decodedFrom env st (socketLine m sizeofMce ++ text) = decodedFrom env ⟨r, true⟩ text := by
  have hline := (socketLine_clean m).isLine
  by_cases hpre : (Nat.toDigits 16 m.socketid.toNat).takeWhile (isDigitOf 10) = []
  · obtain ⟨r, hr, heq⟩ := socketLine_letter hpre env st hdata text
    refine Or.inr ⟨r, fun hsocket => ?_, heq⟩
    rw [hr] at hsocket
    have hm : m.socketid = 0 := hsocket.symm.trans hzero
    rw [hm] at h
    exact absurd h (by decide)
  · obtain ⟨v, hv, hsocket⟩ := socketText_reaches h hpre env
    have hboth := (socketLine_reaches env m).trans hsocket
    cases hpost : (Nat.toDigits 16 m.socketid.toNat).dropWhile (isDigitOf 10) with
    | nil =>
      rw [hpost] at hboth
      obtain ⟨r, hr, heq⟩ := decodedFrom_reaches hline hboth (skipgunk_of_blanks (by decide))
        st text
      rw [hdata, Bool.true_or] at heq
      refine Or.inr ⟨r, ?_, heq⟩
      rw [hr]
      exact hv
    | cons c post =>
      obtain ⟨hgunk, htoken⟩ := letters_unknown hpost
      rw [hpost] at hboth
      exact Or.inl ⟨_, _, decodedFrom_unknown hline hboth hgunk (by simp) (htoken env)
        (by simp) text, hv⟩

end SocketLine

/-! ## The last lines -/

section LastLines

variable {m : Mce}

def ppinChange (m x : Mce) : Mce := { x with ppin := if m.ppin ≠ 0 then m.ppin else x.ppin }

theorem ppinLine_feeds (env : AsciiEnv) (m : Mce) :
    Feeds env (ppinLine m sizeofMce) (ppinChange m) := by
  by_cases hppin : m.ppin ≠ 0
  · have hline : ppinLine m sizeofMce = [] ++ ("PPIN".toList ++ (' ' ::
        (Nat.toDigits 16 m.ppin.toNat ++ ['\n']))) := by
      rw [ppinLine, if_pos ⟨by decide, hppin⟩]
      rfl
    have hclean : CleanLine 'g' (ppinLine m sizeofMce) := by
      rw [hline]
      exact .append clean_nil (.append (by decide) (.append (l := [' ']) (by decide)
        (.append (clean_hex (by decide) _) cleanLine_newline)))
    have hfree := hclean.tagFree (by decide)
    have hH := hclean.notMem_H
    rw [hline, List.nil_append] at hH
    have hreaches := Reaches.hex env "PPIN" (by decide) (numberEnds_newline le_rfl) (by simp)
      (hline ▸ hfree) (fun r => by
        rw [token_eq_late rfl hH]
        rfl)
    rw [← hline] at hreaches
    refine (hreaches.congr fun x => ?_).feeds hclean.isLine (skipgunk_of_blanks (by decide))
    rw [ppinChange, if_pos hppin, UInt64.ofNat_toNat]
  · have hchange : ppinChange m = id := by
      funext x
      rw [ppinChange, if_neg hppin]
      rfl
    rw [ppinLine, if_neg (fun hand => hppin hand.2), hchange]
    exact feeds_nil env

/-- The line of the microcode revision is not known: it ends the record. -/
theorem decodedFrom_microcode (h : m.microcode ≠ 0) (env : AsciiEnv) (st : Decoder)
    (hdata : st.data = true) (text : List Char) :
    decodedFrom env st (microcodeLine m sizeofMce ++ text) =
      { st.record.m with finished := 1 } :: decodedFrom env {} text := by
  have hline : microcodeLine m sizeofMce =
      "MICROCODE ".toList ++ (Nat.toDigits 16 m.microcode.toNat ++ ['\n']) := by
    rw [microcodeLine, if_pos ⟨by decide, h⟩]
  have hclean : CleanLine 'g' (microcodeLine m sizeofMce) := by
    rw [hline]
    exact .append (by decide) (.append (clean_hex (by decide) _) cleanLine_newline)
  have hfree := hclean.tagFree (by decide)
  have hgunk : skipgunk (microcodeLine m sizeofMce) = microcodeLine m sizeofMce := by
    rw [hline] at hfree ⊢
    exact skipgunk_cons hfree (by decide)
  have htoken : ∀ r, token env r (microcodeLine m sizeofMce) = none := by
    intro r
    have hH := hclean.notMem_H
    rw [hline] at hH ⊢
    rw [token_eq_late rfl hH]
    rfl
  exact decodedFrom_unknown hclean.isLine (Reaches.refl env _) hgunk (by simp [hline]) htoken
    (by rw [hdata, Bool.true_or]) text

/-- The fields of a record that the line of the CPUID does not change. -/
def fieldsOf (x : Mce) : Mce := { x with cpuvendor := 0, cpuid := 0, finished := 0 }

/-- The names of the vendors. -/
theorem cpuvendorName_mem (v : UInt8) : cpuvendorName v ∈ "Unknown vendor" :: vendors := by
  rw [cpuvendorName]
  cases hv : vendors[v.toNat]? with
  | none => exact List.mem_cons_self
  | some name => exact List.mem_cons_of_mem _ (List.mem_of_getElem? hv)

theorem cpuidLine_eq (h : m.cpuid ≠ 0) : ∃ t, CleanLine 'g' t ∧ cpuidLine m sizeofMce =
    "CPUID Vendor ".toList ++ ((cpuvendorName m.cpuvendor).toList ++ t) := by
  have hdec : ∀ n, Clean 'g' (Nat.toDigits 10 n) := clean_dec (by decide)
  rw [cpuidLine, if_pos ⟨by decide, h⟩]
  exact ⟨_, .append (by decide) (.append (hdec _) (.append (by decide) (.append (hdec _)
    (.append (by decide) (.append (hdec _) cleanLine_newline))))), rfl⟩

/-- The vendor is read as a word, so that the line counts as a field. -/
theorem cpuidToken_pos (v : UInt8) (t : List Char) (r : AsciiRecord) :
    0 < (cpuidToken r ("CPUID Vendor ".toList ++ ((cpuvendorName v).toList ++ t))).n := by
  have hnames : ∀ name ∈ "Unknown vendor" :: vendors,
      name.toList.head?.any (fun c => !isSpace c) = true := by decide
  obtain ⟨c, name, hname, hspace⟩ : ∃ c name, (cpuvendorName v).toList = c :: name ∧
      isSpace c = false := by
    have hany := hnames _ (cpuvendorName_mem v)
    cases hchars : (cpuvendorName v).toList with
    | nil =>
      rw [hchars] at hany
      cases hany
    | cons c name =>
      rw [hchars] at hany
      exact ⟨c, name, rfl, by simpa using hany⟩
  have hskip : ∀ t, (c :: t).dropWhile isSpace = c :: t :=
    fun t => dropWhile_of_noHead (noHead_cons hspace)
  obtain ⟨word, args, e, hscan⟩ : ∃ word args e, scan
      ("CPUID Vendor ".toList ++ ((cpuvendorName v).toList ++ t)).length
      (literal "CPUID Vendor " ++ [.str (some 30)] ++ literal " Family " ++ [conversionU] ++
        literal " Model " ++ [conversionU] ++ literal "\n")
      ("CPUID Vendor ".toList ++ ((cpuvendorName v).toList ++ t)) = (.str word :: args, e) := by
    generalize ("CPUID Vendor ".toList ++ ((cpuvendorName v).toList ++ t)).length = total
    rw [hname]
    simp only [List.append_assoc, List.cons_append, List.nil_append]
    rw [scan_literal "CPUID Vendor " (by decide) (fun _ => noHead_cons hspace), scan, hskip]
    dsimp only
    rw [if_neg (List.cons_ne_nil _ _)]
    exact ⟨_, _, _, rfl⟩
  unfold cpuidToken sscanf
  rw [hscan]
  simp [Arg.counts]

theorem cpuidToken_fields (r : AsciiRecord) (s : List Char) :
    fieldsOf (cpuidToken r s).record.m = fieldsOf r.m := by
  unfold cpuidToken
  dsimp only
  split_ifs <;> rfl

/-- The line of the CPUID is a field of the record. -/
theorem decodedFrom_cpuid (h : m.cpuid ≠ 0) (env : AsciiEnv) (st : Decoder)
    (text : List Char) : ∃ r, fieldsOf r.m = fieldsOf st.record.m ∧
      decodedFrom env st (cpuidLine m sizeofMce ++ text) = decodedFrom env ⟨r, true⟩ text := by
  obtain ⟨t, ht, hline⟩ := cpuidLine_eq h
  have hnames : ∀ name ∈ "Unknown vendor" :: vendors, Clean 'g' name.toList := by decide
  have hclean : CleanLine 'g' (cpuidLine m sizeofMce) := by
    rw [hline]
    exact .append (by decide) (.append (hnames _ (cpuvendorName_mem _)) ht)
  have hfree := hclean.tagFree (by decide)
  have hpos := cpuidToken_pos m.cpuvendor t st.record
  have hgunk : skipgunk (cpuidLine m sizeofMce) = cpuidLine m sizeofMce := by
    rw [hline] at hfree ⊢
    exact skipgunk_cons hfree (by decide)
  have hcall : token env st.record (cpuidLine m sizeofMce) =
      some (cpuidToken st.record (cpuidLine m sizeofMce)) := by
    rw [hline]
    rfl
  rw [← hline] at hpos
  refine ⟨_, cpuidToken_fields st.record (cpuidLine m sizeofMce), ?_⟩
  rw [decodedFrom_line hclean.isLine, decodeLine_last hgunk hcall rfl, decide_eq_true hpos,
    Bool.or_true]
  rfl

/-- The lines behind the one of the socket. -/
def lastLines (m : Mce) : List Char :=
  ppinLine m sizeofMce ++ (microcodeLine m sizeofMce ++ cpuidLine m sizeofMce)

/-- **The last lines.** The record is printed with its fields, and another one
    follows exactly if the line of the microcode ends it before the line of the
    CPUID. -/
theorem decodedFrom_lastLines (env : AsciiEnv) (m : Mce) (r : AsciiRecord) :
    ∃ x more, decodedFrom env ⟨r, true⟩ (lastLines m) = x :: more ∧
      fieldsOf x = fieldsOf (ppinChange m r.m) ∧
      (more = [] ↔ m.microcode = 0 ∨ m.cpuid = 0) := by
  obtain ⟨r₁, hr₁, heq₁⟩ := ppinLine_feeds env m ⟨r, true⟩
    (microcodeLine m sizeofMce ++ cpuidLine m sizeofMce) rfl
  rw [lastLines, heq₁, ← hr₁]
  have hnone : m.cpuid = 0 → cpuidLine m sizeofMce = [] := fun hzero => by
    rw [cpuidLine, if_neg (fun hand => hand.2 hzero)]
  by_cases hmicro : m.microcode = 0
  · have hline : microcodeLine m sizeofMce = [] := by
      rw [microcodeLine, if_neg (fun hand => hand.2 hmicro)]
    rw [hline, List.nil_append]
    by_cases hcpuid : m.cpuid = 0
    · rw [hnone hcpuid, decodedFrom_nil]
      exact ⟨_, _, rfl, rfl, by simp [hmicro]⟩
    · obtain ⟨r₂, hr₂, heq₂⟩ := decodedFrom_cpuid hcpuid env ⟨r₁, true⟩ []
      rw [List.append_nil] at heq₂
      rw [heq₂, decodedFrom_nil]
      refine ⟨_, _, rfl, ?_, by simp [hmicro]⟩
      rw [← hr₂]
      rfl
  · have hmicrocode := decodedFrom_microcode hmicro env ⟨r₁, true⟩ rfl (cpuidLine m sizeofMce)
    refine ⟨_, _, hmicrocode, rfl, ?_⟩
    by_cases hcpuid : m.cpuid = 0
    · rw [hnone hcpuid, decodedFrom_nil]
      simp [hcpuid]
    · obtain ⟨r₂, -, heq₂⟩ := decodedFrom_cpuid hcpuid env {} []
      rw [List.append_nil] at heq₂
      rw [heq₂, decodedFrom_nil]
      simp [hmicro, hcpuid]

end LastLines

/-! ## Main theorem -/

section Main

variable {env : AsciiEnv} {denv : DumpEnv} {m x : Mce}

/-- `x` has the values of `m` that are printed. -/
structure PrintedEqual (m x : Mce) : Prop where
  status : x.status = m.status
  mcgstatus : x.mcgstatus = m.mcgstatus
  misc : m.status &&& mciStatusMiscv ≠ 0 → x.misc = m.misc
  addr : m.status &&& mciStatusAddrv ≠ 0 → x.addr = m.addr
  tsc : m.tsc ≠ 0 → x.tsc = m.tsc
  time : m.time ≠ 0 → x.time = m.time
  bank : x.bank = m.bank
  cpu : cpuNumber x = cpuNumber m
  mcgcap : m.mcgcap ≠ 0 → x.mcgcap = m.mcgcap
  apicid : x.apicid = m.apicid
  socketid : x.socketid = m.socketid
  ppin : m.ppin ≠ 0 → x.ppin = m.ppin

/-- The field lines of the record, read by `decodefatal`, give one record with the
    printed values. -/
def Reparses (env : AsciiEnv) (denv : DumpEnv) (m : Mce) : Prop :=
  ∃ r, finals (decodefatal env (dumpMce denv m sizeofMce)) = [r] ∧ PrintedEqual m r.m

theorem reparses_iff_of_decoded {more : List Mce}
    (h : decodedFrom env {} (dumpMce denv m sizeofMce) = x :: more) :
    Reparses env denv m ↔ more = [] ∧ PrintedEqual m x := by
  have hmap : (finals (decodefatal env (dumpMce denv m sizeofMce))).map AsciiRecord.m =
      x :: more := h
  constructor
  · rintro ⟨r, hr, hequal⟩
    rw [hr, List.map_singleton] at hmap
    obtain ⟨rfl, rfl⟩ := List.cons.inj hmap
    exact ⟨rfl, hequal⟩
  · rintro ⟨rfl, hequal⟩
    obtain ⟨r, hr, rfl⟩ := List.map_eq_singleton_iff.mp hmap
    exact ⟨r, hr, hequal⟩

/-- The record before the line of the socket. -/
def readFields (m : Mce) : Mce :=
  { timeChange m (miscAddrChange m (cpuChange m {})) with
    status := m.status, mcgstatus := m.mcgstatus }

theorem printedEqual_of_fields (hcpu : cpuNumber m < 256)
    (h : fieldsOf x = fieldsOf (ppinChange m (socketChange m (readFields m)))) :
    PrintedEqual m x := by
  have hnumber : cpuNumber x = x.cpu.toUInt32 := by
    have hext : x.extcpu = 0 := congrArg Mce.extcpu h
    rw [cpuNumber, hext]
    rfl
  have hstatus := congrArg Mce.status h
  have hmcgstatus := congrArg Mce.mcgstatus h
  have hbank := congrArg Mce.bank h
  have hapicid := congrArg Mce.apicid h
  have hsocketid := congrArg Mce.socketid h
  have hcpu' : x.cpu = .ofNat (cpuNumber m).toNat := congrArg Mce.cpu h
  have hlt : (cpuNumber m).toNat < 256 := hcpu
  exact {
    status := hstatus
    mcgstatus := hmcgstatus
    misc := fun hv => (congrArg Mce.misc h).trans (if_pos (bne_iff_ne.mpr hv))
    addr := fun hv => (congrArg Mce.addr h).trans (if_pos (bne_iff_ne.mpr hv))
    tsc := fun hne => (congrArg Mce.tsc h).trans (if_pos hne)
    time := fun hne => (congrArg Mce.time h).trans (if_pos hne)
    bank := hbank
    cpu := by
      rw [hnumber, hcpu', ← UInt32.toNat_inj, UInt8.toNat_toUInt32, UInt8.toNat_ofNat_of_lt' hlt]
    mcgcap := fun hne => (congrArg Mce.mcgcap h).trans (if_pos (bne_iff_ne.mpr hne))
    apicid := hapicid
    socketid := hsocketid
    ppin := fun hne => (congrArg Mce.ppin h).trans (if_pos hne) }

/-- The lines up to the one of the time. -/
theorem decodedFrom_dumpMce (hcpu : cpuNumber m < 256) (env : AsciiEnv) (denv : DumpEnv) :
    ∃ r, r.m = miscAddrChange m (cpuChange m {}) ∧
      decodedFrom env {} (dumpMce denv m sizeofMce) = decodedFrom env ⟨r, true⟩
        (timeLine denv m ++ (statusLine m ++ (socketLine m sizeofMce ++ lastLines m))) := by
  obtain ⟨r₁, hr₁, heq₁⟩ := cpuLine_feeds hcpu env denv (miscAddrLine m ++ (timeLine denv m ++
    (statusLine m ++ (socketLine m sizeofMce ++ lastLines m))))
  obtain ⟨r₂, hr₂, heq₂⟩ := miscAddrLine_feeds env m ⟨r₁, true⟩ (timeLine denv m ++
    (statusLine m ++ (socketLine m sizeofMce ++ lastLines m))) rfl
  refine ⟨r₂, by rw [hr₂, hr₁], ?_⟩
  rw [← heq₂, ← heq₁]
  rfl

/-- A date that is not skipped makes two records. -/
theorem not_reparses_of_date (hcpu : cpuNumber m < 256) (env : AsciiEnv)
    (h : ¬ DateSkipped denv m.time) : ¬ Reparses env denv m := by
  obtain ⟨r, -, heq⟩ := decodedFrom_dumpMce hcpu env denv
  obtain ⟨htime, hdate⟩ := not_or.mp h
  cases htm : denv.localtime m.time.toInt64.toInt with
  | none =>
    obtain ⟨x, hx⟩ := decodedFrom_no_date htime htm env ⟨r, true⟩
      (socketLine m sizeofMce ++ lastLines m)
    rw [reparses_iff_of_decoded (heq.trans hx)]
    rintro ⟨hnil, -⟩
    exact decodedFrom_ne_nil_of_reaches (socketLine_clean m).isLine (socketLine_reaches env m) _
      hnil
  | some tm =>
    obtain ⟨x, hx⟩ := decodedFrom_bad_date htime htm (fun hskip => hdate ⟨tm, htm, hskip⟩) env
      ⟨r, true⟩ (statusLine m ++ (socketLine m sizeofMce ++ lastLines m))
    rw [reparses_iff_of_decoded (heq.trans hx)]
    rintro ⟨hnil, -⟩
    exact decodedFrom_ne_nil_of_reaches (statusLine_clean m).isLine (statusLine_reaches env m) _
      hnil

/-- A date that is skipped: the lines up to the one of the socket. -/
theorem decodedFrom_of_date (hcpu : cpuNumber m < 256) (env : AsciiEnv)
    (h : DateSkipped denv m.time) : ∃ r, r.m = readFields m ∧
      decodedFrom env {} (dumpMce denv m sizeofMce) =
        decodedFrom env ⟨r, true⟩ (socketLine m sizeofMce ++ lastLines m) := by
  obtain ⟨r₁, hr₁, heq₁⟩ := decodedFrom_dumpMce hcpu env denv
  obtain ⟨r₂, hr₂, heq₂⟩ := timeLine_feeds h env ⟨r₁, true⟩
    (statusLine m ++ (socketLine m sizeofMce ++ lastLines m)) rfl
  obtain ⟨r₃, hr₃, heq₃⟩ := statusLine_feeds env m ⟨r₂, true⟩
    (socketLine m sizeofMce ++ lastLines m) rfl
  refine ⟨r₃, ?_, by rw [heq₁, heq₂, heq₃]⟩
  rw [hr₃, hr₂, hr₁]
  rfl

/-- A socket number above 9 is read as another one. -/
theorem not_reparses_of_socket (hcpu : cpuNumber m < 256) (env : AsciiEnv)
    (hdate : DateSkipped denv m.time) (h : ¬ m.socketid < 10) : ¬ Reparses env denv m := by
  obtain ⟨r, hr, heq⟩ := decodedFrom_of_date hcpu env hdate
  have hge : 10 ≤ m.socketid.toNat := not_lt.mp h
  have hzero : r.m.socketid = 0 := by
    rw [hr]
    rfl
  rcases socketLine_bad hge env ⟨r, true⟩ rfl hzero (lastLines m) with
    ⟨x, more, hx, hne⟩ | ⟨r', hne, heq'⟩
  · rw [reparses_iff_of_decoded (heq.trans hx)]
    exact fun hequal => hne hequal.2.socketid
  · obtain ⟨x, more, hx, hfields, -⟩ := decodedFrom_lastLines env m r'
    rw [reparses_iff_of_decoded (heq.trans (heq'.trans hx))]
    intro hequal
    have hsocket := congrArg Mce.socketid hfields
    exact hne (hsocket.symm.trans hequal.2.socketid)

/-- **Reading back.** For every record whose CPU number is below 256: `decodefatal`
    makes one record with the printed values of the field lines of `dump_mce` if
    and only if the socket number is below 10, the microcode revision and the
    CPUID are not both printed, and the date of the time, if there is one, can be
    skipped. -/
theorem reparse_iff (env : AsciiEnv) (denv : DumpEnv) (m : Mce) (hcpu : cpuNumber m < 256) :
    Reparses env denv m ↔
      m.socketid < 10 ∧ (m.microcode = 0 ∨ m.cpuid = 0) ∧ DateSkipped denv m.time := by
  by_cases hdate : DateSkipped denv m.time
  · by_cases hsocket : m.socketid < 10
    · obtain ⟨r, hr, heq⟩ := decodedFrom_of_date hcpu env hdate
      obtain ⟨r', hr', heq'⟩ := socketLine_feeds hsocket env ⟨r, true⟩ (lastLines m) rfl
      obtain ⟨x, more, hx, hfields, hmore⟩ := decodedFrom_lastLines env m r'
      rw [reparses_iff_of_decoded (heq.trans (heq'.trans hx)), hmore]
      rw [hr', hr] at hfields
      exact ⟨fun h => ⟨hsocket, h.1, hdate⟩,
        fun h => ⟨h.2.1, printedEqual_of_fields hcpu hfields⟩⟩
    · exact ⟨fun h => absurd h (not_reparses_of_socket hcpu env hdate hsocket),
        fun h => absurd h.1 hsocket⟩
  · exact ⟨fun h => absurd h (not_reparses_of_date hcpu env hdate), fun h => absurd h.2.2 hdate⟩

/-- A machine whose clock shows the first second of 2026. -/
def newYear : DumpEnv where
  localtime _ := some ⟨4, 0, 1, 0, 0, ⟨0, by decide⟩, 2026, by decide, by decide⟩
  decodeTsc _ _ _ := none

/-- A corrected memory error of a socket, at that time. -/
def socketError (socketid : UInt32) : Mce where
  status := 0x9c00000000010092
  addr := 0x12345000
  misc := 0x8c
  time := 1767225600
  tsc := 0x5d21
  mcgcap := 0xf000c14
  apicid := 0x20
  socketid := socketid
  cpu := 3
  bank := 7
  finished := 1

theorem reparses_socket_one :
    cpuNumber (socketError 1) < 256 ∧ Reparses ⟨false, 0⟩ newYear (socketError 1) :=
  ⟨by decide, (reparse_iff _ _ _ (by decide)).mpr
    ⟨by decide, Or.inl rfl, Or.inr ⟨_, rfl, by decide⟩⟩⟩

/-- Socket 16 is printed as `10` and read as socket 10. -/
theorem socket_sixteen_misread :
    (socketError 16).bank < 128 ∧ cpuNumber (socketError 16) < 256 ∧
      ¬ Reparses ⟨false, 0⟩ newYear (socketError 16) := by
  refine ⟨by decide, by decide, ?_⟩
  rintro ⟨r, hr, hequal⟩
  have hread : (finals (decodefatal ⟨false, 0⟩ (dumpMce newYear (socketError 16) sizeofMce))).map
      (fun r => r.m.socketid) = [10] := by
    decide +kernel
  have hsocket : r.m.socketid = 16 := hequal.socketid
  rw [hr, List.map_singleton, hsocket] at hread
  exact absurd hread (by decide)

end Main

end Mcelog.Ascii
