import Mcelog.Ascii.Syntax

/-!
# Reading the lines of a record

What `decodefatal` makes of the lines of a record in the input, one by one.

* `Takes`: a line is read to its end and changes the record.
* `FieldLine.takes`: every line behind the one of the CPU is read. The symbol of `RIP`
  is stored with its closing brace.
-/

namespace Mcelog.Ascii

open Mcelog.Common Mcelog.Machine

/-! ## Reading to the end of a line -/

def AsciiRecord.values (r : AsciiRecord) : Values := { m := r.m, symbol := r.symbol }

/-- The rest `s` of a line is read to its end and changes the record so; `read` tells
    whether a field has been read. -/
def Takes (env : AsciiEnv) (s : List Char) (read : Bool) (change : Values → Values) : Prop :=
  ∀ st, ∃ r outs, r.values = change st.record.values ∧ finals outs = [] ∧
    decodeLine env st s = (⟨r, st.data || read⟩, outs)

section Takes

variable {env : AsciiEnv} {s start left : List Char} {change change' : Values → Values}
  {t : AsciiRecord → Token}

theorem takes_blanks (env : AsciiEnv) (h : ∀ c ∈ s, isSpace c = true) :
    Takes env s false id := by
  intro st
  refine ⟨st.record, _, rfl, finals_unknownText env [], ?_⟩
  rw [decodeLine_blank (skipgunk_of_blanks h), Bool.or_false]

/-- A field with more text behind it. -/
theorem Takes.token {read : Bool} (h : Takes env left read change') (hs : skipgunk s = start)
    (ht : ∀ r, Ascii.token env r start = some (t r))
    (hvalues : ∀ r, (t r).record.values = change r.values) (hn : ∀ r, 0 < (t r).n)
    (hpos : ∀ r, 0 < (t r).next) (hleft : ∀ r, (t r).s.drop (t r).next = left) :
    Takes env s true (change' ∘ change) := by
  intro st
  obtain ⟨r, outs, hr, houts, heq⟩ := h ⟨(t st.record).record, st.data || true⟩
  refine ⟨r, outs, ?_, houts, ?_⟩
  · rw [hr, hvalues]
    rfl
  · rw [decodeLine_of_token hs (ht st.record) (hpos st.record) (hleft st.record),
      decide_eq_true (hn st.record), heq, Bool.or_true, Bool.true_or]

/-- A token that ends the line. -/
theorem takes_end {read : Bool} (hs : skipgunk s = start)
    (ht : ∀ r, Ascii.token env r start = some (t r))
    (hvalues : ∀ r, (t r).record.values = change r.values)
    (hn : ∀ r, decide (0 < (t r).n) = read) (hnext : ∀ r, (t r).next = 0) :
    Takes env s read change := by
  intro st
  refine ⟨(t st.record).record, [], hvalues st.record, rfl, ?_⟩
  rw [decodeLine_last hs (ht st.record) (hnext st.record), ← hn st.record]

/-- A field that ends the line. -/
theorem takes_last (hs : skipgunk s = start) (ht : ∀ r, Ascii.token env r start = some (t r))
    (hvalues : ∀ r, (t r).record.values = change r.values) (hn : ∀ r, 0 < (t r).n)
    (hnext : ∀ r, (t r).next = 0) : Takes env s true change :=
  takes_end hs ht hvalues (fun r => decide_eq_true (hn r)) hnext

end Takes

/-! ## Fields -/

section Fields

variable {env : AsciiEnv} {left : List Char}

theorem Blanks.isSpace (b : Blanks) : ∀ c ∈ b.chars, isSpace c = true :=
  fun c hc => (b.isBlank c hc).1

theorem Blanks.clean {x : Char} (hx : Common.isSpace x = false) (b : Blanks) :
    Clean x b.chars := by
  intro c hc
  obtain ⟨hspace, hnl⟩ := b.isBlank c hc
  have hne : ∀ y, Common.isSpace y = false → c ≠ y := by
    rintro y hy rfl
    exact Bool.false_ne_true (hy.symm.trans hspace)
  exact ⟨hnl, hne _ (by decide), hne _ (by decide), hne _ hx⟩

theorem Numeral.clean {base bits : ℕ} {x : Char} (hx : isDigitOf 16 x = false)
    (hprefixed : Clean x ['0', 'x']) (hb : base ≤ 16) (n : Numeral base bits) :
    Clean x n.text := by
  refine Clean.append ?_ (clean_of_isDigitOf hb hx n.isDigit)
  cases n.hex with
  | false => exact clean_nil
  | true => exact hprefixed

theorem Numeral.noHead_isSpace {base bits : ℕ} (hb : base ≤ 16) (n : Numeral base bits)
    (left : List Char) : NoHead Common.isSpace (n.text ++ left) := by
  unfold Numeral.text
  cases n.hex with
  | false => exact noHead_isSpace_digits hb n.isDigit n.ne_nil
  | true => exact noHead_cons (by decide)

/-- An unsigned conversion reads a number. -/
theorem scan_numeral {base bits bits' total : ℕ} {fmt : List Directive} (hb : base ≤ 16)
    (n : Numeral base bits) (hbits : bits ≤ bits') (hbits' : bits' ≤ 64)
    (hleft : NumberEnds base left) :
    scan total (.num base false none bits' :: fmt) (n.text ++ left) =
      (.num n.value :: (scan total fmt left).1, (scan total fmt left).2) := by
  have hlt : ofNumeral base n.digits < 2 ^ bits' :=
    n.lt.trans_le (Nat.pow_le_pow_right (by decide) hbits)
  unfold Numeral.text Numeral.value
  cases hhex : n.hex with
  | false =>
    rw [if_neg Bool.false_ne_true, List.nil_append,
      scan_num hb n.isDigit n.ne_nil hleft (by simp), strtoValue_unsigned hlt hbits']
  | true =>
    have hbase := n.base_hex hhex
    have hdigit := n.isDigit
    rw [if_pos rfl]
    subst hbase
    rw [← strtoValue_unsigned hlt hbits']
    exact scan_num_prefix hdigit n.ne_nil hleft

/-- The field that a number extends the record to. -/
def NumName.field : NumName → Field
  | .status => .status
  | .mcgstatus => .mcgstatus
  | .tsc => .tsc
  | .addr => .addr
  | .misc => .misc
  | .time => .time
  | .mcgcap => .mcgcap
  | .apicid => .apicid
  | .socketid | .socket => .socketid
  | .ppin => .ppin

/-- The branch of a field of one number. -/
def NumName.token (name : NumName) (r : AsciiRecord) (s : List Char) : Token :=
  numField name.name name.base name.bits name.field (fun m v => name.store m v) r s

theorem NumName.base_le (name : NumName) : name.base ≤ 16 := by
  cases name <;> decide

theorem NumName.bits_le (name : NumName) : name.bits ≤ 64 := by
  cases name <;> decide

theorem NumName.startsToken (name : NumName) : startsToken name.name = true := by
  cases name <;> decide

theorem strncmp_socketid {t : List Char} (hI : t.head? ≠ some 'I') :
    strncmp ("SOCKET".toList ++ t) "SOCKETID" 8 = false := by
  have hid : ("SOCKETID".toList.take 8) = "SOCKET".toList ++ ['I', 'D'] := by decide
  rw [strncmp, hid, Bool.eq_false_iff, ne_eq, List.isPrefixOf_iff_prefix,
    List.prefix_append_right_inj]
  rintro ⟨t', rfl⟩
  exact hI rfl

theorem token_socket (env : AsciiEnv) (r : AsciiRecord) {t : List Char}
    (hI : t.head? ≠ some 'I') :
    Ascii.token env r ("SOCKET".toList ++ t) = some (socketToken r ("SOCKET".toList ++ t)) := by
  obtain ⟨b, hb, hsplit⟩ : ∃ b : Branch, b.applies ("SOCKET".toList ++ t) =
      strncmp ("SOCKET".toList ++ t) "SOCKETID" 8 ∧
      branches env = (branches env).take 11 ++ b :: (branches env).drop 12 := ⟨_, rfl, rfl⟩
  rw [token_eq_behind hsplit rfl (hb.trans (strncmp_socketid hI))]
  rfl

/-- The time has its own branch, and the one of `PPIN` comes after the search for the
    disclaimer. -/
theorem token_number (env : AsciiEnv) (name : NumName) (r : AsciiRecord) {t : List Char}
    (hH : 'H' ∉ name.name.toList ++ t) (hI : t.head? ≠ some 'I') :
    Ascii.token env r (name.name.toList ++ t) =
      some (if name = .time then timeToken r (name.name.toList ++ t)
        else name.token r (name.name.toList ++ t)) := by
  cases name with
  | ppin =>
    rw [token_eq_late rfl hH]
    rfl
  | socket => exact token_socket env r hI
  | _ => rfl

theorem Item.clean (item : Item) : Clean 'g' item.text := by
  cases item with
  | number name blanks n =>
    have hname : Clean 'g' name.name.toList := by cases name <;> decide
    exact hname.append ((blanks.clean (by decide)).append
      (n.clean (by decide) (by decide) name.base_le))
  | processor blanks vendor cpuid =>
    exact Clean.append (by decide) ((blanks.clean (by decide)).append
      ((vendor.clean (by decide) (by decide) (by decide)).append
        (Clean.append (l := [':']) (by decide) (cpuid.clean (by decide) (by decide) le_rfl))))

theorem moreText_clean (more : List (Gap × Item)) (tail : Blanks) :
    CleanLine 'g' (moreText more tail) := by
  induction more with
  | nil => exact .append (tail.clean (by decide)) cleanLine_newline
  | cons p more ih => exact .append (p.1.clean (by decide)) (.append p.2.clean ih)

/-- More text starts with a blank. -/
theorem isSpace_head_moreText (more : List (Gap × Item)) (tail : Blanks) :
    ∀ c ∈ (moreText more tail).head?, isSpace c = true := by
  intro c hc
  cases more with
  | nil =>
    rw [moreText] at hc
    exact isSpace_append_newline tail.isSpace c (List.mem_of_mem_head? hc)
  | cons p more =>
    obtain ⟨x, xs, hcons⟩ := List.exists_cons_of_ne_nil p.1.ne_nil
    rw [moreText, hcons, List.cons_append, List.head?_cons, Option.mem_some_iff] at hc
    exact hc ▸ p.1.isSpace x (hcons ▸ List.mem_cons_self)

/-- A word with no small letter in it is no day of the week. -/
theorem skipDate_of_word {blanks t : List Char} {a b : Char}
    (hblanks : ∀ c ∈ blanks, isSpace c = true) (ha : isSpace a = false) (hb : isSpace b = false)
    (hlower : b.isLower = false) : skipDate (blanks ++ a :: b :: t) = 0 := by
  have hdrop : (blanks ++ a :: b :: t).dropWhile isSpace = a :: b :: t := by
    rw [List.dropWhile_append_of_pos hblanks, dropWhile_of_noHead (noHead_cons ha)]
  obtain ⟨w, args, e, hscan⟩ : ∃ w args e,
      scan (blanks ++ a :: b :: t).length dateFormat (blanks ++ a :: b :: t) =
        (.str (a :: b :: w) :: args, e) := by
    rw [show dateFormat = .str (some 10) :: dateFormat.tail from rfl, scan, hdrop]
    dsimp only
    rw [if_neg (List.cons_ne_nil _ _), cut, List.take_succ_cons, List.take_succ_cons,
      List.takeWhile_cons, if_pos (by rw [ha]; rfl), List.takeWhile_cons, if_pos (by rw [hb]; rfl)]
    exact ⟨_, _, _, rfl⟩
  refine skipDate_eq_zero _ hscan ?_
  obtain _ | ⟨c, _ | ⟨d, w⟩⟩ := w
  · rfl
  · rw [isShort, hlower, Bool.and_false, Bool.false_and]
  · rfl

theorem skipDate_of_blanks {blanks : List Char} (hblanks : ∀ c ∈ blanks, isSpace c = true) :
    skipDate blanks = 0 := by
  have hscan : scan blanks.length dateFormat blanks = ([], some .input) := by
    rw [show dateFormat = .str (some 10) :: dateFormat.tail from rfl, scan,
      List.dropWhile_eq_nil_iff.mpr hblanks]
    rfl
  unfold skipDate sscanf
  rw [hscan]

/-- Fields start with two capital letters. -/
theorem Item.text_eq (item : Item) : ∃ a b t, item.text = a :: b :: t ∧ isSpace a = false ∧
    isSpace b = false ∧ b.isLower = false := by
  cases item with
  | number name blanks n =>
    cases name <;> exact ⟨_, _, _, rfl, by decide, by decide, by decide⟩
  | processor blanks vendor cpuid => exact ⟨_, _, _, rfl, by decide, by decide, by decide⟩

/-- Fields are no date. -/
theorem skipDate_moreText (more : List (Gap × Item)) (tail : Blanks) :
    skipDate (moreText more tail) = 0 := by
  cases more with
  | nil => exact skipDate_of_blanks (isSpace_append_newline tail.isSpace)
  | cons p more =>
    obtain ⟨a, b, t, htext, ha, hb, hlower⟩ := p.2.text_eq
    rw [moreText, htext]
    exact skipDate_of_word p.1.isSpace ha hb hlower

theorem Numeral.head?_ne {base bits : ℕ} (hb : base ≤ 16) (n : Numeral base bits) (b : Blanks)
    (left : List Char) : (b.chars ++ (n.text ++ left)).head? ≠ some 'I' := by
  intro hhead
  cases hchars : b.chars with
  | cons c cs =>
    rw [hchars, List.cons_append, List.head?_cons, Option.some.injEq] at hhead
    have hspace := b.isSpace c (hchars ▸ List.mem_cons_self)
    rw [hhead] at hspace
    exact absurd hspace (by decide)
  | nil =>
    rw [hchars, List.nil_append, Numeral.text] at hhead
    cases hhex : n.hex with
    | true =>
      rw [hhex] at hhead
      exact absurd (Option.some.inj hhead) (by decide)
    | false =>
      obtain ⟨d, ds, hds⟩ := List.exists_cons_of_ne_nil n.ne_nil
      rw [hhex, hds] at hhead
      have hd : d = 'I' := Option.some.inj hhead
      have hdigit := of_decide_eq_true (n.isDigit d (hds ▸ List.mem_cons_self))
      rw [hd, show digitValue 'I' = 16 from rfl] at hdigit
      omega

theorem timeDate_clean (lead blanks : Blanks) (n : Numeral 10 64) (date : Tm) :
    CleanLine 'm' (lead.chars ++ ("TIME".toList ++ (blanks.chars ++ (n.text ++
      (' ' :: asctime date))))) :=
  .append (lead.clean (by decide)) (.append (by decide) (.append (blanks.clean (by decide))
    (.append (n.clean (by decide) (by decide) (by decide)) (.append (l := [' ']) (by decide)
      (asctime_clean date)))))

section Item

variable {lead : List Char} {read : Bool} {change : Values → Values}

/-- A field of one number. Behind the time, a date is skipped. -/
theorem number_takes {x : Char} (hx : x ∈ "mcelog: ".toList) (name : NumName) (blanks : Blanks)
    (n : Numeral name.base name.bits) (hlead : ∀ c ∈ lead, isSpace c = true)
    (hclean : CleanLine x (lead ++ (name.name.toList ++ (blanks.chars ++ (n.text ++ left)))))
    (hleft : ∀ c ∈ left.head?, isSpace c = true)
    (h : Takes env (left.drop (if name = .time then skipDate left else 0)) read change) :
    Takes env (lead ++ (name.name.toList ++ (blanks.chars ++ (n.text ++ left)))) true
      (change ∘ fun v => { v with m := name.store v.m n.value }) := by
  set text := name.name.toList ++ (blanks.chars ++ (n.text ++ left)) with htext
  have hgunk : skipgunk (lead ++ text) = text :=
    skipgunk_name name.startsToken hlead (hclean.tagFree hx)
  have hH : 'H' ∉ text := fun hmem => hclean.notMem_H (List.mem_append_right _ hmem)
  have hscan : ∀ total, scan total [.num name.base false none name.bits, .pos] (n.text ++ left) =
      ([.num n.value, .pos (total - left.length)], none) := by
    intro total
    rw [scan_numeral name.base_le n le_rfl name.bits_le (numberEnds_of_space name.base_le hleft)]
    rfl
  have hsuffix : left <:+ text :=
    (List.suffix_append _ _).trans ((List.suffix_append _ _).trans (List.suffix_append _ _))
  have hread : ∀ r, name.token r text = _ := fun r =>
    numField_scan name.startsToken blanks.isSpace (n.noHead_isSpace name.base_le left) hscan r
  have hcall : ∀ r, Ascii.token env r text = some { name.token r text with
      next := text.length - left.length + if name = .time then skipDate left else 0 } := by
    intro r
    rw [htext, token_number env name r hH (n.head?_ne name.base_le blanks left), ← htext]
    split_ifs with htime
    · subst htime
      have hsame : timeToken r text = { NumName.time.token r text with
          next := (NumName.time.token r text).next +
            skipDate (text.drop (NumName.time.token r text).next) } := rfl
      rw [hsame, hread r]
      dsimp only
      rw [← htext, drop_length_sub hsuffix]
    · rw [hread r]
      rfl
  refine h.token hgunk hcall ?_ ?_ ?_ ?_ <;> intro r
  · rw [hread r]
    rfl
  · rw [hread r]
    exact Int.one_pos
  · have hpos : 0 < name.name.toList.length := by cases name <;> decide
    have hlen : left.length < text.length := by
      simp only [htext, List.length_append]
      omega
    exact Nat.add_pos_left (Nat.sub_pos_of_lt hlen) _
  · rw [hread r]
    dsimp only
    rw [← List.drop_drop, ← htext, drop_length_sub hsuffix]

theorem processor_takes (blanks : Blanks) (vendor : Numeral 10 8) (cpuid : Numeral 16 32)
    (hlead : ∀ c ∈ lead, isSpace c = true)
    (hclean : CleanLine 'g' (lead ++ ("PROCESSOR".toList ++ (blanks.chars ++ (vendor.text ++
      (":".toList ++ (cpuid.text ++ left)))))))
    (hleft : ∀ c ∈ left.head?, isSpace c = true) (h : Takes env left read change) :
    Takes env (lead ++ ("PROCESSOR".toList ++ (blanks.chars ++ (vendor.text ++
      (":".toList ++ (cpuid.text ++ left)))))) true
      (change ∘ fun v => { v with
        m := { v.m with cpuvendor := .ofNat vendor.value, cpuid := .ofNat cpuid.value } }) := by
  set text := "PROCESSOR".toList ++ (blanks.chars ++ (vendor.text ++ (":".toList ++
    (cpuid.text ++ left)))) with htext
  have hgunk : skipgunk (lead ++ text) = text :=
    skipgunk_name (by decide : startsToken "PROCESSOR" = true) hlead (hclean.tagFree (by decide))
  have hscan : ∀ total, scan total (literal "PROCESSOR " ++ [conversionU] ++ literal ":" ++
      [conversionX, .pos]) text =
      ([.num vendor.value, .num cpuid.value, .pos (total - left.length)], none) := by
    intro total
    rw [show literal "PROCESSOR " ++ [conversionU] ++ literal ":" ++ [conversionX, .pos] =
        literal "PROCESSOR" ++ (.space :: conversionU :: (literal ":" ++ [conversionX, .pos]))
      from rfl, htext, scan_literal "PROCESSOR" (by decide) (fun h => absurd h (by decide)),
      scan_blanks blanks.isSpace (vendor.noHead_isSpace (by decide) _), conversionU,
      scan_numeral (by decide) vendor (by decide) (by decide) (numberEnds_text ":" (by decide)),
      scan_literal ":" (by decide) (fun h => absurd h (by decide)), conversionX,
      scan_numeral le_rfl cpuid le_rfl (by decide) (numberEnds_of_space le_rfl hleft)]
    rfl
  have hsuffix : left <:+ text :=
    (List.suffix_append _ _).trans <| (List.suffix_append _ _).trans <|
      (List.suffix_append _ _).trans <| (List.suffix_append _ _).trans (List.suffix_append _ _)
  have hread : ∀ r : AsciiRecord, ∃ r' : AsciiRecord,
      processorToken r text = ⟨r', 2, text, text.length - left.length⟩ ∧ r'.values = { r.values with
        m := { r.m with cpuvendor := .ofNat vendor.value, cpuid := .ofNat cpuid.value } } := by
    intro r
    unfold processorToken sscanf
    dsimp only
    rw [hscan]
    exact ⟨_, rfl, rfl⟩
  have hcall : ∀ r, Ascii.token env r text = some (processorToken r text) := fun r => rfl
  refine h.token hgunk hcall ?_ ?_ ?_ ?_ <;> intro r <;> obtain ⟨r', htoken, hvalues⟩ := hread r <;>
    rw [htoken]
  · exact hvalues
  · exact (by decide : (0 : ℤ) < 2)
  · have hpos : 0 < "PROCESSOR".toList.length := by decide
    simp only [htext, List.length_append]
    omega
  · exact drop_length_sub hsuffix

/-- A field of a line. -/
theorem Item.takes (item : Item) (more : List (Gap × Item)) (tail : Blanks)
    (hlead : ∀ c ∈ lead, isSpace c = true) (hlead' : Clean 'g' lead)
    (h : Takes env (moreText more tail) read change) :
    Takes env (lead ++ (item.text ++ moreText more tail)) true
      (change ∘ fun v => { v with m := item.give v.m }) := by
  have hclean : CleanLine 'g' (lead ++ (item.text ++ moreText more tail)) :=
    .append hlead' (.append item.clean (moreText_clean more tail))
  have hleft := isSpace_head_moreText more tail
  cases item with
  | number name blanks n =>
    have htext : (Item.number name blanks n).text ++ moreText more tail =
        name.name.toList ++ (blanks.chars ++ (n.text ++ moreText more tail)) := by
      show (name.name.toList ++ (blanks.chars ++ n.text)) ++ _ = _
      rw [List.append_assoc, List.append_assoc]
    rw [htext] at hclean ⊢
    have hdrop : (moreText more tail).drop
        (if name = .time then skipDate (moreText more tail) else 0) = moreText more tail := by
      rw [skipDate_moreText, ite_self, List.drop_zero]
    exact number_takes (by decide) name blanks n hlead hclean hleft (hdrop.symm ▸ h)
  | processor blanks vendor cpuid =>
    have htext : (Item.processor blanks vendor cpuid).text ++ moreText more tail =
        "PROCESSOR".toList ++ (blanks.chars ++ (vendor.text ++ (":".toList ++ (cpuid.text ++
          moreText more tail)))) := by
      show ("PROCESSOR".toList ++ (blanks.chars ++ (vendor.text ++ (":".toList ++ cpuid.text)))) ++
        _ = _
      rw [List.append_assoc, List.append_assoc, List.append_assoc, List.append_assoc]
    rw [htext] at hclean ⊢
    exact processor_takes blanks vendor cpuid hlead hclean hleft h

/-- The fields of the rest of a line. -/
theorem moreText_takes (env : AsciiEnv) (more : List (Gap × Item)) (tail : Blanks) :
    Takes env (moreText more tail) (!more.isEmpty)
      (fun v => { v with m := giveAll v.m more }) := by
  induction more with
  | nil => exact takes_blanks env (isSpace_append_newline tail.isSpace)
  | cons p more ih => exact p.2.takes more tail p.1.isSpace (p.1.clean (by decide)) ih

/-- The time with a date that is skipped. -/
theorem time_takes (env : AsciiEnv) (lead blanks : Blanks) (n : Numeral 10 64) {date : Tm}
    (hskip : date.Skippable) :
    Takes env (lead.chars ++ ("TIME".toList ++ (blanks.chars ++ (n.text ++ (' ' :: asctime date)))))
      true (fun v => { v with m := NumName.time.store v.m n.value }) := by
  have hend : Takes env ((' ' :: asctime date).drop
      (if NumName.time = .time then skipDate (' ' :: asctime date) else 0)) false id := by
    rw [if_pos rfl, drop_skipDate_asctime hskip]
    exact takes_blanks env (by decide)
  exact number_takes (by decide) .time blanks n lead.isSpace
    (timeDate_clean lead blanks n date) (by simp [isSpace]) hend

end Item

end Fields

/-! ## The line of the instruction pointer -/

section Rip

/-- Every `:` has something else than a blank behind it. -/
def NoTagEnd (s : List Char) : Prop := s.IsChain fun a b => a = ':' → b ≠ ' '

theorem NoTagEnd.skipSyslog {s : List Char} (h : NoTagEnd s) : skipSyslog s = s := by
  have hnone : strstr s "mcelog: " = none := by
    rw [strstr, List.find?_eq_none]
    intro t ht hpre
    have hchain : NoTagEnd t := h.suffix ((List.mem_tails t s).mp ht)
    obtain ⟨left, rfl⟩ := List.isPrefixOf_iff_prefix.mp hpre
    have htag : NoTagEnd "mcelog: ".toList := hchain.left_of_append
    have hend := htag.suffix (show ": ".toList <:+ "mcelog: ".toList by decide)
    exact (List.isChain_cons_cons.mp hend).1 rfl rfl
  rw [Ascii.skipSyslog, hnone]

theorem noTagEnd_of_no_colon {s : List Char} (h : ':' ∉ s) : NoTagEnd s := by
  induction s with
  | nil => exact .nil
  | cons a s ih =>
    rw [List.mem_cons, not_or] at h
    cases s with
    | nil => exact .singleton a
    | cons b s => exact List.isChain_cons_cons.mpr ⟨fun ha => absurd ha.symm h.1, ih h.2⟩

theorem noTagEnd_of_no_blank {s : List Char} (h : ' ' ∉ s) : NoTagEnd s := by
  induction s with
  | nil => exact .nil
  | cons a s ih =>
    rw [List.mem_cons, not_or] at h
    cases s with
    | nil => exact .singleton a
    | cons b s =>
      refine List.isChain_cons_cons.mpr ⟨fun _ hb => h.2 (hb ▸ List.mem_cons_self), ih h.2⟩

theorem NoTagEnd.append {s t : List Char} {c : Char} (hs : NoTagEnd (s ++ [c])) (hc : c ≠ ':')
    (ht : NoTagEnd t) : NoTagEnd (s ++ [c] ++ t) := by
  refine List.IsChain.append hs ht fun x hx y _ heq => ?_
  rw [List.getLast?_concat, Option.mem_some_iff] at hx
  exact absurd (hx.trans heq) hc

/-- What follows `RIP`. -/
def ripText (cs : UInt8) (ip : UInt64) (rest : List Char) : List Char :=
  (Nat.toDigits 16 cs.toNat).leftpad 2 '0' ++ (":<".toList ++
    ((Nat.toDigits 16 ip.toNat).leftpad 16 '0' ++ ('>' :: rest)))

/-- `RIP`, exact or not. -/
def ripName (inexact : Bool) : List Char :=
  "RIP".toList ++ (if inexact then " !INEXACT!".toList else [])

variable {rest : List Char}

theorem isDigitOf_cs (cs : UInt8) :
    ∀ c ∈ (Nat.toDigits 16 cs.toNat).leftpad 2 '0', isDigitOf 16 c = true :=
  isDigitOf_of_mem_leftpad (by decide) (isDigitOf_hex _)

theorem length_cs (cs : UInt8) : ((Nat.toDigits 16 cs.toNat).leftpad 2 '0').length = 2 := by
  have hlen : (Nat.toDigits 16 cs.toNat).length ≤ 2 :=
    (Nat.length_toDigits_le_iff (by decide) (by decide)).mpr cs.toNat_lt
  rw [List.length_leftpad]
  exact max_eq_left hlen

theorem length_ip (ip : UInt64) : ((Nat.toDigits 16 ip.toNat).leftpad 16 '0').length = 16 := by
  rw [List.length_leftpad]
  exact max_eq_left (length_toDigits_le_sixteen ip)

theorem noTagEnd_symbol (symbol : Option Symbol) (tail : Blanks) :
    NoTagEnd (symbolText symbol ++ (tail.chars ++ ['\n'])) := by
  have htail : NoTagEnd (tail.chars ++ ['\n']) := by
    refine noTagEnd_of_no_colon fun hmem => ?_
    exact absurd (isSpace_append_newline tail.isSpace ':' hmem) (by decide)
  cases symbol with
  | none => exact htail
  | some w =>
    have hword : NoTagEnd (w.chars ++ ['\x7d'] ++ (tail.chars ++ ['\n'])) := by
      refine NoTagEnd.append (noTagEnd_of_no_blank fun hmem => ?_) (by decide) htail
      rcases List.mem_append.mp hmem with hmem | hmem
      · exact absurd (w.isWord ' ' hmem).1 (by decide)
      · exact absurd hmem (by decide)
    have hopen := NoTagEnd.append (s := [' ']) (c := '\x7b') (noTagEnd_of_no_colon (by decide))
      (by decide) hword
    exact hopen

theorem skipgunk_rip (inexact : Bool) (cs : UInt8) (ip : UInt64) (hrest : NoTagEnd rest) :
    skipgunk (ripName inexact ++ ' ' :: ripText cs ip rest) =
      ripName inexact ++ ' ' :: ripText cs ip rest := by
  have hnumber : NoTagEnd ((Nat.toDigits 16 cs.toNat).leftpad 2 '0' ++ (":<".toList ++
      (Nat.toDigits 16 ip.toNat).leftpad 16 '0') ++ ['>'] ++ rest) := by
    refine NoTagEnd.append (noTagEnd_of_no_blank ?_) (by decide) hrest
    have hip := isDigitOf_status ip
    have hblank : ∀ ds : List Char, (∀ c ∈ ds, isDigitOf 16 c = true) → ' ' ∉ ds :=
      fun ds hds => notMem_of_isDigitOf hds (by decide)
    simp only [List.mem_append, not_or]
    exact ⟨⟨hblank _ (isDigitOf_cs cs), by decide, hblank _ hip⟩, by decide⟩
  have hname : NoTagEnd (ripName inexact ++ [' ']) := by
    refine noTagEnd_of_no_colon ?_
    cases inexact <;> decide
  have hall := hname.append (by decide) hnumber
  have htext : ripName inexact ++ ' ' :: ripText cs ip rest = ripName inexact ++ [' '] ++
      ((Nat.toDigits 16 cs.toNat).leftpad 2 '0' ++ (":<".toList ++
        (Nat.toDigits 16 ip.toNat).leftpad 16 '0') ++ ['>'] ++ rest) := by
    simp [ripText]
  rw [← htext] at hall
  have hskip : Ascii.skipSyslog ([] ++ 'R' :: _) = [] ++ 'R' :: _ := hall.skipSyslog
  exact skipgunk_of_skipSyslog hskip (by simp) (by decide)

/-- `"%02x:<%016Lx> {%99s}%n"` -/
def ripFormat : List Directive :=
  [.num 16 false (some 2) 32] ++ literal ":<" ++ [.num 16 false (some 16) 64] ++
    literal "> \x7b" ++ [.str (some 99)] ++ literal "\x7d" ++ [.pos]

/-- The two numbers. -/
theorem scan_ripText (total : ℕ) (cs : UInt8) (ip : UInt64) (rest : List Char) :
    scan total ripFormat (' ' :: ripText cs ip rest) =
    let after := scan total (.space :: .lit '\x7b' :: .str (some 99) :: .lit '\x7d' :: [.pos]) rest
    (.num cs.toNat :: .num ip.toNat :: after.1, after.2) := by
  have hcs := isDigitOf_cs cs
  have hip := isDigitOf_status ip
  have hcsLen := length_cs cs
  have hipLen := length_ip ip
  have hcsValue : ofNumeral 16 ((Nat.toDigits 16 cs.toNat).leftpad 2 '0') = cs.toNat := by
    rw [ofNumeral_leftpad, ofNumeral_hex]
  have hipValue : ofNumeral 16 ((Nat.toDigits 16 ip.toNat).leftpad 16 '0') = ip.toNat := by
    rw [ofNumeral_leftpad, ofNumeral_hex]
  have hne : ∀ {ds : List Char} {n : ℕ}, ds.length = n + 1 → ds ≠ [] :=
    fun h hnil => by simp [hnil] at h
  have hformat : ripFormat = .num 16 false (some 2) 32 :: (literal ":<" ++
      (.num 16 false (some 16) 64 :: .lit '>' :: .space :: .lit '\x7b' :: .str (some 99) ::
        .lit '\x7d' :: [.pos])) := rfl
  have hcsLt : cs.toNat < 2 ^ 32 := cs.toNat_lt.trans (by decide)
  rw [hformat, scan_num_space (by decide), ripText,
    scan_num (by decide) hcs (hne hcsLen) (numberEnds_text ":<" (by decide))
      (by simpa using hcsLen.le),
    hcsValue, strtoValue_unsigned hcsLt (by decide),
    scan_literal ":<" (by decide) (fun h => absurd h (by decide)),
    scan_num (by decide) hip (hne hipLen) (numberEnds_cons (by decide))
      (by simpa using hipLen.le),
    hipValue, strtoValue_unsigned ip.toNat_lt le_rfl, scan_lit]

/-- What `%99s` stores: the closing brace goes with the symbol. -/
def Symbol.stored (w : Symbol) : List Char := (w.chars ++ ['\x7d']).take 99

theorem Symbol.isSpace (w : Symbol) : ∀ c ∈ w.chars ++ ['\x7d'], isSpace c = false := by
  intro c hc
  rcases List.mem_append.mp hc with hc | hc
  · exact (w.isWord c hc).1
  · rw [List.mem_singleton.mp hc]
    decide

/-- The symbol. Only one that fills the buffer leaves its brace, and then `next` is
    behind the brace. -/
theorem scan_symbol (total : ℕ) (w : Symbol) (tail : Blanks) :
    let after := scan total (.space :: .lit '\x7b' :: .str (some 99) :: .lit '\x7d' :: [.pos])
      (symbolText (some w) ++ (tail.chars ++ ['\n']))
    after = ([.str w.stored], some .matching) ∨
      after = ([.str w.stored, .pos (total - (tail.chars ++ ['\n']).length)], none) := by
  set ws := tail.chars ++ ['\n'] with hws
  have hspace : ∀ c ∈ ws, isSpace c = true := isSpace_append_newline tail.isSpace
  have hstart : scan total (.space :: .lit '\x7b' :: .str (some 99) :: .lit '\x7d' :: [.pos])
      (symbolText (some w) ++ ws) =
        scan total (.str (some 99) :: .lit '\x7d' :: [.pos]) (w.chars ++ ['\x7d'] ++ ws) := by
    rw [symbolText, List.cons_append, List.cons_append, scan_space (noHead_cons (by decide)),
      scan_lit]
  have hmismatch : ∀ c t, c ≠ '\x7d' → scan total [.lit '\x7d', .pos] (c :: t) =
      ([], some .matching) := by
    intro c t hc
    rw [scan, if_neg hc]
  intro after
  by_cases hlen : (w.chars ++ ['\x7d']).length ≤ 99
  · left
    obtain ⟨c, t, hcons⟩ := List.exists_cons_of_ne_nil (show ws ≠ [] by simp [hws])
    have hc : c ≠ '\x7d' := by
      rintro rfl
      exact absurd (hspace _ (hcons ▸ List.mem_cons_self)) (by decide)
    have hhead : ∀ c ∈ ws.head?, isSpace c = true := fun c hc => hspace c (List.mem_of_mem_head? hc)
    show scan total _ _ = _
    rw [hstart, scan_str w.isSpace (by simp) hhead (by simpa using hlen), hcons,
      hmismatch c t hc, Symbol.stored, List.take_of_length_le hlen]
  · have hgt : 99 < (w.chars ++ ['\x7d']).length := not_le.mp hlen
    have hcut : after = (.str w.stored :: (scan total [.lit '\x7d', .pos]
        ((w.chars ++ ['\x7d']).drop 99 ++ ws)).1, (scan total [.lit '\x7d', .pos]
          ((w.chars ++ ['\x7d']).drop 99 ++ ws)).2) := by
      show scan total _ _ = _
      rw [hstart, scan_str_cut w.isSpace hgt]
      rfl
    rw [List.length_append, List.length_singleton] at hgt
    rw [List.drop_append_of_le_length (by omega)] at hcut
    cases hdrop : w.chars.drop 99 with
    | nil =>
      right
      rw [hcut, hdrop, List.nil_append, List.singleton_append, scan_lit]
      rfl
    | cons c t =>
      left
      have hc := (w.isWord c (List.mem_of_mem_drop (hdrop ▸ List.mem_cons_self))).2.2
      rw [hcut, hdrop, List.cons_append, List.cons_append, hmismatch c _ hc]

/-- The start of the numbers. -/
theorem drop_ripName (inexact : Bool) (cs : UInt8) (ip : UInt64) (rest : List Char) :
    (if strncmp (ripName inexact ++ ' ' :: ripText cs ip rest) "RIP !INEXACT!" 13 then
      (ripName inexact ++ ' ' :: ripText cs ip rest).drop 13
    else (ripName inexact ++ ' ' :: ripText cs ip rest).drop 3) = ' ' :: ripText cs ip rest := by
  cases inexact with
  | true => rfl
  | false =>
    have hno : strncmp ("RIP ".toList ++ ripText cs ip rest) "RIP !INEXACT!" 13 = false := by
      have hsplit : "RIP !INEXACT!".toList.take 13 = "RIP ".toList ++ "!INEXACT!".toList := by
        decide
      rw [strncmp, hsplit, Bool.eq_false_iff, ne_eq, List.isPrefixOf_iff_prefix,
        List.prefix_append_right_inj]
      rintro ⟨t, ht⟩
      obtain ⟨d, ds, hds⟩ := List.exists_cons_of_length_eq_add_one (length_cs cs)
      rw [ripText, hds] at ht
      have hd : '!' = d := (List.cons.inj ht).1
      have hdigit := isDigitOf_cs cs d (hds ▸ List.mem_cons_self)
      rw [← hd] at hdigit
      exact absurd hdigit (by decide)
    have htext : ripName false ++ ' ' :: ripText cs ip rest =
        "RIP ".toList ++ ripText cs ip rest := rfl
    rw [htext, hno]
    rfl

/-- What the line does to the record. -/
def ripChange (cs : UInt8) (ip : UInt64) (symbol : Option Symbol) (v : Values) : Values :=
  { m := { v.m with cs := cs, ip := ip }, symbol := (symbol.map Symbol.stored).getD v.symbol }

theorem ripToken_spec (inexact : Bool) (cs : UInt8) (ip : UInt64) (symbol : Option Symbol)
    (tail : Blanks) (r : AsciiRecord) :
    let ws := tail.chars ++ ['\n']
    let t := ripToken r (ripName inexact ++ ' ' :: ripText cs ip (symbolText symbol ++ ws))
    t.record.values = ripChange cs ip symbol r.values ∧ 0 < t.n ∧
      (t.next = 0 ∨ 0 < t.next ∧ t.s.drop t.next = ws) := by
  intro ws t
  set text := ' ' :: ripText cs ip (symbolText symbol ++ ws) with htext
  have ht : t = let scanned := sscanf ripFormat text
      let r := r.assign (scanned.num? 1) fun m v => { m with ip := .ofNat v }
      let r := { r with
        symbol := (scanned.str? 2).getD r.symbol
        m := { r.m with cs := .ofNat ((scanned.num? 0).getD 0) } }
      { record := if scanned.ret < 2 then r.miss else r.field Field.ip.endof
        n := scanned.ret, s := text, next := (scanned.pos? 3).getD 0 } := by
    show ripToken r _ = _
    unfold ripToken
    rw [drop_ripName]
    rfl
  have hscan := scan_ripText text.length cs ip (symbolText symbol ++ ws)
  rw [← htext] at hscan
  have hsuffix : ws <:+ text := by
    rw [htext, ripText]
    exact (List.suffix_append _ _).trans <| (List.suffix_cons _ _).trans <|
      (List.suffix_append _ _).trans <| (List.suffix_append _ _).trans <|
      (List.suffix_append _ _).trans (List.suffix_cons _ _)
  have hlen : 0 < text.length - ws.length := by
    simp only [htext, ripText, List.length_cons, List.length_append]
    omega
  have hchange : ripChange cs ip symbol r.values =
      { m := { r.m with cs := .ofNat cs.toNat, ip := .ofNat ip.toNat }
        symbol := (symbol.map Symbol.stored).getD r.symbol } := by
    rw [UInt8.ofNat_toNat, UInt64.ofNat_toNat]
    rfl
  rw [hchange]
  unfold sscanf at ht
  cases symbol with
  | none =>
    have hafter : scan text.length (.space :: .lit '\x7b' :: .str (some 99) :: .lit '\x7d' ::
        [.pos]) (symbolText none ++ ws) = ([], some .input) := by
      have hspace : ∀ c ∈ ws, isSpace c = true := isSpace_append_newline tail.isSpace
      rw [symbolText, List.nil_append, scan, List.dropWhile_eq_nil_iff.mpr hspace]
      rfl
    rw [hscan, hafter] at ht
    rw [ht]
    exact ⟨rfl, (by decide : (0 : ℤ) < 2), .inl rfl⟩
  | some w =>
    obtain hafter | hafter := scan_symbol text.length w tail
    · rw [hscan, hafter] at ht
      rw [ht]
      exact ⟨rfl, (by decide : (0 : ℤ) < 3), .inl rfl⟩
    · rw [hscan, hafter] at ht
      rw [ht]
      exact ⟨rfl, (by decide : (0 : ℤ) < 3), .inr ⟨hlen, drop_length_sub hsuffix⟩⟩

theorem rip_takes (env : AsciiEnv) (inexact : Bool) (cs : UInt8) (ip : UInt64)
    (symbol : Option Symbol) (tail : Blanks) :
    Takes env (ripName inexact ++ ' ' :: ripText cs ip (symbolText symbol ++
      (tail.chars ++ ['\n']))) true (ripChange cs ip symbol) := by
  intro st
  obtain ⟨hvalues, hn, hnext⟩ := ripToken_spec inexact cs ip symbol tail st.record
  have hgunk := skipgunk_rip inexact cs ip (noTagEnd_symbol symbol tail)
  have hcall : ∀ t, token env st.record (ripName inexact ++ t) =
      some (ripToken st.record (ripName inexact ++ t)) := fun t => rfl
  rcases hnext with hnext | ⟨hpos, hleft⟩
  · refine ⟨_, [], hvalues, rfl, ?_⟩
    rw [decodeLine_last hgunk (hcall _) hnext, decide_eq_true hn]
  · refine ⟨_, _, hvalues, finals_unknownText env [], ?_⟩
    rw [decodeLine_of_token hgunk (hcall _) hpos hleft, decide_eq_true hn,
      decodeLine_blank (skipgunk_of_blanks (isSpace_append_newline tail.isSpace))]

end Rip

/-! ## The line of the CPUID -/

section Cpuid

theorem vendorName_word (vendor : Fin 8) :
    (∀ c ∈ (vendorName vendor).toList, isSpace c = false) ∧ (vendorName vendor).toList ≠ [] ∧
      (vendorName vendor).toList.length ≤ 30 ∧ Clean 'g' (vendorName vendor).toList := by
  revert vendor
  decide

theorem cpuvendorToNum_vendorName (vendor : Fin 8) : cpuvendorToNum (vendorName vendor).toList =
    (vendors.map String.toList).idxOf (vendorName vendor).toList := by
  revert vendor
  decide

/-- The line of the CPUID with the text `left` behind the model. -/
def cpuidText (vendor : Fin 8) (family model : ℕ) (left : List Char) : List Char :=
  "CPUID Vendor ".toList ++ ((vendorName vendor).toList ++ (" Family ".toList ++
    (Nat.toDigits 10 family ++ (" Model ".toList ++ (Nat.toDigits 10 model ++ left)))))

theorem cpuidText_clean (vendor : Fin 8) (family model : ℕ) {left : List Char}
    (hleft : CleanLine 'g' left) : CleanLine 'g' (cpuidText vendor family model left) := by
  have hdec : ∀ n, Clean 'g' (Nat.toDigits 10 n) := clean_dec (by decide)
  exact .append (by decide) (.append (vendorName_word vendor).2.2.2 (.append (by decide)
    (.append (hdec _) (.append (by decide) (.append (hdec _) hleft)))))

theorem scan_cpuidText (vendor : Fin 8) (family model : UInt32) {left : List Char}
    (hleft : ∀ c ∈ left.head?, isSpace c = true) (total : ℕ) :
    scan total (literal "CPUID Vendor " ++ [.str (some 30)] ++ literal " Family " ++
      [conversionU] ++ literal " Model " ++ [conversionU] ++ literal "\n")
      (cpuidText vendor family.toNat model.toNat left) =
      ([.str (vendorName vendor).toList, .num family.toNat, .num model.toNat], none) := by
  obtain ⟨hword, hne, hlen, -⟩ := vendorName_word vendor
  have hvendor : ∀ t, NoHead isSpace ((vendorName vendor).toList ++ t) := by
    intro t
    obtain ⟨c, cs, hcons⟩ := List.exists_cons_of_ne_nil hne
    rw [hcons]
    exact noHead_cons (hword c (hcons ▸ List.mem_cons_self))
  have hform : cpuidText vendor family.toNat model.toNat left = "CPUID Vendor ".toList ++
      ((vendorName vendor).toList ++ (" Family ".toList ++ (Nat.toDigits 10 family.toNat ++
        (" Model ".toList ++ (Nat.toDigits 10 model.toNat ++ left))))) := rfl
  simp only [List.append_assoc, List.cons_append, List.nil_append]
  rw [hform, scan_literal "CPUID Vendor " (by decide) (fun _ => hvendor _),
    scan_str hword hne (by simp [isSpace]) (by simpa using hlen),
    scan_literal " Family " (by decide) (fun _ => noHead_isSpace_toDigits _ _), conversionU,
    scan_printed (by decide) (by decide) (numberEnds_text " Model " (by decide))
      family.toNat_lt (by decide),
    scan_literal " Model " (by decide) (fun _ => noHead_isSpace_toDigits _ _),
    scan_printed (by decide) (by decide) (numberEnds_of_space (by decide) hleft) model.toNat_lt
      (by decide), show literal "\n" = [.space] from rfl, scan, scan]

theorem cpuid_takes (env : AsciiEnv) (vendor : Fin 8) (family model : UInt32) {left : List Char}
    (hleft : ∀ c ∈ left.head?, isSpace c = true) (hclean : CleanLine 'g' left) :
    Takes env (cpuidText vendor family.toNat model.toNat left) true
      (fun v => (FieldLine.cpuid vendor family model).give v) := by
  have hscan := scan_cpuidText vendor family model hleft
  have hfree := (cpuidText_clean vendor family.toNat model.toNat hclean).tagFree (by decide)
  set text := cpuidText vendor family.toNat model.toNat left with htext
  have hgunk : skipgunk text = text :=
    skipgunk_cons hfree (by decide)
  have hread : ∀ r : AsciiRecord, ∃ r' : AsciiRecord, cpuidToken r text = ⟨r', 3, text, 0⟩ ∧
      r'.values = (FieldLine.cpuid vendor family model).give r.values := by
    intro r
    unfold cpuidToken sscanf
    dsimp only
    rw [hscan]
    refine ⟨_, rfl, ?_⟩
    show _ = ({ r.values with m := { r.m with
      cpuvendor := .ofNat ((vendors.map String.toList).idxOf (vendorName vendor).toList)
      cpuid := unparseCpuid family.toNat model.toNat } } : Values)
    rw [← cpuvendorToNum_vendorName]
    rfl
  have hcall : ∀ r, token env r text = some (cpuidToken r text) := fun r => rfl
  refine takes_last hgunk hcall ?_ ?_ ?_ <;> intro r <;> obtain ⟨r', htoken, hvalues⟩ := hread r <;>
    rw [htoken]
  · exact hvalues
  · exact (by decide : (0 : ℤ) < 3)

end Cpuid

/-! ## Lines -/

section Lines

/-- What a line does to the record. It differs from what the line gives only in the
    symbol. -/
def FieldLine.read (v : Values) : FieldLine → Values
  | .fields lead first more tail => (FieldLine.fields lead first more tail).give v
  | .time _ _ n _ _ => { v with m := NumName.time.store v.m n.value }
  | .rip _ cs ip symbol _ => ripChange cs ip symbol v
  | .cpuid vendor family model => (FieldLine.cpuid vendor family model).give v
  | .blank _ => v

def FieldLine.isField : FieldLine → Bool
  | .fields .. | .time .. | .rip .. | .cpuid .. => true
  | .blank _ => false

theorem ripText_eq (inexact : Bool) (cs : UInt8) (ip : UInt64) (symbol : Option Symbol)
    (tail : Blanks) : (FieldLine.rip inexact cs ip symbol tail).text =
      ripName inexact ++ ' ' :: ripText cs ip (symbolText symbol ++ (tail.chars ++ ['\n'])) := by
  rw [ripName, List.append_assoc]
  rfl

theorem FieldLine.takes (env : AsciiEnv) (line : FieldLine) :
    Takes env line.text line.isField (fun v => line.read v) := by
  cases line with
  | fields lead first more tail =>
    exact first.takes more tail lead.isSpace (lead.clean (by decide)) (moreText_takes env more tail)
  | time lead blanks n date skippable => exact time_takes env lead blanks n skippable
  | rip inexact cs ip symbol tail =>
    rw [ripText_eq]
    exact rip_takes env inexact cs ip symbol tail
  | cpuid vendor family model =>
    have hnewline : ∀ c ∈ ['\n'].head?, isSpace c = true := by simp [isSpace]
    exact cpuid_takes env vendor family model hnewline cleanLine_newline
  | blank blanks => exact takes_blanks env (isSpace_append_newline blanks.isSpace)

theorem symbolText_chars (symbol : Option Symbol) :
    '\n' ∉ symbolText symbol ∧ '\x00' ∉ symbolText symbol := by
  cases symbol with
  | none => exact ⟨List.not_mem_nil, List.not_mem_nil⟩
  | some w =>
    have hnl : '\n' ∉ w.chars := fun h => absurd (w.isWord _ h).1 (by decide)
    have hnul : '\x00' ∉ w.chars := fun h => (w.isWord _ h).2.1 rfl
    simp [symbolText, hnl, hnul]

theorem FieldLine.isLine (line : FieldLine) : IsLine line.text := by
  cases line with
  | fields lead first more tail =>
    exact CleanLine.isLine (.append (lead.clean (by decide)) (.append first.clean
      (moreText_clean more tail)))
  | time lead blanks n date _ => exact (timeDate_clean lead blanks n date).isLine
  | cpuid vendor family model =>
    exact (cpuidText_clean vendor family.toNat model.toNat cleanLine_newline).isLine
  | blank blanks =>
    have hclean : Clean 'g' blanks.chars := blanks.clean (by decide)
    exact (CleanLine.append hclean cleanLine_newline).isLine
  | rip inexact cs ip symbol tail =>
    have hdigits : ∀ {x : Char} {ds : List Char}, (∀ c ∈ ds, isDigitOf 16 c = true) →
        isDigitOf 16 x = false → x ∉ ds := fun hds hx => notMem_of_isDigitOf hds hx
    have hname : '\n' ∉ ripName inexact ∧ '\x00' ∉ ripName inexact := by
      cases inexact <;> decide
    have hpart : ∀ x, x ∉ ripName inexact → x ∉ symbolText symbol → x ∉ tail.chars →
        isDigitOf 16 x = false → x ∉ ":<".toList → x ∉ " >".toList →
        x ∉ ripName inexact ++ ' ' :: ripText cs ip (symbolText symbol ++ tail.chars) := by
      intro x h1 h2 h3 hx h4 h5
      rw [show " >".toList = [' ', '>'] from rfl] at h5
      simp only [ripText, List.mem_append, List.mem_cons, not_or, List.not_mem_nil,
        not_false_eq_true, and_true] at h5 ⊢
      exact ⟨h1, h5.1, hdigits (isDigitOf_cs cs) hx, h4, hdigits (isDigitOf_status ip) hx, h5.2, h2,
        h3⟩
    refine ⟨ripName inexact ++ ' ' :: ripText cs ip (symbolText symbol ++ tail.chars), ?_, ?_, ?_⟩
    · rw [ripText_eq]
      simp [ripText]
    · exact hpart _ hname.1 (symbolText_chars symbol).1 (fun h => (tail.isBlank _ h).2 rfl)
        (by decide) (by decide) (by decide)
    · exact hpart _ hname.2 (symbolText_chars symbol).2
        (fun h => absurd (tail.isSpace _ h) (by decide)) (by decide) (by decide) (by decide)

end Lines

end Mcelog.Ascii
