import Mathlib.Data.List.TakeWhile
import Mcelog.Ascii.Model

/-!
# Tokens of a line

What one token of a line does, without the fuel of the loop.

* `decodeLine_eq`: a line is its first token and the rest of the line.
* `decodeLine_of_token`, `decodeLine_last`, `decodeLine_unknown`,
  `decodeLine_blank`: the cases of the first token.
* `numField_read`: a field of one number is read exactly.
* `Reaches`: what reading a line up to some place does to the record.
-/

namespace Mcelog.Ascii

open Mcelog.Common Mcelog.Machine

/-! ## Progress -/

section Progress

variable {env : AsciiEnv} {r : AsciiRecord} {st : Decoder} {s : List Char} {t : Token}

theorem skipspace_suffix (s : List Char) : skipspace s <:+ s := List.dropWhile_suffix _

theorem skipSyslog_suffix (s : List Char) : skipSyslog s <:+ s := by
  unfold skipSyslog
  split
  · rename_i p hp
    have hmem := List.mem_of_find?_eq_some hp
    exact (List.drop_suffix 8 p).trans ((List.mem_tails p s).mp hmem)
  · exact List.suffix_rfl

theorem skipBracket_suffix (left right : Char) (s : List Char) :
    skipBracket left right s <:+ s := by
  unfold skipBracket
  split_ifs
  · exact (List.drop_suffix 1 _).trans (List.dropWhile_suffix _)
  · exact List.suffix_rfl

theorem skipgunk_suffix (s : List Char) : skipgunk s <:+ s := by
  have hbrackets : skipspace (skipBracket '[' ']' (skipspace (skipBracket '<' '>'
      (skipspace (skipSyslog s))))) <:+ s :=
    (skipspace_suffix _).trans <| (skipBracket_suffix _ _ _).trans <|
      (skipspace_suffix _).trans <| (skipBracket_suffix _ _ _).trans <|
      (skipspace_suffix _).trans (skipSyslog_suffix s)
  refine (skipspace_suffix _).trans ?_
  split_ifs
  · exact (List.drop_suffix 22 _).trans hbrackets
  · exact hbrackets

theorem cpuToken_s (r : AsciiRecord) (s : List Char) : (cpuToken r s).s = s := by
  unfold cpuToken
  dsimp only
  split_ifs <;> rfl

theorem xenToken_s (env : AsciiEnv) (r : AsciiRecord) (s : List Char) :
    (xenToken env r s).s = s := by
  unfold xenToken
  split
  · split <;> rfl
  · rfl

theorem ripToken_suffix (r : AsciiRecord) (s : List Char) : (ripToken r s).s <:+ s := by
  unfold ripToken
  dsimp only
  split_ifs
  · exact List.drop_suffix 13 s
  · exact List.drop_suffix 3 s

/-- A branch may move the start of the token, but only forward. -/
theorem Branch.run_suffix {b : Branch} (h : b ∈ branches env) (r : AsciiRecord)
    (s : List Char) : (b.run r s).s <:+ s := by
  have hall : List.Forall (fun b : Branch => ∀ r s, (b.run r s).s <:+ s) (branches env) := by
    refine ⟨fun r s => (cpuToken_s r s).symm ▸ List.suffix_rfl, ?_, ?_, ripToken_suffix, ?_, ?_,
      ?_, ?_, ?_, ?_, ?_, ?_, ?_, ?_, ?_, fun r s => (xenToken_s env r s).symm ▸ List.suffix_rfl,
      ?_, ?_⟩ <;>
    exact fun r s => List.suffix_rfl
  exact List.forall_iff_forall_mem.mp hall b h r s

theorem token_suffix (h : token env r s = some t) : t.s <:+ s := by
  obtain ⟨b, hfind, rfl⟩ := Option.map_eq_some_iff.mp h
  exact Branch.run_suffix (List.mem_of_find?_eq_some hfind) r s

/-- The empty text is no token. -/
theorem token_nil (env : AsciiEnv) (r : AsciiRecord) : token env r [] = none := rfl

/-- What is left of the line after a token is shorter. -/
theorem decodeToken_rest {st' : Decoder} {outs : List AsciiOut} {left : List Char}
    (h : decodeToken env st s = (st', outs, some left)) : left.length < s.length := by
  have hgunk := (skipgunk_suffix s).length_le
  unfold decodeToken at h
  dsimp only at h
  split at h
  · rename_i t ht
    have hs := (token_suffix ht).length_le
    have hne : skipgunk s ≠ [] := by
      intro hnil
      rw [hnil, token_nil] at ht
      cases ht
    have hpos := List.length_pos_iff.mpr hne
    split_ifs at h with hnext
    · obtain rfl : t.s.drop t.next = left := by simpa using congrArg (fun p => p.2.2) h
      rw [List.length_drop]
      omega
    · simp at h
  · split_ifs at h <;> simp at h

/-- Enough fuel does not matter. -/
theorem decodeTokens_of_lt {fuel : ℕ} (h : s.length < fuel) (st : Decoder) :
    decodeTokens env fuel st s = decodeLine env st s := by
  suffices haux : ∀ n m (s : List Char) st, s.length < n → s.length < m →
      decodeTokens env n st s = decodeTokens env m st s from
    haux fuel (s.length + 1) s st h (Nat.lt_succ_self _)
  intro n
  induction n with
  | zero => intro m s st hn; omega
  | succ n ih =>
    intro m s st hn hm
    cases m with
    | zero => omega
    | succ m =>
      rw [decodeTokens, decodeTokens]
      rcases htok : decodeToken env st s with ⟨st', outs, _ | left⟩
      · rfl
      · have hleft := decodeToken_rest htok
        dsimp only
        rw [ih m left st' (by omega) (by omega)]

/-- A line is its first token and the rest of the line. -/
theorem decodeLine_eq (env : AsciiEnv) (st : Decoder) (s : List Char) :
    decodeLine env st s =
      match decodeToken env st s with
      | (st, outs, none) => (st, outs)
      | (st, outs, some left) =>
        ((decodeLine env st left).1, outs ++ (decodeLine env st left).2) := by
  rw [decodeLine, decodeTokens]
  rcases htok : decodeToken env st s with ⟨st', outs, _ | left⟩
  · rfl
  · dsimp only
    rw [decodeTokens_of_lt (decodeToken_rest htok)]

end Progress

/-! ## The first token of a line -/

section First

variable {env : AsciiEnv} {st : Decoder} {s start left : List Char} {t : Token}

/-- A known token, after which the line goes on with `left`. -/
theorem decodeLine_of_token (hs : skipgunk s = start) (ht : token env st.record start = some t)
    (hpos : 0 < t.next) (hleft : t.s.drop t.next = left) :
    decodeLine env st s = decodeLine env ⟨t.record, st.data || t.n > 0⟩ left := by
  rw [decodeLine_eq, decodeToken]
  dsimp only
  rw [hs, ht]
  dsimp only
  rw [if_pos hpos, hleft]
  rfl

/-- A known token that ends the line. -/
theorem decodeLine_last (hs : skipgunk s = start) (ht : token env st.record start = some t)
    (hnext : t.next = 0) : decodeLine env st s = (⟨t.record, st.data || t.n > 0⟩, []) := by
  rw [decodeLine_eq, decodeToken]
  dsimp only
  rw [hs, ht]
  dsimp only
  rw [if_neg (by omega)]

/-- What is printed for a token that is not known. -/
def unknownText (env : AsciiEnv) (start : List Char) : List AsciiOut :=
  if env.dumpRawAscii then [] else [.text start]

@[simp] theorem finals_unknownText (env : AsciiEnv) (start : List Char) :
    finals (unknownText env start) = [] := by
  unfold unknownText
  split_ifs <;> rfl

/-- A token that is not known ends the record. -/
theorem decodeLine_unknown (hs : skipgunk s = start) (ht : token env st.record start = none)
    (hne : start ≠ []) (hdata : st.data = true) :
    decodeLine env st s = ({}, dumpMceFinal st.record :: unknownText env start) := by
  rw [decodeLine_eq, decodeToken]
  dsimp only
  rw [hs, ht]
  dsimp only
  rw [if_pos ⟨hne, hdata⟩]
  rfl

/-- White space is no token. -/
theorem decodeLine_blank (hs : skipgunk s = []) :
    decodeLine env st s = (st, unknownText env []) := by
  rw [decodeLine_eq, decodeToken]
  dsimp only
  rw [hs, token_nil]
  dsimp only
  rw [if_neg (by simp)]
  rfl

end First

/-! ## Skipping what precedes a token -/

section Gunk

variable {c x : Char} {s blanks : List Char}

theorem strstr_of_notMem {needle : String} (hx : x ∈ needle.toList) (h : x ∉ s) :
    strstr s needle = none := by
  rw [strstr, List.find?_eq_none]
  intro t ht hpre
  have hsub : t ⊆ s := ((List.mem_tails t s).mp ht).subset
  exact h (hsub ((List.isPrefixOf_iff_prefix.mp hpre).subset hx))

theorem strncmp_of_head_ne {t : String} {n : ℕ} (hx : (t.toList.take n).head? = some x)
    (h : c ≠ x) : strncmp (c :: s) t n = false := by
  obtain ⟨ys, hys⟩ : ∃ ys, t.toList.take n = x :: ys := by
    cases hcase : t.toList.take n with
    | nil => rw [hcase] at hx; cases hx
    | cons y ys => rw [hcase] at hx; exact ⟨ys, by rw [Option.some.inj hx]⟩
  rw [strncmp, hys, List.isPrefixOf, beq_eq_false_iff_ne.mpr (Ne.symm h), Bool.false_and]

/-- A text without the tag of syslog. -/
def TagFree (s : List Char) : Prop := ∃ x ∈ "mcelog: ".toList, x ∉ s

theorem TagFree.suffix {left : List Char} (h : TagFree s) (hsuffix : left <:+ s) :
    TagFree left := by
  obtain ⟨x, hx, hnot⟩ := h
  exact ⟨x, hx, fun hmem => hnot (hsuffix.subset hmem)⟩

theorem TagFree.skipSyslog (h : TagFree s) : skipSyslog s = s := by
  obtain ⟨x, hx, hnot⟩ := h
  rw [Ascii.skipSyslog, strstr_of_notMem hx hnot]

/-- An ordinary character, with which neither blanks nor a tag start. -/
def Ordinary (c : Char) : Prop := isSpace c = false ∧ c ≠ '<' ∧ c ≠ '[' ∧ c ≠ 'm'

instance (c : Char) : Decidable (Ordinary c) :=
  inferInstanceAs (Decidable (_ ∧ _ ∧ _ ∧ _))

/-- Without the tag of syslog, blanks are skipped, and nothing else if the text
    goes on with an ordinary character. -/
theorem skipgunk_of_skipSyslog (hfree : Ascii.skipSyslog (blanks ++ c :: s) = blanks ++ c :: s)
    (hblanks : ∀ c ∈ blanks, isSpace c = true) (hc : Ordinary c) :
    skipgunk (blanks ++ c :: s) = c :: s := by
  obtain ⟨hspace, hlt, hbracket, hm⟩ := hc
  have hskip : skipspace (c :: s) = c :: s := dropWhile_of_noHead (noHead_cons hspace)
  have hall : skipspace (blanks ++ c :: s) = c :: s := by
    rw [skipspace, List.dropWhile_append_of_pos hblanks]
    exact hskip
  have hmce : strncmp (c :: s) "mce: [Hardware Error]:" 22 = false :=
    strncmp_of_head_ne (by decide) hm
  have hbr : ∀ left right, c ≠ left → skipBracket left right (c :: s) = c :: s := by
    intro left right hne
    rw [skipBracket, if_neg (by simpa using hne)]
  unfold skipgunk
  dsimp only
  rw [hfree, hall, hbr _ _ hlt, hskip, hbr _ _ hbracket, hskip, hmce, if_neg (by decide), hskip]

theorem skipgunk_blanks (hfree : TagFree (blanks ++ c :: s))
    (hblanks : ∀ c ∈ blanks, isSpace c = true) (hc : Ordinary c) :
    skipgunk (blanks ++ c :: s) = c :: s :=
  skipgunk_of_skipSyslog hfree.skipSyslog hblanks hc

/-- An ordinary character is not skipped. -/
theorem skipgunk_cons (hfree : TagFree (c :: s)) (hc : Ordinary c) :
    skipgunk (c :: s) = c :: s := by
  have hnil : ∀ c ∈ ([] : List Char), isSpace c = true := by simp
  have hfree' : TagFree ([] ++ c :: s) := hfree
  have hskip := skipgunk_blanks hfree' hnil hc
  rwa [List.nil_append] at hskip

/-- A text of blanks is skipped. -/
theorem skipgunk_of_blanks (hblanks : ∀ c ∈ blanks, isSpace c = true) : skipgunk blanks = [] := by
  have hfree : TagFree blanks :=
    ⟨'m', by decide, fun hm => absurd (hblanks 'm' hm) (by decide)⟩
  have hall : skipspace blanks = [] := List.dropWhile_eq_nil_iff.mpr hblanks
  have hnil : skipspace [] = [] := rfl
  have hbr : ∀ left right, skipBracket left right [] = [] := fun _ _ => rfl
  have hmce : strncmp [] "mce: [Hardware Error]:" 22 = false := by decide
  unfold skipgunk
  dsimp only
  rw [hfree.skipSyslog, hall, hbr, hnil, hbr, hnil, hmce, if_neg (by decide), hnil]

/-- A text in brackets is skipped. -/
theorem skipgunk_bracket {body ending : List Char}
    (hfree : TagFree (blanks ++ '[' :: (body ++ ']' :: ending)))
    (hblanks : ∀ c ∈ blanks, isSpace c = true) (hbody : ']' ∉ body)
    (hending : ∀ c ∈ ending, isSpace c = true) :
    skipgunk (blanks ++ '[' :: (body ++ ']' :: ending)) = [] := by
  have hskip : ∀ t, skipspace ('[' :: t) = '[' :: t :=
    fun t => dropWhile_of_noHead (noHead_cons (by decide))
  have hall : skipspace (blanks ++ '[' :: (body ++ ']' :: ending)) =
      '[' :: (body ++ ']' :: ending) := by
    rw [skipspace, List.dropWhile_append_of_pos hblanks]
    exact hskip _
  have hangle : ∀ t, skipBracket '<' '>' ('[' :: t) = '[' :: t := fun t => rfl
  have hsquare : skipBracket '[' ']' ('[' :: (body ++ ']' :: ending)) = ending := by
    have hpos : ∀ c ∈ '[' :: body, (decide (c ≠ ']')) = true := by
      intro c hc
      refine decide_eq_true ?_
      rintro rfl
      rcases List.mem_cons.mp hc with hc | hc
      · cases hc
      · exact hbody hc
    rw [skipBracket, if_pos List.head?_cons, ← List.cons_append, List.dropWhile_append_of_pos hpos,
      dropWhile_of_noHead (noHead_cons (by decide))]
    rfl
  have hend : skipspace ending = [] := List.dropWhile_eq_nil_iff.mpr hending
  have hmce : strncmp [] "mce: [Hardware Error]:" 22 = false := by decide
  unfold skipgunk
  dsimp only
  rw [hfree.skipSyslog, hall, hangle, hskip, hsquare, hend, hmce, if_neg (by decide)]
  rfl

end Gunk

/-! ## Fields -/

section Fields

variable {env : AsciiEnv} {base bits : ℕ} {name : String} {f : Field} {store : Mce → ℕ → Mce}
  {r : AsciiRecord} {st : Decoder} {ds s left left' : List Char}

/-- A word that can start a token. -/
def startsToken (name : String) : Bool :=
  separated name.toList && !isSpace (name.toList.getLastD 'x') &&
    name.toList.head?.any fun c => !isSpace c && c != '<' && c != '[' && c != 'm'

theorem skipgunk_name {blanks : List Char} (hname : startsToken name = true)
    (hblanks : ∀ c ∈ blanks, isSpace c = true) (hfree : TagFree (blanks ++ (name.toList ++ s))) :
    skipgunk (blanks ++ (name.toList ++ s)) = name.toList ++ s := by
  rw [startsToken] at hname
  cases hchars : name.toList with
  | nil =>
    rw [hchars] at hname
    cases hname
  | cons c cs =>
    rw [hchars] at hname hfree
    simp only [List.head?_cons, Option.any_some, Bool.and_eq_true, Bool.not_eq_true',
      bne_iff_ne] at hname
    obtain ⟨-, ⟨⟨hspace, hlt⟩, hbracket⟩, hm⟩ := hname
    exact skipgunk_blanks hfree hblanks ⟨hspace, hlt, hbracket, hm⟩

/-- **A field of one number** is stored, and `next` is behind it. -/
theorem numField_scan {blanks body : List Char} {v : ℕ} (hname : startsToken name = true)
    (hblanks : ∀ c ∈ blanks, isSpace c = true) (hbody : NoHead isSpace body)
    (hscan : ∀ total, scan total [.num base false none bits, .pos] body =
      ([.num v, .pos (total - left.length)], none)) (r : AsciiRecord) :
    let text := name.toList ++ (blanks ++ body)
    numField name base bits f store r text =
      { record := { r with m := store r.m v }.field f.endof, n := 1, s := text
        next := text.length - left.length } := by
  intro text
  obtain ⟨⟨hsep, hlast⟩, -⟩ : (separated name.toList = true ∧
      (!isSpace (name.toList.getLastD 'x')) = true) ∧ _ := by
    simpa only [startsToken, Bool.and_eq_true] using hname
  have hscan' : scan text.length (literal name ++ [.space, .num base false none bits, .pos]) text =
      ([.num v, .pos (text.length - left.length)], none) := by
    rw [scan_literal name hsep (fun h => absurd hlast (by rw [h]; decide)),
      scan_blanks hblanks hbody, hscan]
  unfold numField sscanf
  dsimp only
  rw [hscan']
  rfl

/-- A field of one number, given as digits. -/
theorem numField_read (hname : startsToken name = true) (hb : base ≤ 16)
    (hds : ∀ c ∈ ds, isDigitOf base c = true) (hne : ds ≠ []) (hv : ofNumeral base ds < 2 ^ bits)
    (hbits : bits ≤ 64) (hleft : NumberEnds base left) (r : AsciiRecord) :
    let text := name.toList ++ (' ' :: (ds ++ left))
    numField name base bits f store r text =
      { record := { r with m := store r.m (ofNumeral base ds) }.field f.endof, n := 1, s := text
        next := text.length - left.length } := by
  have hblank : ∀ c ∈ [' '], isSpace c = true := by decide
  refine numField_scan hname hblank (noHead_isSpace_digits hb hds hne) (fun total => ?_) r
  rw [scan_num hb hds hne hleft (by simp), strtoValue_unsigned hv hbits]
  rfl

/-- Reading `s` gets to `left`, with these changes of the record; `read` tells
    whether a field has been read. -/
def Reaches (env : AsciiEnv) (s left : List Char) (read : Bool) (change : Mce → Mce) : Prop :=
  ∀ st, ∃ r, r.m = change st.record.m ∧
    decodeLine env st s = decodeLine env ⟨r, st.data || read⟩ left

theorem Reaches.refl (env : AsciiEnv) (s : List Char) : Reaches env s s false id := by
  intro st
  exact ⟨st.record, rfl, by rw [Bool.or_false]⟩

theorem Reaches.trans {read read' : Bool} {change change' : Mce → Mce}
    (h : Reaches env s left read change) (h' : Reaches env left left' read' change') :
    Reaches env s left' (read || read') (change' ∘ change) := by
  intro st
  obtain ⟨r, hr, heq⟩ := h st
  obtain ⟨r', hr', heq'⟩ := h' ⟨r, st.data || read⟩
  refine ⟨r', by rw [hr', hr]; rfl, ?_⟩
  rw [heq, heq', Bool.or_assoc]

/-- A known token leads to what is behind it. -/
theorem Reaches.token {t : AsciiRecord → Token} {change : Mce → Mce} {start : List Char}
    (hs : skipgunk s = start) (ht : ∀ r, token env r start = some (t r))
    (hm : ∀ r, (t r).record.m = change r.m) (hn : ∀ r, 0 < (t r).n)
    (hpos : ∀ r, 0 < (t r).next) (hleft : ∀ r, (t r).s.drop (t r).next = left) :
    Reaches env s left true change := by
  intro st
  refine ⟨(t st.record).record, hm st.record, ?_⟩
  rw [decodeLine_of_token hs (ht st.record) (hpos st.record) (hleft st.record),
    decide_eq_true (hn st.record)]

theorem drop_length_sub {text : List Char} (h : left <:+ text) :
    text.drop (text.length - left.length) = left := (List.suffix_iff_eq_drop.mp h).symm

/-- Reading a field of one number, given as digits. -/
theorem Reaches.digits {blanks : List Char} (hname : startsToken name = true) (hb : base ≤ 16)
    (hds : ∀ c ∈ ds, isDigitOf base c = true) (hne : ds ≠ []) (hv : ofNumeral base ds < 2 ^ bits)
    (hbits : bits ≤ 64) (hleft : NumberEnds base left)
    (hblanks : ∀ c ∈ blanks, isSpace c = true)
    (hfree : TagFree (blanks ++ (name.toList ++ (' ' :: (ds ++ left)))))
    (ht : ∀ r, Ascii.token env r (name.toList ++ (' ' :: (ds ++ left))) =
      some (numField name base bits f store r (name.toList ++ (' ' :: (ds ++ left))))) :
    Reaches env (blanks ++ (name.toList ++ (' ' :: (ds ++ left)))) left true
      (fun m => store m (ofNumeral base ds)) := by
  have hread : ∀ r, numField name base bits f store r (name.toList ++ (' ' :: (ds ++ left))) = _ :=
    numField_read hname hb hds hne hv hbits hleft
  have hsuffix : left <:+ name.toList ++ (' ' :: (ds ++ left)) :=
    (List.suffix_append _ _).trans ((List.suffix_cons _ _).trans (List.suffix_append _ _))
  have hlen : left.length < (name.toList ++ (' ' :: (ds ++ left))).length := by
    simp only [List.length_append, List.length_cons]
    omega
  refine Reaches.token (skipgunk_name hname hblanks hfree) ht ?_ ?_ ?_ ?_ <;> intro r <;>
    rw [hread r]
  · rfl
  · exact Int.one_pos
  · exact Nat.sub_pos_of_lt hlen
  · exact drop_length_sub hsuffix

end Fields

end Mcelog.Ascii
