import Mathlib.Tactic
import Mcelog.Common.Numeral

/-!
# `sscanf`

The directives of C's `sscanf` that matter for integers, words, scansets and
`%n`, on a text without NUL. Conversions are assigned in order and scanning
stops at the first failure. Numbers are read as `strtoul` and `strtol` read
them, with 64-bit saturation, and stored in the width of their argument.

* `scan_literal`, `scan_blanks`, `scan_num`, `scan_str`, `scan_skipSet`: what each
  directive does on a text that matches it.
-/

namespace Mcelog.Common

/-- `isspace` in the C locale. -/
def isSpace (c : Char) : Bool :=
  c = ' ' || c = '\t' || c = '\n' || c = '\x0b' || c = '\x0c' || c = '\r'

/-- The directives of a format. -/
inductive Directive
  /-- white space -/
  | space
  /-- an ordinary character -/
  | lit (c : Char)
  /-- `%d`, `%u`, `%x` with a maximum width and the bits of the argument -/
  | num (base : ℕ) (signed : Bool) (width : Option ℕ) (bits : ℕ)
  /-- `%s` -/
  | str (width : Option ℕ)
  /-- `%*[..]`, not assigned -/
  | skipSet (set : Char → Bool)
  /-- `%n` -/
  | pos

/-- `%u` -/
def conversionU : Directive := .num 10 false none 32

/-- `%d` -/
def conversionD : Directive := .num 10 true none 32

/-- `%x` -/
def conversionX : Directive := .num 16 false none 32

/-- `%llx` -/
def conversionLlx : Directive := .num 16 false none 64

/-- An assigned argument. -/
inductive Arg
  | num (n : ℕ)
  | str (s : List Char)
  | pos (n : ℕ)
  deriving DecidableEq, Repr

/-- Why scanning stopped: the text ended, or did not match. -/
inductive ScanFail
  | input
  | matching
  deriving DecidableEq, Repr

/-- The format of a text without conversions. -/
def literal (text : String) : List Directive :=
  text.toList.map fun c => if isSpace c then .space else .lit c

/-- Cut a text to an optional width. -/
def cut : Option ℕ → List Char → List Char
  | none, s => s
  | some w, s => s.take w

/-! ## Numbers -/

/-- The sign of a number and what follows it. -/
def scanSign : List Char → Bool × List Char
  | '-' :: s => (true, s)
  | '+' :: s => (false, s)
  | s => (false, s)

/-- The prefix `0x` of a base 16 number is skipped. -/
def scanPrefix (base : ℕ) : List Char → List Char
  | '0' :: x :: s => if base = 16 ∧ (x = 'x' ∨ x = 'X') then s else '0' :: x :: s
  | s => s

/-- The value of `strtoul`, or of `strtol` as 64 bits, for a number with this sign
    and magnitude. -/
def strtoValue (signed neg : Bool) (mag : ℕ) : ℕ :=
  if signed then
    if neg then (2 ^ 64 - min mag (2 ^ 63)) % 2 ^ 64 else min mag (2 ^ 63 - 1)
  else if mag ≥ 2 ^ 64 then 2 ^ 64 - 1
  else if neg then (2 ^ 64 - mag) % 2 ^ 64
  else mag

/-- An integer conversion: the value and the text after it. -/
def scanNumber (base : ℕ) (signed : Bool) (width : Option ℕ) (bits : ℕ) (s : List Char) :
    Except ScanFail (ℕ × List Char) :=
  let s := s.dropWhile isSpace
  if s = [] then .error .input
  else
    let (neg, body) := scanSign (cut width s)
    let digits := (scanPrefix base body).takeWhile (isDigitOf base)
    if digits = [] then .error .matching
    else
      let rest := (scanPrefix base body).drop digits.length
      .ok (strtoValue signed neg (ofNumeral base digits) % 2 ^ bits,
        s.drop ((cut width s).length - rest.length))

/-! ## Scanning -/

/-- Scan `s`, the end of a text of length `total`. -/
def scan (total : ℕ) : List Directive → List Char → List Arg × Option ScanFail
  | [], _ => ([], none)
  | .space :: ds, s => scan total ds (s.dropWhile isSpace)
  | .lit c :: ds, s =>
    match s with
    | [] => ([], some .input)
    | x :: t => if x = c then scan total ds t else ([], some .matching)
  | .num base signed width bits :: ds, s =>
    match scanNumber base signed width bits s with
    | .error e => ([], some e)
    | .ok (v, t) =>
      let (args, e) := scan total ds t
      (.num v :: args, e)
  | .str width :: ds, s =>
    let t := s.dropWhile isSpace
    if t = [] then ([], some .input)
    else
      let word := (cut width t).takeWhile fun c => !isSpace c
      let (args, e) := scan total ds (t.drop word.length)
      (.str word :: args, e)
  | .skipSet set :: ds, s =>
    if s = [] then ([], some .input)
    else if s.takeWhile set = [] then ([], some .matching)
    else scan total ds (s.dropWhile set)
  | .pos :: ds, s =>
    let (args, e) := scan total ds s
    (.pos (total - s.length) :: args, e)

/-- The arguments that count as conversions. -/
def Arg.counts : Arg → Bool
  | .num _ | .str _ => true
  | .pos _ => false

/-- The result of `sscanf`: its return value and the assigned arguments. -/
structure ScanResult where
  ret : ℤ
  args : List Arg
  deriving DecidableEq, Repr

/-- `sscanf(s, format, ..)`; `EOF` is `-1`. -/
def sscanf (format : List Directive) (s : List Char) : ScanResult :=
  let (args, fail) := scan s.length format s
  let count := args.countP Arg.counts
  { ret := if count = 0 ∧ fail = some .input then -1 else count, args := args }

/-- The number that argument `i` was assigned. -/
def ScanResult.num? (r : ScanResult) (i : ℕ) : Option ℕ :=
  match r.args[i]? with
  | some (.num n) => some n
  | some (.str _) | some (.pos _) | none => none

/-- The word that argument `i` was assigned. -/
def ScanResult.str? (r : ScanResult) (i : ℕ) : Option (List Char) :=
  match r.args[i]? with
  | some (.str s) => some s
  | some (.num _) | some (.pos _) | none => none

/-- The position that argument `i`, a `%n`, was assigned. -/
def ScanResult.pos? (r : ScanResult) (i : ℕ) : Option ℕ :=
  match r.args[i]? with
  | some (.pos n) => some n
  | some (.num _) | some (.str _) | none => none

/-! ## What a directive reads -/

/-- `s` does not start with a character of `p`. -/
def NoHead (p : Char → Bool) (s : List Char) : Prop := ∀ c ∈ s.head?, p c = false

section

variable {p : Char → Bool} {c : Char} {s : List Char}

theorem noHead_nil : NoHead p [] := fun _ h => by cases h

theorem noHead_cons (h : p c = false) : NoHead p (c :: s) := by
  intro x hx
  rw [List.head?_cons, Option.mem_some_iff] at hx
  rw [← hx, h]

theorem noHead_dropWhile (p : Char → Bool) (s : List Char) : NoHead p (s.dropWhile p) := by
  induction s with
  | nil => exact noHead_nil
  | cons c s ih =>
    rw [List.dropWhile_cons]
    split_ifs with hc
    · exact ih
    · exact noHead_cons (Bool.eq_false_iff.mpr hc)

theorem takeWhile_of_noHead (h : NoHead p s) : s.takeWhile p = [] := by
  cases s with
  | nil => rfl
  | cons c s => rw [List.takeWhile_cons, if_neg (by simp [h c rfl])]

theorem dropWhile_of_noHead (h : NoHead p s) : s.dropWhile p = s := by
  cases s with
  | nil => rfl
  | cons c s => rw [List.dropWhile_cons, if_neg (by simp [h c rfl])]

end

section

variable {total base bits : ℕ} {fmt : List Directive} {c : Char} {ds s : List Char}

@[simp] theorem scan_lit (total : ℕ) (fmt : List Directive) (c : Char) (s : List Char) :
    scan total (.lit c :: fmt) (c :: s) = scan total fmt s := by
  rw [scan, if_pos rfl]

/-- White space in the format skips blanks, also if there are none. -/
theorem scan_blanks {blanks : List Char} (hblanks : ∀ c ∈ blanks, isSpace c = true)
    (h : NoHead isSpace s) : scan total (.space :: fmt) (blanks ++ s) = scan total fmt s := by
  rw [scan, List.dropWhile_append_of_pos hblanks, dropWhile_of_noHead h]

theorem scan_space (h : NoHead isSpace s) :
    scan total (.space :: fmt) (' ' :: s) = scan total fmt s := by
  rw [scan, List.dropWhile_cons, if_pos (by decide), dropWhile_of_noHead h]

/-- No two blanks in a row. -/
def separated : List Char → Bool
  | c :: d :: s => !(isSpace c && isSpace d) && separated (d :: s)
  | _ => true

theorem scan_literal_list {text : List Char} (hsep : separated text = true)
    (hs : isSpace (text.getLastD 'x') = true → NoHead isSpace s) :
    scan total (text.map (fun c => if isSpace c then .space else .lit c) ++ fmt) (text ++ s) =
      scan total fmt s := by
  induction text with
  | nil => rfl
  | cons c text ih =>
    have ih' : scan total (text.map (fun c => if isSpace c then .space else .lit c) ++ fmt)
        (text ++ s) = scan total fmt s := by
      cases text with
      | nil => rfl
      | cons d text => exact ih (by simpa [separated] using (Bool.and_eq_true_iff.mp hsep).2) hs
    by_cases hc : isSpace c = true
    · -- the blank is dropped with all that follows it, which is no blank
      have hnext : NoHead isSpace (text ++ s) := by
        cases text with
        | nil => exact hs hc
        | cons d text =>
          refine noHead_cons ?_
          simpa [hc] using (Bool.and_eq_true_iff.mp hsep).1
      rw [List.map_cons, if_pos hc, List.cons_append, List.cons_append, scan,
        List.dropWhile_cons, if_pos hc, dropWhile_of_noHead hnext, ih']
    · rw [List.map_cons, if_neg hc, List.cons_append, List.cons_append, scan_lit, ih']

/-- Ordinary text of the format matches itself. -/
theorem scan_literal (text : String) (hsep : separated text.toList = true)
    (hs : isSpace (text.toList.getLastD 'x') = true → NoHead isSpace s) :
    scan total (literal text ++ fmt) (text.toList ++ s) = scan total fmt s :=
  scan_literal_list hsep hs

/-- A text that was scanned to an argument starts with the text of the format. -/
theorem scan_literal_inv {text : List Char} (htext : ∀ c ∈ text, isSpace c = false)
    (h : (scan total (text.map (fun c => if isSpace c then .space else .lit c) ++ fmt) s).1 ≠ []) :
    ∃ t, s = text ++ t ∧ (scan total fmt t).1 =
      (scan total (text.map (fun c => if isSpace c then .space else .lit c) ++ fmt) s).1 := by
  induction text generalizing s with
  | nil => exact ⟨s, rfl, rfl⟩
  | cons c text ih =>
    rw [List.map_cons, htext c List.mem_cons_self, if_neg Bool.false_ne_true, List.cons_append]
      at h ⊢
    cases s with
    | nil =>
      rw [scan] at h
      exact absurd rfl h
    | cons x s =>
      rw [scan] at h
      split_ifs at h with hx
      · obtain ⟨t, rfl, ht⟩ := ih (fun d hd => htext d (List.mem_cons_of_mem _ hd)) h
        refine ⟨t, by rw [hx]; rfl, ?_⟩
        rw [ht, hx, scan_lit]
      · exact absurd rfl h

/-- What a digit is not. -/
theorem not_isSpace_of_isDigitOf (hb : base ≤ 16) (h : isDigitOf base c = true) :
    isSpace c = false ∧ c ≠ '-' ∧ c ≠ '+' ∧ c ≠ 'x' ∧ c ≠ 'X' := by
  have hval : digitValue c < 16 := lt_of_lt_of_le (of_decide_eq_true h) hb
  refine ⟨?_, ?_, ?_, ?_, ?_⟩
  · by_contra hsp
    rw [Bool.not_eq_false, isSpace] at hsp
    simp only [Bool.or_eq_true, decide_eq_true_eq] at hsp
    rcases hsp with ((((rfl | rfl) | rfl) | rfl) | rfl) | rfl <;> exact absurd hval (by decide)
  all_goals
    rintro rfl
    exact absurd hval (by decide)

theorem noHead_isSpace_digits (hb : base ≤ 16) (hds : ∀ c ∈ ds, isDigitOf base c = true)
    (hne : ds ≠ []) : NoHead isSpace (ds ++ s) := by
  cases ds with
  | nil => exact absurd rfl hne
  | cons c ds => exact noHead_cons (not_isSpace_of_isDigitOf hb (hds c List.mem_cons_self)).1

/-- A printed decimal number has no blank before it. -/
theorem noHead_isSpace_toDigits (n : ℕ) (s : List Char) :
    NoHead isSpace (Nat.toDigits 10 n ++ s) :=
  noHead_isSpace_digits (by decide) (isDigitOf_decimal n)
    Nat.toDigits_ne_nil

/-- What may follow a number of this base: no digit, and no `x` that makes a
    leading zero a prefix. -/
def NumberEnds (base : ℕ) (s : List Char) : Prop :=
  NoHead (fun c => isDigitOf base c || c == 'x' || c == 'X') s

theorem numberEnds_nil : NumberEnds base [] := noHead_nil

theorem numberEnds_cons (h : isDigitOf base c = false ∧ c ≠ 'x' ∧ c ≠ 'X') :
    NumberEnds base (c :: s) := noHead_cons (by simp [h])

/-- White space ends a number. -/
theorem numberEnds_of_space (hb : base ≤ 16) (h : ∀ c ∈ s.head?, isSpace c = true) :
    NumberEnds base s := by
  intro c hc
  have hspace := h c hc
  have hdigit : isDigitOf base c = false := by
    by_contra hdigit
    have := (not_isSpace_of_isDigitOf hb (Bool.eq_true_of_not_eq_false hdigit)).1
    rw [hspace] at this
    cases this
  have hx : c ≠ 'x' ∧ c ≠ 'X' := by
    constructor <;>
    · rintro rfl
      exact absurd hspace (by decide)
  simp [hdigit, hx.1, hx.2]

/-- A text that does not start like a digit ends a number. -/
theorem numberEnds_text (text : String) (h : text.toList.head?.any
    (fun c => !(isDigitOf base c || c == 'x' || c == 'X')) = true) :
    NumberEnds base (text.toList ++ s) := by
  cases htext : text.toList with
  | nil => rw [htext] at h; cases h
  | cons c t =>
    rw [htext] at h
    exact noHead_cons (by simpa using h)

theorem NumberEnds.noHead (h : NumberEnds base s) : NoHead (isDigitOf base) s := by
  intro c hc
  have := h c hc
  simp only [Bool.or_eq_false_iff] at this
  exact this.1.1

theorem NumberEnds.take (h : NumberEnds base s) (w : ℕ) : NumberEnds base (s.take w) := by
  cases w with
  | zero => exact numberEnds_nil
  | succ w =>
    cases s with
    | nil => exact numberEnds_nil
    | cons c s => exact h

theorem scanSign_cons (hminus : c ≠ '-') (hplus : c ≠ '+') :
    scanSign (c :: s) = (false, c :: s) := by
  unfold scanSign
  split
  · rename_i heq
    exact absurd (List.cons.inj heq).1 hminus
  · rename_i heq
    exact absurd (List.cons.inj heq).1 hplus
  · rfl

theorem scanPrefix_cons_cons {x : Char} (h : x ≠ 'x' ∧ x ≠ 'X') :
    scanPrefix base (c :: x :: s) = c :: x :: s := by
  unfold scanPrefix
  split
  · rename_i heq
    obtain ⟨rfl, rfl⟩ := List.cons.inj (List.cons.inj heq).2
    rw [if_neg, heq]
    rintro ⟨-, hx | hx⟩
    · exact h.1 hx
    · exact h.2 hx
  · rfl

/-- Digits are no prefix. -/
theorem scanPrefix_digits (hb : base ≤ 16) (hds : ∀ c ∈ ds, isDigitOf base c = true)
    (hne : ds ≠ []) (hs : NumberEnds base s) : scanPrefix base (ds ++ s) = ds ++ s := by
  obtain _ | ⟨c, _ | ⟨d, ds⟩⟩ := ds
  · exact absurd rfl hne
  · cases s with
    | nil =>
      unfold scanPrefix
      split
      · rename_i heq
        cases heq
      · rfl
    | cons x s =>
      have hx := hs x rfl
      simp only [Bool.or_eq_false_iff, beq_eq_false_iff_ne] at hx
      exact scanPrefix_cons_cons ⟨hx.1.2, hx.2⟩
  · obtain ⟨-, -, -, hx⟩ := not_isSpace_of_isDigitOf hb (hds d (by simp))
    exact scanPrefix_cons_cons hx

/-- A text of digits is read to its end. -/
theorem scanNumber_digits {width : Option ℕ} {signed : Bool} (hb : base ≤ 16)
    (hds : ∀ c ∈ ds, isDigitOf base c = true) (hne : ds ≠ []) (hs : NumberEnds base s)
    (hw : ∀ w ∈ width, ds.length ≤ w) :
    scanNumber base signed width bits (ds ++ s) =
      .ok (strtoValue signed false (ofNumeral base ds) % 2 ^ bits, s) := by
  -- what is left of `s` within the width still ends the number
  obtain ⟨t, hcut, ht⟩ : ∃ t, cut width (ds ++ s) = ds ++ t ∧ NumberEnds base t := by
    cases width with
    | none => exact ⟨s, rfl, hs⟩
    | some w =>
      refine ⟨s.take (w - ds.length), ?_, hs.take _⟩
      rw [cut, List.take_append, List.take_of_length_le (hw w rfl)]
  obtain ⟨c, ds', rfl⟩ := List.exists_cons_of_ne_nil hne
  obtain ⟨hspace, hminus, hplus, -⟩ := not_isSpace_of_isDigitOf hb (hds c List.mem_cons_self)
  have hdrop : (c :: ds' ++ s).dropWhile isSpace = c :: ds' ++ s :=
    dropWhile_of_noHead (noHead_cons hspace)
  have htake : (c :: ds' ++ t).takeWhile (isDigitOf base) = c :: ds' := by
    rw [List.takeWhile_append_of_pos hds, takeWhile_of_noHead ht.noHead, List.append_nil]
  have hsign : scanSign (c :: ds' ++ t) = (false, c :: ds' ++ t) := scanSign_cons hminus hplus
  unfold scanNumber
  dsimp only
  rw [hdrop, hcut, if_neg (by simp), hsign]
  dsimp only
  rw [scanPrefix_digits hb hds hne ht, htake, if_neg hne, List.drop_left, List.length_append,
    Nat.add_sub_cancel, List.drop_left]

/-- A minus sign negates the number. -/
theorem scan_num_neg (hb : base ≤ 16) (hds : ∀ c ∈ ds, isDigitOf base c = true) (hne : ds ≠ [])
    (hs : NumberEnds base s) :
    scan total (.num base false none bits :: fmt) ('-' :: (ds ++ s)) =
      (.num (strtoValue false true (ofNumeral base ds) % 2 ^ bits) :: (scan total fmt s).1,
        (scan total fmt s).2) := by
  have hdrop : ('-' :: (ds ++ s)).dropWhile isSpace = '-' :: (ds ++ s) :=
    dropWhile_of_noHead (noHead_cons (by decide))
  have htake : (ds ++ s).takeWhile (isDigitOf base) = ds := by
    rw [List.takeWhile_append_of_pos hds, takeWhile_of_noHead hs.noHead, List.append_nil]
  have hnumber : scanNumber base false none bits ('-' :: (ds ++ s)) =
      .ok (strtoValue false true (ofNumeral base ds) % 2 ^ bits, s) := by
    unfold scanNumber
    dsimp only
    rw [hdrop, if_neg (by simp), cut, scanSign]
    dsimp only
    rw [scanPrefix_digits hb hds hne hs, htake, if_neg hne, List.drop_left]
    have hlen : ('-' :: (ds ++ s)).length - s.length = ds.length + 1 := by
      rw [List.length_cons, List.length_append]
      omega
    rw [hlen, List.drop_succ_cons, List.drop_left]
  rw [scan, hnumber]

/-- A number that does not start with a digit or a sign does not match. -/
theorem scanNumber_of_not_digit {width : Option ℕ} {signed : Bool} (hb : base ≠ 16)
    (h : isDigitOf base c = false) (hspace : isSpace c = false) (hminus : c ≠ '-')
    (hplus : c ≠ '+') (hw : width ≠ some 0) :
    scanNumber base signed width bits (c :: s) = .error .matching := by
  obtain ⟨t, hcut⟩ : ∃ t, cut width (c :: s) = c :: t := by
    cases width with
    | none => exact ⟨s, rfl⟩
    | some w =>
      cases w with
      | zero => exact absurd rfl hw
      | succ w => exact ⟨s.take w, rfl⟩
  have hbody : scanPrefix base (c :: t) = c :: t := by
    unfold scanPrefix
    split
    · rename_i heq
      rw [if_neg (fun hand => hb hand.1), heq]
    · rfl
  unfold scanNumber
  dsimp only
  rw [dropWhile_of_noHead (noHead_cons hspace), if_neg (List.cons_ne_nil _ _), hcut,
    scanSign_cons hminus hplus]
  dsimp only
  rw [hbody, takeWhile_of_noHead (noHead_cons h), if_pos rfl]

/-- An integer conversion reads digits. -/
theorem scan_num {width : Option ℕ} {signed : Bool} (hb : base ≤ 16)
    (hds : ∀ c ∈ ds, isDigitOf base c = true) (hne : ds ≠ []) (hs : NumberEnds base s)
    (hw : ∀ w ∈ width, ds.length ≤ w) :
    scan total (.num base signed width bits :: fmt) (ds ++ s) =
      (.num (strtoValue signed false (ofNumeral base ds) % 2 ^ bits) :: (scan total fmt s).1,
        (scan total fmt s).2) := by
  rw [scan, scanNumber_digits hb hds hne hs hw]

/-- An integer conversion skips white space. -/
theorem scan_num_space {width : Option ℕ} {signed : Bool} (hc : isSpace c = true) :
    scan total (.num base signed width bits :: fmt) (c :: s) =
      scan total (.num base signed width bits :: fmt) s := by
  rw [scan, scan, scanNumber, scanNumber, List.dropWhile_cons, if_pos hc]

/-- The prefix of a hexadecimal number is skipped. -/
theorem scan_num_prefix (hds : ∀ c ∈ ds, isDigitOf 16 c = true) (hne : ds ≠ [])
    (hs : NumberEnds 16 s) :
    scan total (.num 16 false none bits :: fmt) ('0' :: 'x' :: (ds ++ s)) =
      (.num (strtoValue false false (ofNumeral 16 ds) % 2 ^ bits) :: (scan total fmt s).1,
        (scan total fmt s).2) := by
  have hdrop : ('0' :: 'x' :: (ds ++ s)).dropWhile isSpace = '0' :: 'x' :: (ds ++ s) :=
    dropWhile_of_noHead (noHead_cons (by decide))
  have hskip : scanPrefix 16 ('0' :: 'x' :: (ds ++ s)) = ds ++ s := by
    rw [scanPrefix, if_pos (by decide)]
  have htake : (ds ++ s).takeWhile (isDigitOf 16) = ds := by
    rw [List.takeWhile_append_of_pos hds, takeWhile_of_noHead hs.noHead, List.append_nil]
  have hnumber : scanNumber 16 false none bits ('0' :: 'x' :: (ds ++ s)) =
      .ok (strtoValue false false (ofNumeral 16 ds) % 2 ^ bits, s) := by
    unfold scanNumber
    dsimp only
    rw [hdrop, if_neg (by simp), cut, scanSign_cons (by decide) (by decide)]
    dsimp only
    rw [hskip, htake, if_neg hne, List.drop_left]
    have hlen : ('0' :: 'x' :: (ds ++ s)).length - s.length = ds.length + 2 := by
      rw [List.length_cons, List.length_cons, List.length_append]
      omega
    rw [hlen, List.drop_succ_cons, List.drop_succ_cons, List.drop_left]
  rw [scan, hnumber]

/-- A string conversion skips white space. -/
theorem scan_str_space {width : Option ℕ} (hc : isSpace c = true) :
    scan total (.str width :: fmt) (c :: s) = scan total (.str width :: fmt) s := by
  rw [scan, scan, List.dropWhile_cons, if_pos hc]

/-- A string conversion reads a word. -/
theorem scan_str {width : Option ℕ} (hds : ∀ c ∈ ds, isSpace c = false) (hne : ds ≠ [])
    (hs : ∀ c ∈ s.head?, isSpace c = true) (hw : ∀ w ∈ width, ds.length ≤ w) :
    scan total (.str width :: fmt) (ds ++ s) =
      (.str ds :: (scan total fmt s).1, (scan total fmt s).2) := by
  have hword : (cut width (ds ++ s)).takeWhile (fun c => !isSpace c) = ds := by
    have hpos : ∀ c ∈ ds, (!isSpace c) = true := fun c hc => by rw [hds c hc]; rfl
    have hend : ∀ t : List Char, t.head? = s.head? ∨ t = [] →
        (ds ++ t).takeWhile (fun c => !isSpace c) = ds := by
      intro t ht
      rw [List.takeWhile_append_of_pos hpos, takeWhile_of_noHead, List.append_nil]
      rintro c hc
      rcases ht with ht | rfl
      · simp [hs c (ht ▸ hc)]
      · cases hc
    cases width with
    | none => exact hend s (Or.inl rfl)
    | some w =>
      rw [cut, List.take_append, List.take_of_length_le (hw w rfl)]
      refine hend _ ?_
      cases w - ds.length with
      | zero => exact Or.inr rfl
      | succ k => exact Or.inl (by cases s <;> rfl)
  obtain ⟨c, ds', rfl⟩ := List.exists_cons_of_ne_nil hne
  have hdrop : (c :: ds' ++ s).dropWhile isSpace = c :: ds' ++ s :=
    dropWhile_of_noHead (noHead_cons (hds c List.mem_cons_self))
  rw [scan, hdrop]
  dsimp only
  rw [if_neg (by simp), hword, List.drop_left]

/-- A word that is too long is cut. -/
theorem scan_str_cut {w : ℕ} (hds : ∀ c ∈ ds, isSpace c = false) (hw : w < ds.length)
    (s : List Char) : scan total (.str (some w) :: fmt) (ds ++ s) =
      (.str (ds.take w) :: (scan total fmt (ds.drop w ++ s)).1,
        (scan total fmt (ds.drop w ++ s)).2) := by
  have hword : (cut (some w) (ds ++ s)).takeWhile (fun c => !isSpace c) = ds.take w := by
    rw [cut, List.take_append_of_le_length hw.le, List.takeWhile_eq_self_iff]
    intro c hc
    rw [hds c (List.mem_of_mem_take hc)]
    rfl
  obtain ⟨c, ds', rfl⟩ :=
    List.exists_cons_of_ne_nil (List.ne_nil_of_length_pos (Nat.zero_lt_of_lt hw))
  have hdrop : (c :: ds' ++ s).dropWhile isSpace = c :: ds' ++ s :=
    dropWhile_of_noHead (noHead_cons (hds c List.mem_cons_self))
  rw [scan, hdrop]
  dsimp only
  rw [if_neg (by simp), hword, List.length_take, min_eq_left hw.le,
    List.drop_append_of_le_length hw.le]

/-- A scanset skips the characters that it has. -/
theorem scan_skipSet {set : Char → Bool} (hds : ∀ c ∈ ds, set c = true) (hne : ds ≠ [])
    (hs : NoHead set s) :
    scan total (.skipSet set :: fmt) (ds ++ s) = scan total fmt s := by
  have hnil : ds ++ s ≠ [] := List.append_ne_nil_of_left_ne_nil hne s
  rw [scan, if_neg hnil, List.takeWhile_append_of_pos hds, takeWhile_of_noHead hs,
    List.append_nil, if_neg hne, List.dropWhile_append_of_pos hds, dropWhile_of_noHead hs]

end

/-- No more conversions succeed than arguments are assigned. -/
theorem sscanf_ret_le (format : List Directive) (s : List Char) :
    (sscanf format s).ret ≤ (scan s.length format s).1.length := by
  have hcount := List.countP_le_length (p := Arg.counts) (l := (scan s.length format s).1)
  unfold sscanf
  dsimp only
  split_ifs <;> omega

/-- `%n` stores a place in the text. -/
theorem scan_pos_le {format : List Directive} {total n : ℕ} {s : List Char}
    (h : Arg.pos n ∈ (scan total format s).1) : n ≤ total := by
  induction format generalizing s with
  | nil => exact absurd h List.not_mem_nil
  | cons d format ih =>
    cases d with
    | space => exact ih h
    | lit c =>
      cases s with
      | nil => exact absurd h List.not_mem_nil
      | cons x s =>
        rw [scan] at h
        split_ifs at h
        · exact ih h
        · exact absurd h List.not_mem_nil
    | num base signed width bits =>
      rw [scan] at h
      cases hnumber : scanNumber base signed width bits s with
      | error e =>
        rw [hnumber] at h
        exact absurd h List.not_mem_nil
      | ok number =>
        rw [hnumber] at h
        rcases List.mem_cons.mp h with heq | hmem
        · cases heq
        · exact ih hmem
    | str width =>
      rw [scan] at h
      dsimp only at h
      split_ifs at h
      · exact absurd h List.not_mem_nil
      · rcases List.mem_cons.mp h with heq | hmem
        · cases heq
        · exact ih hmem
    | skipSet set =>
      rw [scan] at h
      split_ifs at h
      · exact absurd h List.not_mem_nil
      · exact absurd h List.not_mem_nil
      · exact ih h
    | pos =>
      rcases List.mem_cons.mp h with heq | hmem
      · obtain rfl := Arg.pos.inj heq
        exact Nat.sub_le _ _
      · exact ih hmem

theorem sscanf_pos_le (format : List Directive) {s : List Char} {d : ℕ} (hd : d ≤ s.length)
    (i : ℕ) : ((sscanf format s).pos? i).getD d ≤ s.length := by
  have hargs : (sscanf format s).args = (scan s.length format s).1 := rfl
  rw [ScanResult.pos?, hargs]
  split
  · rename_i n hn
    exact scan_pos_le (List.mem_of_getElem? hn)
  all_goals exact hd

/-- The directive assigns a number or nothing. -/
def Directive.isNumeric : Directive → Bool
  | .space | .lit _ | .num _ _ _ _ | .skipSet _ => true
  | .str _ | .pos => false

/-- A format of numbers assigns numbers only. -/
theorem scan_args_num {format : List Directive} (h : ∀ d ∈ format, d.isNumeric = true) (total : ℕ)
    (s : List Char) : ∀ a ∈ (scan total format s).1, ∃ n, a = .num n := by
  induction format generalizing s with
  | nil => exact fun a ha => absurd ha List.not_mem_nil
  | cons d format ih =>
    have ih' := ih fun d' hd' => h d' (List.mem_cons_of_mem _ hd')
    cases d with
    | space => exact ih' _
    | lit c =>
      cases s with
      | nil => exact fun a ha => absurd ha List.not_mem_nil
      | cons x s =>
        rw [scan]
        split_ifs
        · exact ih' s
        · exact fun a ha => absurd ha List.not_mem_nil
    | num base signed width bits =>
      rw [scan]
      cases scanNumber base signed width bits s with
      | error e => exact fun a ha => absurd ha List.not_mem_nil
      | ok number =>
        intro a ha
        rcases List.mem_cons.mp ha with rfl | ha
        · exact ⟨_, rfl⟩
        · exact ih' number.2 a ha
    | str width => exact absurd (h _ List.mem_cons_self) Bool.false_ne_true
    | skipSet set =>
      rw [scan]
      split_ifs
      · exact fun a ha => absurd ha List.not_mem_nil
      · exact fun a ha => absurd ha List.not_mem_nil
      · exact ih' _
    | pos => exact absurd (h _ List.mem_cons_self) Bool.false_ne_true

/-- The first arguments are assigned when as many conversions succeed. -/
theorem sscanf_num_isSome {format : List Directive} {s : List Char} {k i : ℕ}
    (h : ∀ d ∈ format, d.isNumeric = true) (hret : (sscanf format s).ret = k) (hi : i < k) :
    ((sscanf format s).num? i).isSome = true := by
  have hle := sscanf_ret_le format s
  have hargs : (sscanf format s).args = (scan s.length format s).1 := rfl
  have hlt : i < (scan s.length format s).1.length := by omega
  obtain ⟨n, hn⟩ := scan_args_num h s.length s _ (List.getElem_mem hlt)
  rw [ScanResult.num?, hargs, List.getElem?_eq_getElem hlt, hn]
  rfl

/-- What an unsigned conversion stores for a number that fits. -/
theorem strtoValue_unsigned {v bits : ℕ} (hv : v < 2 ^ bits) (hbits : bits ≤ 64) :
    strtoValue false false v % 2 ^ bits = v := by
  have hle : 2 ^ bits ≤ 2 ^ 64 := Nat.pow_le_pow_right (by decide) hbits
  rw [strtoValue, if_neg (by decide), if_neg (by omega), if_neg (by decide), Nat.mod_eq_of_lt hv]

theorem strtoValue_signed {v bits : ℕ} (hv : v < 2 ^ bits) (hbits : bits < 64) :
    strtoValue true false v % 2 ^ bits = v := by
  have hle : 2 ^ bits ≤ 2 ^ 63 := Nat.pow_le_pow_right (by decide) (by omega)
  rw [strtoValue, if_pos rfl, if_neg (by decide), min_eq_left (by omega), Nat.mod_eq_of_lt hv]

/-- A printed number is read back. -/
theorem scan_printed {total base bits v : ℕ} {fmt : List Directive} {s : List Char}
    (hbase : 1 < base) (hb : base ≤ 16) (hs : NumberEnds base s) (hv : v < 2 ^ bits)
    (hbits : bits ≤ 64) :
    scan total (.num base false none bits :: fmt) (Nat.toDigits base v ++ s) =
      (.num v :: (scan total fmt s).1, (scan total fmt s).2) := by
  rw [scan_num hb (isDigitOf_of_mem_toDigits hbase hb v) Nat.toDigits_ne_nil hs (by simp),
    ofNumeral_toDigits hbase hb, strtoValue_unsigned hv hbits]

/-! ## Numbers as they are written -/

/-- A number with its sign, before it is cut to any width. -/
structure Written where
  neg : Bool
  mag : ℕ
  deriving DecidableEq, Repr

/-- The decimal number at the start of a text, and the text behind it. -/
def readNumber (s : List Char) : Option (Written × List Char) :=
  let (neg, body) := scanSign (s.dropWhile isSpace)
  let ds := body.takeWhile (isDigitOf 10)
  if ds = [] then none else some (⟨neg, ofNumeral 10 ds⟩, body.drop ds.length)

/-- What `%u` stores of it. -/
def Written.stored (w : Written) : ℕ := strtoValue false w.neg w.mag % 2 ^ 32

theorem Written.stored_lt (w : Written) : w.stored < 2 ^ 32 := Nat.mod_lt _ (by decide)

section

variable {total : ℕ} {fmt : List Directive} {s t : List Char} {w : Written}

theorem scanPrefix_ten (s : List Char) : scanPrefix 10 s = s := by
  unfold scanPrefix
  split
  · exact if_neg fun h => absurd h.1 (by decide)
  · rfl

theorem scanSign_suffix (s : List Char) : (scanSign s).2 <:+ s := by
  unfold scanSign
  split
  · exact List.suffix_cons _ _
  · exact List.suffix_cons _ _
  · exact List.suffix_rfl

theorem readNumber_dropWhile (s : List Char) : readNumber (s.dropWhile isSpace) = readNumber s := by
  unfold readNumber
  rw [dropWhile_of_noHead (noHead_dropWhile isSpace s)]

/-- An unsigned conversion of base 10 reads the number. -/
theorem scan_readNumber_bits (h : readNumber s = some (w, t)) (bits : ℕ) :
    scan total (.num 10 false none bits :: fmt) s =
      (.num (strtoValue false w.neg w.mag % 2 ^ bits) :: (scan total fmt t).1,
        (scan total fmt t).2) := by
  unfold readNumber at h
  dsimp only at h
  split_ifs at h with hds
  obtain ⟨rfl, rfl⟩ := Prod.mk.inj (Option.some.inj h)
  set body := (scanSign (s.dropWhile isSpace)).2 with hbody
  have hne : s.dropWhile isSpace ≠ [] := by
    intro hnil
    rw [hbody, hnil] at hds
    exact hds rfl
  have hsuffix : body.drop (body.takeWhile (isDigitOf 10)).length <:+ s.dropWhile isSpace :=
    (List.drop_suffix _ _).trans (scanSign_suffix _)
  have hnumber : scanNumber 10 false none bits s =
      .ok (strtoValue false (scanSign (s.dropWhile isSpace)).1
          (ofNumeral 10 (body.takeWhile (isDigitOf 10))) % 2 ^ bits,
        body.drop (body.takeWhile (isDigitOf 10)).length) := by
    unfold scanNumber
    dsimp only [cut]
    rw [if_neg hne, scanPrefix_ten, if_neg hds, ← List.suffix_iff_eq_drop.mp hsuffix]
  rw [scan, hnumber]

/-- `%u` reads the number. -/
theorem scan_readNumber (h : readNumber s = some (w, t)) :
    scan total (conversionU :: fmt) s =
      (.num w.stored :: (scan total fmt t).1, (scan total fmt t).2) :=
  scan_readNumber_bits h 32

theorem scan_readNumber_bits_none (h : readNumber s = none) (bits total : ℕ)
    (fmt : List Directive) :
    ∃ e, scan total (.num 10 false none bits :: fmt) s = ([], some e) := by
  obtain ⟨e, he⟩ : ∃ e, scanNumber 10 false none bits s = .error e := by
    unfold readNumber at h
    dsimp only at h
    split_ifs at h with hds
    unfold scanNumber
    dsimp only [cut]
    split_ifs with hnil hds'
    · exact ⟨_, rfl⟩
    · exact ⟨_, rfl⟩
    · rw [scanPrefix_ten] at hds'
      exact absurd hds hds'
  exact ⟨e, by rw [scan, he]⟩

theorem scan_readNumber_none (h : readNumber s = none) (total : ℕ) (fmt : List Directive) :
    ∃ e, scan total (conversionU :: fmt) s = ([], some e) :=
  scan_readNumber_bits_none h 32 total fmt

/-- A number is blanks, a sign and digits. -/
theorem readNumber_split (h : readNumber s = some (w, t)) :
    ∃ read, s = read ++ t ∧
      ∀ c ∈ read, isSpace c = true ∨ c = '-' ∨ c = '+' ∨ isDigitOf 10 c = true := by
  unfold readNumber at h
  dsimp only at h
  split_ifs at h with hds
  obtain ⟨-, rfl⟩ := Prod.mk.inj (Option.some.inj h)
  set body := (scanSign (s.dropWhile isSpace)).2 with hbody
  obtain ⟨sign, hsign, hchars⟩ :
      ∃ sign, s.dropWhile isSpace = sign ++ body ∧ ∀ c ∈ sign, c = '-' ∨ c = '+' := by
    rw [hbody]
    unfold scanSign
    split
    · rename_i heq
      exact ⟨['-'], heq, by simp⟩
    · rename_i heq
      exact ⟨['+'], heq, by simp⟩
    · exact ⟨[], rfl, by simp⟩
  refine ⟨s.takeWhile isSpace ++ (sign ++ body.takeWhile (isDigitOf 10)), ?_, fun c hc => ?_⟩
  · have hdigits := List.prefix_iff_eq_append.mp (List.takeWhile_prefix (isDigitOf 10) (l := body))
    rw [List.append_assoc, List.append_assoc, hdigits, ← hsign, List.takeWhile_append_dropWhile]
  · rcases List.mem_append.mp hc with hblank | hc
    · exact Or.inl (List.mem_takeWhile_imp hblank)
    rcases List.mem_append.mp hc with hc | hdigit
    · rcases hchars c hc with rfl | rfl
      · exact Or.inr (Or.inl rfl)
      · exact Or.inr (Or.inr (Or.inl rfl))
    · exact Or.inr (Or.inr (Or.inr (List.mem_takeWhile_imp hdigit)))

/-- `%1s` reads one character. -/
theorem scan_str_one {u : Char} (hu : isSpace u = false) (s : List Char) :
    scan total (.str (some 1) :: fmt) (u :: s) =
      (.str [u] :: (scan total fmt s).1, (scan total fmt s).2) := by
  rw [scan, dropWhile_of_noHead (noHead_cons hu)]
  dsimp only
  rw [if_neg (List.cons_ne_nil _ _), cut, List.take_succ_cons, List.take_zero, List.takeWhile_cons,
    if_pos (by rw [hu]; rfl)]
  rfl

/-- A number that is written in digits. -/
theorem readNumber_digits {ds : List Char} (hds : ∀ c ∈ ds, isDigitOf 10 c = true) (hne : ds ≠ [])
    (hs : NoHead (isDigitOf 10) s) : readNumber (ds ++ s) = some (⟨false, ofNumeral 10 ds⟩, s) := by
  obtain ⟨c, ds', rfl⟩ := List.exists_cons_of_ne_nil hne
  obtain ⟨hspace, hminus, hplus, -⟩ :=
    not_isSpace_of_isDigitOf (by decide : 10 ≤ 16) (hds c List.mem_cons_self)
  have htake : (c :: ds' ++ s).takeWhile (isDigitOf 10) = c :: ds' := by
    rw [List.takeWhile_append_of_pos hds, takeWhile_of_noHead hs, List.append_nil]
  have hsign : scanSign (c :: ds' ++ s) = (false, c :: ds' ++ s) := scanSign_cons hminus hplus
  have hdrop : (c :: ds' ++ s).dropWhile isSpace = c :: ds' ++ s :=
    dropWhile_of_noHead (noHead_cons hspace)
  unfold readNumber
  rw [hdrop, hsign]
  dsimp only
  rw [htake, if_neg hne, List.drop_left]

end

end Mcelog.Common
