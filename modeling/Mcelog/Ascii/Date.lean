import Mcelog.Ascii.Dump

/-!
# Skipping the date

`skip_date` recognises the text of `ctime` behind the time of a record.

* `skipDate_asctime`: a date is skipped exactly if it is not in a leap second and
  its year is not one of 0 to 1899. A negative year is read as a large one.
-/

namespace Mcelog.Ascii

open Mcelog.Common Mcelog.Machine

/-- The dates that `skip_date` accepts. -/
def Tm.Skippable (tm : Tm) : Prop := tm.sec ≤ 59 ∧ (tm.year < 0 ∨ 1900 ≤ tm.year)

instance (tm : Tm) : Decidable tm.Skippable :=
  inferInstanceAs (Decidable (tm.sec ≤ 59 ∧ (tm.year < 0 ∨ 1900 ≤ tm.year)))

/-- The year as `%u` stores it. -/
def yearValue (year : ℤ) : ℕ :=
  if year < 0 then 2 ^ 32 - year.natAbs else year.natAbs

theorem le_yearValue_iff (tm : Tm) : 1900 ≤ yearValue tm.year ↔ tm.year < 0 ∨ 1900 ≤ tm.year := by
  have hrange := tm.year_range
  unfold yearValue
  split_ifs with h
  · omega
  · omega

section Scan

variable {total : ℕ} {fmt : List Directive} {left : List Char}

/-- A name of a day or a month. -/
structure ShortName (name : List Char) : Prop where
  isShort : isShort name = true
  no_space : ∀ c ∈ name, isSpace c = false
  ne_nil : name ≠ []
  length_le : name.length ≤ 10

theorem shortName_wday (i : Fin 7) : ShortName (wdayName i).toList := by
  revert i
  have h : ∀ i : Fin 7, isShort (wdayName i).toList = true ∧
      (∀ c ∈ (wdayName i).toList, isSpace c = false) ∧ (wdayName i).toList ≠ [] ∧
      (wdayName i).toList.length ≤ 10 := by decide
  exact fun i => ⟨(h i).1, (h i).2.1, (h i).2.2.1, (h i).2.2.2⟩

theorem shortName_mon (i : Fin 12) : ShortName (monName i).toList := by
  revert i
  have h : ∀ i : Fin 12, isShort (monName i).toList = true ∧
      (∀ c ∈ (monName i).toList, isSpace c = false) ∧ (monName i).toList ≠ [] ∧
      (monName i).toList.length ≤ 10 := by decide
  exact fun i => ⟨(h i).1, (h i).2.1, (h i).2.2.1, (h i).2.2.2⟩

theorem scan_name {name : List Char} (h : ShortName name) (hleft : ∀ c ∈ left.head?,
    isSpace c = true) : scan total (.str (some 10) :: fmt) (name ++ left) =
      (.str name :: (scan total fmt left).1, (scan total fmt left).2) :=
  scan_str h.no_space h.ne_nil hleft (by simpa using h.length_le)

theorem isDigitOf_printTwo (n : ℕ) : ∀ c ∈ printTwo n, isDigitOf 10 c = true :=
  isDigitOf_of_mem_leftpad (by decide) (isDigitOf_decimal n)

theorem printTwo_ne_nil (n : ℕ) : printTwo n ≠ [] := by
  rw [← List.length_pos_iff, printTwo, List.length_leftpad]
  omega

/-- `%u` reads what `%.2d` printed. -/
theorem scan_printTwo {n : ℕ} (hn : n < 2 ^ 32) (hleft : NumberEnds 10 left) :
    scan total (conversionU :: fmt) (printTwo n ++ left) =
      (.num n :: (scan total fmt left).1, (scan total fmt left).2) := by
  have hvalue : ofNumeral 10 (printTwo n) = n := by
    rw [printTwo, ofNumeral_leftpad, ofNumeral_decimal]
  rw [conversionU, scan_num (by decide) (isDigitOf_printTwo n) (printTwo_ne_nil n) hleft (by simp),
    hvalue, strtoValue_unsigned hn (by decide)]

theorem noHead_printTwo (n : ℕ) : NoHead isSpace (printTwo n ++ left) :=
  noHead_isSpace_digits (by decide) (isDigitOf_printTwo n) (printTwo_ne_nil n)

/-- `%u` reads what `%d` printed, modulo `2^32`. -/
theorem scan_year {year : ℤ} (hyear : -2 ^ 31 ≤ year ∧ year < 2 ^ 31)
    (hleft : NumberEnds 10 left) :
    scan total (conversionU :: fmt) (printInt year ++ left) =
      (.num (yearValue year) :: (scan total fmt left).1, (scan total fmt left).2) := by
  have hdigits := isDigitOf_decimal year.natAbs
  unfold printInt yearValue
  split_ifs with h
  · have hvalue : strtoValue false true year.natAbs % 2 ^ 32 = 2 ^ 32 - year.natAbs := by
      rw [strtoValue, if_neg (by decide), if_neg (by omega), if_pos rfl]
      omega
    rw [List.cons_append, conversionU, scan_num_neg (by decide) hdigits Nat.toDigits_ne_nil hleft,
      ofNumeral_decimal, hvalue]
  · rw [conversionU, scan_printed (by decide) (by decide) hleft (by omega) (by decide)]

theorem noHead_printInt (n : ℤ) : NoHead isSpace (printInt n ++ left) := by
  unfold printInt
  split_ifs
  · exact noHead_cons (by decide)
  · exact noHead_isSpace_toDigits _ _

end Scan

/-- The day of the month has at least one blank before it. -/
theorem leftpad_mday (tm : Tm) : ∃ blanks, (∀ c ∈ blanks, isSpace c = true) ∧
    (Nat.toDigits 10 tm.mday).leftpad 3 ' ' = ' ' :: blanks ++ Nat.toDigits 10 tm.mday := by
  have hlen : (Nat.toDigits 10 tm.mday).length ≤ 2 :=
    (Nat.length_toDigits_le_iff (by decide) (by decide)).mpr (by have := tm.mday_range; omega)
  refine ⟨List.replicate (2 - (Nat.toDigits 10 tm.mday).length) ' ', ?_, ?_⟩
  · intro c hc
    rw [(List.mem_replicate.mp hc).2]
    decide
  · rw [List.leftpad, ← List.replicate_succ]
    congr 2
    omega

/-- The conversions of `skip_date` on the text of `ctime`. -/
theorem scan_asctime (tm : Tm) (total : ℕ) :
    scan total dateFormat (' ' :: asctime tm) =
      ([.str (wdayName tm.wday).toList, .str (monName tm.mon).toList, .num tm.mday,
        .num tm.hour, .num tm.min, .num tm.sec, .num (yearValue tm.year), .pos (total - 1)],
        none) := by
  obtain ⟨blanks, hblanks, hpad⟩ := leftpad_mday tm
  have hmday := isDigitOf_decimal tm.mday
  have hmdayLt : tm.mday < 2 ^ 32 := by have := tm.mday_range; omega
  have hblanks' : ∀ c ∈ ' ' :: blanks, isSpace c = true := by
    simpa using ⟨(by decide : isSpace ' ' = true), hblanks⟩
  have hmon : ∀ t, NoHead isSpace ((monName tm.mon).toList ++ t) := by
    intro t
    obtain ⟨c, name, hname⟩ := List.exists_cons_of_ne_nil (shortName_mon tm.mon).ne_nil
    rw [hname]
    exact noHead_cons ((shortName_mon tm.mon).no_space c (by simp [hname]))
  have hcolon : ∀ t, NumberEnds 10 (":".toList ++ t) :=
    fun t => numberEnds_text ":" (by decide)
  have hblank : ∀ t, NumberEnds 10 (' ' :: t) := fun t => numberEnds_cons (by decide)
  have hformat : dateFormat = .str (some 10) :: .space :: .str (some 10) :: .space ::
      conversionU :: .space :: conversionU :: (literal ":" ++ (conversionU :: (literal ":" ++
        (conversionU :: .space :: [conversionU, .pos])))) := rfl
  rw [hformat, asctime, hpad, List.append_assoc (' ' :: blanks)]
  rw [scan_str_space (by decide), scan_name (shortName_wday tm.wday) (by simp [isSpace]),
    scan_space (hmon _), scan_name (shortName_mon tm.mon) (by simp [isSpace]),
    scan_blanks hblanks' (noHead_isSpace_digits (by decide) hmday Nat.toDigits_ne_nil),
    conversionU, scan_printed (by decide) (by decide) (hblank _) hmdayLt (by decide),
    ← conversionU, scan_space (noHead_printTwo _), scan_printTwo (by omega) (hcolon _),
    scan_literal ":" (by decide) (fun h => absurd h (by decide)),
    scan_printTwo (by omega) (hcolon _),
    scan_literal ":" (by decide) (fun h => absurd h (by decide)),
    scan_printTwo (by omega) (hblank _), scan_space (noHead_printInt _),
    scan_year tm.year_range (numberEnds_cons (by decide))]
  rfl

/-- **Dates.** `skip_date` skips the text of `ctime` up to its newline, or nothing. -/
theorem skipDate_asctime (tm : Tm) :
    skipDate (' ' :: asctime tm) = if tm.Skippable then (asctime tm).length else 0 := by
  have hscan := scan_asctime tm (' ' :: asctime tm).length
  have hyear := le_yearValue_iff tm
  have hmday := tm.mday_range
  have hhour := tm.hour.isLt
  have hmin := tm.min.isLt
  have hsec : urange tm.sec 0 59 = true ↔ tm.sec ≤ 59 := by simp [urange, Fin.le_def]
  have haccept : (isShort (wdayName tm.wday).toList && isShort (monName tm.mon).toList &&
      urange tm.mday 1 31 && urange tm.hour 0 24 && urange tm.min 0 59 && urange tm.sec 0 59 &&
      decide (1900 ≤ yearValue tm.year)) = true ↔ tm.Skippable := by
    have hrest : urange tm.mday 1 31 = true ∧ urange tm.hour 0 24 = true ∧
        urange tm.min 0 59 = true := by
      simp only [urange, Bool.and_eq_true, decide_eq_true_eq]
      omega
    rw [(shortName_wday _).isShort, (shortName_mon _).isShort, hrest.1, hrest.2.1, hrest.2.2]
    simp only [Bool.true_and, Bool.and_eq_true, decide_eq_true_eq, hsec, hyear]
    rfl
  unfold skipDate sscanf
  rw [hscan]
  dsimp only
  by_cases h : tm.Skippable
  · rw [if_pos (haccept.mpr h), if_pos h, List.length_cons, Nat.add_sub_cancel]
  · rw [if_neg (fun hacc => h (haccept.mp hacc)), if_neg h]

/-- A text that starts with another word is no date. -/
theorem skipDate_eq_zero (word : List Char) {s : List Char} {args : List Arg} {e : Option ScanFail}
    (hscan : scan s.length dateFormat s = (.str word :: args, e)) (hword : isShort word = false) :
    skipDate s = 0 := by
  have hargs : (sscanf dateFormat s).args = .str word :: args := by
    unfold sscanf
    rw [hscan]
  unfold skipDate
  rw [hargs]
  split
  · rename_i heq
    obtain ⟨hday, -⟩ := List.cons.inj heq
    rw [← Arg.str.inj hday, hword]
    rfl
  · rfl

end Mcelog.Ascii
