import Mcelog.Dmi.Table

/-!
# The walk stays inside the table

The loops of `fill_handles` and `dmi_collect` go from entry to entry, `numentries` times and
as long as `check_entry` accepts. Two NULs that end an entry can be the last bytes of the
table. The next entry starts behind the table then, and its header is read there if the
firmware counts more entries than there are.

* `WalkInside`: every byte that is read is in the table, and the entries ascend.
* `checkEntry_eq`: `check_entry` finds the end of the entry, where it reads inside the table.
* `walk_inside_iff`: the header of each entry that is come to has to be in the table.
-/

namespace Mcelog.Dmi

open Mcelog.Common

/-! ## What the walk should do -/

/-- The entries that the loops come to. -/
def visited (t : Table) (verbose : ℤ) (numentries : ℕ) : List ℕ :=
  reached (fun e => (checkEntry t verbose e).getD none) numentries 0

/-- Nothing is read outside the table, the entries ascend, and an accepted entry lies in the
    table with its formatted area and with its strings and their two NULs. -/
structure WalkInside (t : Table) (verbose : ℤ) (numentries : ℕ) : Prop where
  handles : (fillHandles t verbose numentries).isSome = true
  collects : ∀ type, (dmiCollect t verbose numentries type type.minsize).isSome = true
  ascending : (visited t verbose numentries).Pairwise (· < ·)
  accepted : ∀ e next, checkEntry t verbose e = some (some next) →
    ∃ length p, lengthOf t e = some length ∧ e + length.toNat ≤ p ∧ next = p + 2 ∧
      p + 2 ≤ t.length ∧ t[p]? = some 0 ∧ t[p + 1]? = some 0

/-- The header of an entry is in the table, as far as it is read: type and length always, the
    handle of an entry that is complete or when something is printed, and the strings when
    they are printed. -/
structure HeaderInside (t : Table) (verbose : ℤ) (e : ℕ) : Prop where
  fields : e + 2 ≤ t.length
  handle : (nextEntry t e).isSome = true ∨ 0 < verbose → e + 4 ≤ t.length
  strings : 3 < verbose → (nextEntry t e).isSome = true ∨
    (∃ length, lengthOf t e = some length ∧ e + length.toNat < t.length) ∧
      t.getLast? = some 0

/-! ## Checking one entry -/

section

variable {t : Table} {verbose : ℤ} {n e s : ℕ} {b c : UInt8} {bytes : List UInt8}

theorem getElem?_of_drop (h : t.drop s = b :: bytes) : t[s]? = some b := by
  have hhead : (t.drop s)[0]? = some b := by rw [h]; rfl
  simpa using hhead

theorem drop_succ_of_drop (h : t.drop s = b :: bytes) : t.drop (s + 1) = bytes := by
  rw [← List.drop_drop, h]
  rfl

/-- The bytes at `s` and behind it. -/
theorem doubleNul_of_drop (h : t.drop s = b :: c :: bytes) : DoubleNul t s ↔ b = 0 ∧ c = 0 := by
  rw [DoubleNul, getElem?_of_drop h, getElem?_of_drop (drop_succ_of_drop h)]
  simp

/-- No two NULs fit any more. -/
theorem stringsEnd_of_short (h : (t.drop s).length ≤ 1) : stringsEnd t s = none := by
  rw [List.length_drop] at h
  refine Option.not_isSome_iff_eq_none.mp fun hsome => ?_
  obtain ⟨p, hp, hnul⟩ := stringsEnd_isSome.mp hsome
  have hlt := hnul.lt
  omega

/-- The loops find the first two NULs. -/
theorem skipStrings_agrees {r : Option ℕ} (h : t.drop s = bytes)
    (hskip : skipStrings verbose bytes s = some r) : r = (stringsEnd t s).map (· + 2) := by
  induction bytes generalizing s with
  | nil =>
    rw [stringsEnd_of_short (by simp [h])]
    exact (Option.some.inj hskip).symm
  | cons b bytes ih =>
    cases bytes with
    | nil =>
      rw [stringsEnd_of_short (by simp [h])]
      exact (Option.some.inj hskip).symm
    | cons c rest =>
      have hdrop := drop_succ_of_drop h
      rw [skipStrings] at hskip
      by_cases hb : b = 0
      · rw [if_neg (not_not.mpr hb)] at hskip
        by_cases hc : c = 0
        · rw [if_neg (not_not.mpr hc)] at hskip
          rw [stringsEnd_of_doubleNul ((doubleNul_of_drop h).mpr ⟨hb, hc⟩)]
          exact (Option.some.inj hskip).symm
        · rw [if_pos hc] at hskip
          obtain ⟨_, -, hskip⟩ := Option.bind_eq_some_iff.mp hskip
          rw [stringsEnd_succ (mt (doubleNul_of_drop h).mp fun hbc => hc hbc.2)]
          exact ih hdrop hskip
      · rw [if_pos hb] at hskip
        rw [stringsEnd_succ (mt (doubleNul_of_drop h).mp fun hbc => hb hbc.1)]
        exact ih hdrop hskip

theorem printed_isSome {α : Type*} {level : ℤ} {read : Option α} :
    (printed level verbose read).isSome = true ↔ (level < verbose → read.isSome = true) := by
  unfold printed
  by_cases h : level < verbose
  · simp [h]
  · simp [h]

/-- Without the prints the loops stay inside the table. -/
theorem skipStrings_quiet (hv : ¬ 3 < verbose) (bytes : List UInt8) (s : ℕ) :
    (skipStrings verbose bytes s).isSome = true := by
  induction bytes generalizing s with
  | nil => rfl
  | cons b bytes ih =>
    cases bytes with
    | nil => rfl
    | cons c rest =>
      rw [skipStrings]
      split_ifs
      · exact ih (s + 1)
      · rw [printed, if_neg hv]
        exact ih (s + 1)
      · rfl

/-- The strings that are printed have to end in the table, each at its NUL. -/
theorem skipStrings_printed (hv : 3 < verbose) (h : t.drop s = bytes) :
    (readString bytes).isSome = true ∧ (skipStrings verbose bytes s).isSome = true ↔
      (stringsEnd t s).isSome = true ∨ bytes.getLast? = some 0 := by
  rw [readString_isSome]
  induction bytes generalizing s with
  | nil =>
    rw [stringsEnd_of_short (by simp [h])]
    simp
  | cons b bytes ih =>
    cases bytes with
    | nil =>
      rw [stringsEnd_of_short (by simp [h])]
      simp [skipStrings, eq_comm]
    | cons c rest =>
      have ih := ih (drop_succ_of_drop h)
      rw [List.getLast?_cons_cons, skipStrings]
      by_cases hb : b = 0
      · rw [if_neg (not_not.mpr hb)]
        by_cases hc : c = 0
        · rw [if_neg (not_not.mpr hc),
            stringsEnd_of_doubleNul ((doubleNul_of_drop h).mpr ⟨hb, hc⟩)]
          simp [hb]
        · rw [if_pos hc, stringsEnd_succ (mt (doubleNul_of_drop h).mp fun hbc => hc hbc.2), ← ih,
            printed, if_pos hv]
          cases hread : readString (c :: rest) with
          | none =>
            have hnul := mt readString_isSome.mpr (by rw [hread]; exact Bool.false_ne_true)
            simp only [hnul, false_and, iff_false, not_and]
            exact fun _ => Bool.false_ne_true
          | some text =>
            have hnul := readString_isSome.mp (by rw [hread]; rfl)
            exact and_congr_left fun _ => iff_of_true (by simp [hb]) hnul
      · rw [if_pos hb, stringsEnd_succ (mt (doubleNul_of_drop h).mp fun hbc => hb hbc.1), ← ih]
        refine and_congr_left fun _ => ?_
        rw [List.mem_cons, or_iff_right (Ne.symm hb)]

/-- The strings of an entry are printed within the table. -/
theorem strings_printed (hv : 3 < verbose) :
    (readString (t.drop s)).isSome = true ∧ (skipStrings verbose (t.drop s) s).isSome = true ↔
      (stringsEnd t s).isSome = true ∨ s < t.length ∧ t.getLast? = some 0 := by
  rw [skipStrings_printed hv rfl]
  refine or_congr_right ?_
  by_cases hs : s < t.length
  · rw [List.getLast?_drop, if_neg (by omega), and_iff_right hs]
  · rw [List.drop_eq_nil_of_le (by omega)]
    simp [hs]

theorem nextEntry_of_length {length : UInt8} (h : lengthOf t e = some length) :
    nextEntry t e = (stringsEnd t (e + length.toNat)).map (· + 2) := by
  rw [nextEntry, h]
  cases hend : stringsEnd t (e + length.toNat) <;> simp [hend]

/-- What `check_entry` does, step by step. -/
theorem checkEntry_eq_some {r : Option ℕ} : checkEntry t verbose e = some r ↔
    ∃ length, lengthOf t e = some length ∧ (printed 3 verbose (handleOf t e)).isSome = true ∧
      (printed 3 verbose (readString (t.drop (e + length.toNat)))).isSome = true ∧
      skipStrings verbose (t.drop (e + length.toNat)) (e + length.toNat) = some r ∧
      (r = none → (printed 0 verbose (handleOf t e)).isSome = true) := by
  have hlast : ∀ next : Option ℕ,
      ((if next = none then (printed 0 verbose (handleOf t e)).bind fun _ => some next
        else some next) = some r) ↔
      next = r ∧ (r = none → (printed 0 verbose (handleOf t e)).isSome = true) := by
    intro next
    cases next with
    | none => cases printed 0 verbose (handleOf t e) <;> simp [eq_comm]
    | some next =>
      rw [if_neg (Option.some_ne_none next)]
      refine ⟨fun heq => ?_, fun heq => congrArg some heq.1⟩
      exact ⟨Option.some.inj heq, fun hnone => by rw [hnone] at heq; cases heq⟩
  simp only [checkEntry, Option.bind_eq_bind, Option.bind_eq_some_iff, Option.pure_def]
  refine exists_congr fun length => and_congr_right fun _ => ?_
  cases printed 3 verbose (handleOf t e) with
  | none => simp
  | some _ =>
    cases printed 3 verbose (readString (t.drop (e + length.toNat))) with
    | none => simp
    | some _ =>
      simp only [Option.isSome_some, true_and, hlast]
      constructor
      · rintro ⟨_, _, next, hskip, rfl, hprint⟩
        exact ⟨hskip, hprint⟩
      · rintro ⟨hskip, hprint⟩
        exact ⟨(), (), r, hskip, rfl, hprint⟩

/-- `check_entry` finds the end of the entry, unless it reads outside the table. -/
theorem checkEntry_agrees {r : Option ℕ} (h : checkEntry t verbose e = some r) :
    r = nextEntry t e := by
  obtain ⟨length, hlength, -, -, hskip, -⟩ := checkEntry_eq_some.mp h
  rw [skipStrings_agrees rfl hskip, nextEntry_of_length hlength]

theorem lengthOf_isSome : (lengthOf t e).isSome = true ↔ e + 2 ≤ t.length := by
  rw [lengthOf, isSome_getElem?]
  omega

theorem handleOf_isSome : (handleOf t e).isSome = true ↔ e + 4 ≤ t.length := readShort_isSome

theorem nextEntry_isSome {length : UInt8} (h : lengthOf t e = some length) :
    (nextEntry t e).isSome = (stringsEnd t (e + length.toNat)).isSome := by
  rw [nextEntry_of_length h, Option.isSome_map]

/-- `check_entry` stays inside the table where the header does. -/
theorem checkEntry_of_headerInside (h : HeaderInside t verbose e) :
    checkEntry t verbose e = some (nextEntry t e) := by
  obtain ⟨length, hlength⟩ := Option.isSome_iff_exists.mp (lengthOf_isSome.mpr h.fields)
  have hhandle (hv : 0 < verbose) : (handleOf t e).isSome = true :=
    handleOf_isSome.mpr (h.handle (Or.inr hv))
  have hstrings : (printed 3 verbose (readString (t.drop (e + length.toNat)))).isSome = true ∧
      (skipStrings verbose (t.drop (e + length.toNat)) (e + length.toNat)).isSome = true := by
    by_cases hv : 3 < verbose
    · have hend : (stringsEnd t (e + length.toNat)).isSome = true ∨
          e + length.toNat < t.length ∧ t.getLast? = some 0 := by
        rcases h.strings hv with hnext | ⟨⟨length', hlength', hlt⟩, hlast⟩
        · exact Or.inl (nextEntry_isSome hlength ▸ hnext)
        · rw [hlength, Option.some.injEq] at hlength'
          exact Or.inr ⟨hlength' ▸ hlt, hlast⟩
      obtain ⟨hread, hskip⟩ := (strings_printed hv).mpr hend
      exact ⟨printed_isSome.mpr fun _ => hread, hskip⟩
    · exact ⟨printed_isSome.mpr fun hv' => absurd hv' hv, skipStrings_quiet hv _ _⟩
  obtain ⟨r, hskip⟩ := Option.isSome_iff_exists.mp hstrings.2
  have hr : r = nextEntry t e := by
    rw [skipStrings_agrees rfl hskip, nextEntry_of_length hlength]
  rw [checkEntry_eq_some, ← hr]
  exact ⟨length, hlength, printed_isSome.mpr fun hv => hhandle (by omega), hstrings.1, hskip,
    fun _ => printed_isSome.mpr hhandle⟩

/-- An entry that was checked, and whose handle is read if it is complete. -/
theorem headerInside_of_checkEntry (hcheck : checkEntry t verbose e = some (nextEntry t e))
    (hhandle : (nextEntry t e).isSome = true → (handleOf t e).isSome = true) :
    HeaderInside t verbose e := by
  obtain ⟨length, hlength, -, hread, hskip, hprint⟩ := checkEntry_eq_some.mp hcheck
  refine ⟨lengthOf_isSome.mp (by rw [hlength]; rfl), fun hread => handleOf_isSome.mp ?_,
    fun hv => ?_⟩
  · by_cases hnext : (nextEntry t e).isSome = true
    · exact hhandle hnext
    · have hv := hread.resolve_left hnext
      exact printed_isSome.mp (hprint (Option.not_isSome_iff_eq_none.mp hnext)) hv
  · rw [nextEntry_isSome hlength]
    have hend := (strings_printed hv).mp
      ⟨printed_isSome.mp hread hv, Option.isSome_iff_exists.mpr ⟨_, hskip⟩⟩
    exact hend.imp_right fun ⟨hlt, hlast⟩ => ⟨⟨length, hlength, hlt⟩, hlast⟩

/-- The entry behind another one lies further on. -/
theorem lt_of_nextEntry {next : ℕ} (h : nextEntry t e = some next) :
    ∃ length p, lengthOf t e = some length ∧ e + length.toNat ≤ p ∧ next = p + 2 ∧
      p + 2 ≤ t.length ∧ t[p]? = some 0 ∧ t[p + 1]? = some 0 := by
  obtain ⟨length, hlength, hnext⟩ := Option.bind_eq_some_iff.mp h
  obtain ⟨p, hend, hp⟩ := Option.bind_eq_some_iff.mp hnext
  obtain ⟨hle, hnul⟩ := mem_of_stringsEnd hend
  exact ⟨length, p, hlength, hle, (Option.some.inj hp).symm, hnul.lt, hnul.1, hnul.2⟩

/-! ## The loops -/

theorem fillHandle_isSome {m : HandleMap} :
    (fillHandle t m e).isSome = true ↔ (handleOf t e).isSome = true := by
  rw [fillHandle]
  cases handleOf t e <;> simp

/-- The body of `dmi_collect` reads inside an entry that `check_entry` has accepted. -/
theorem collectEntry_isSome {type : DmiType} {minsize : ℕ} (h : HeaderInside t verbose e)
    (hnext : (nextEntry t e).isSome = true) (hsize : type = .memoryDevice → 12 ≤ minsize)
    (r : List ℕ) : (collectEntry t verbose type minsize r e).isSome = true := by
  obtain ⟨next, hnext⟩ := Option.isSome_iff_exists.mp hnext
  obtain ⟨length, p, hlength, hle, -, hin, -⟩ := lt_of_nextEntry hnext
  have hprint : printed 0 verbose (handleOf t e) = some () := by
    have hread := handleOf_isSome.mpr (h.handle (Or.inl (by rw [hnext]; rfl)))
    exact Option.eq_some_of_isSome (printed_isSome.mpr fun _ => hread)
  obtain ⟨found, hfound⟩ : ∃ found, typeOf t e = some found :=
    ⟨_, List.getElem?_eq_getElem (by omega)⟩
  rw [collectEntry, hfound, hlength, hprint]
  simp only [Option.bind_eq_bind, Option.bind_some, Option.pure_def, Bool.false_eq_true, if_false]
  split_ifs with htype hmin hdevice
  · rfl
  · rfl
  · have hsize' := hsize hdevice
    have hin' : (readShort t (e + 12)).isSome = true := readShort_isSome.mpr (by omega)
    obtain ⟨size, hread⟩ := Option.isSome_iff_exists.mp hin'
    rw [hread, Option.map_some, Option.bind_some]
    split_ifs <;> rfl
  · rfl

/-- Every check goes well where every header is in the table. -/
theorem checks_of_headers (h : ∀ e ∈ reached (nextEntry t) n 0, HeaderInside t verbose e) :
    ∀ e ∈ reached (nextEntry t) n 0, checkEntry t verbose e = some (nextEntry t e) :=
  fun e he => checkEntry_of_headerInside (h e he)

/-- A handle map says that every header was in the table. -/
theorem headers_of_fillHandles (h : (fillHandles t verbose n).isSome = true) :
    ∀ e ∈ reached (nextEntry t) n 0, HeaderInside t verbose e := by
  obtain ⟨m, hm⟩ := Option.isSome_iff_exists.mp h
  rw [fillHandles] at hm
  have hchecks := check_of_walk (fun _ _ => checkEntry_agrees) hm
  rw [walk_eq_foldlM hchecks] at hm
  intro e he
  refine headerInside_of_checkEntry (hchecks e he) fun hnext => ?_
  obtain ⟨_, hbody⟩ := body_of_foldlM hm e (mem_passed.mpr ⟨he, hnext⟩)
  exact fillHandle_isSome.mp hbody

/-- The loop of `fill_handles` stays inside the table. -/
theorem fillHandles_of_headers (h : ∀ e ∈ reached (nextEntry t) n 0, HeaderInside t verbose e) :
    (fillHandles t verbose n).isSome = true := by
  rw [fillHandles, walk_eq_foldlM (checks_of_headers h)]
  refine foldlM_isSome (fun e he _ => fillHandle_isSome.mpr ?_) _
  obtain ⟨hreached, hnext⟩ := mem_passed.mp he
  exact handleOf_isSome.mpr ((h e hreached).handle (Or.inl hnext))

/-- The loop of `dmi_collect` stays inside the table. -/
theorem dmiCollect_of_headers {type : DmiType} {minsize : ℕ}
    (h : ∀ e ∈ reached (nextEntry t) n 0, HeaderInside t verbose e)
    (hsize : type = .memoryDevice → 12 ≤ minsize) :
    (dmiCollect t verbose n type minsize).isSome = true := by
  rw [dmiCollect, walk_eq_foldlM (checks_of_headers h)]
  refine foldlM_isSome (fun e he r => ?_) _
  obtain ⟨hreached, hnext⟩ := mem_passed.mp he
  exact collectEntry_isSome (h e hreached) hnext hsize r

/-- The loops go forward. -/
theorem visited_pairwise (t : Table) (verbose : ℤ) (n : ℕ) :
    (visited t verbose n).Pairwise (· < ·) := by
  refine (reached_pairwise (r := (· < ·)) Nat.lt_trans (fun e next hnext => ?_) n 0).1
  obtain ⟨r, hcheck, hr⟩ : ∃ r, checkEntry t verbose e = some r ∧ r = some next := by
    cases hcheck : checkEntry t verbose e with
    | none => rw [hcheck] at hnext; cases hnext
    | some r => rw [hcheck] at hnext; exact ⟨r, rfl, hnext⟩
  obtain ⟨length, p, -, hle, rfl, -⟩ := lt_of_nextEntry ((checkEntry_agrees hcheck).symm.trans hr)
  omega

/-- **The bytes that the walk reads.** Whatever the table and the number of entries are, the
    entries ascend and an accepted one lies in the table. All reads of `check_entry`,
    `fill_handles` and `dmi_collect` are in the table exactly when the header of every entry
    that is come to is. -/
theorem walk_inside_iff (t : Table) (verbose : ℤ) (numentries : ℕ) :
    WalkInside t verbose numentries ↔
      ∀ e ∈ reached (nextEntry t) numentries 0, HeaderInside t verbose e := by
  constructor
  · intro h
    exact headers_of_fillHandles h.handles
  · intro h
    refine ⟨fillHandles_of_headers h, fun type => ?_, visited_pairwise _ _ _,
      fun e next hcheck => ?_⟩
    · refine dmiCollect_of_headers h fun hdevice => ?_
      rw [hdevice]
      decide
    · exact lt_of_nextEntry (checkEntry_agrees hcheck).symm

/-- An end-of-table entry of six bytes in a table that should have two entries: the length of
    the second one is read behind the end. -/
theorem numentries_2_reads_outside : checkEntry [127, 4, 0, 0, 0, 0] 0 0 = some (some 6) ∧
    checkEntry [127, 4, 0, 0, 0, 0] 0 6 = none ∧ ¬ WalkInside [127, 4, 0, 0, 0, 0] 0 2 := by
  refine ⟨by decide, by decide, fun h => ?_⟩
  have hread := h.handles
  revert hread
  decide

end

end Mcelog.Dmi
