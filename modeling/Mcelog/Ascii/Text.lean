import Mcelog.Ascii.Tokens

/-!
# Texts of several lines

What `decodefatal` makes of a text, line by line.

* `decodedFrom_line`: a text is its first line and the rest.
* `decodedFrom_reaches`, `decodedFrom_unknown`: a line whose fields are read to its
  end, and a line that ends the record.
* `decodedFrom_ne_nil`: once a field has been read, a record follows.
-/

namespace Mcelog.Ascii

open Mcelog.Common Mcelog.Machine

/-- The machine checks that `decodefatal` decodes from `text` in the state `st`. -/
def decodedFrom (env : AsciiEnv) (st : Decoder) (text : List Char) : List Mce :=
  (finals (decodeLines env st (getdelimLines text))).map AsciiRecord.m

theorem finals_append (outs outs' : List AsciiOut) :
    finals (outs ++ outs') = finals outs ++ finals outs' := List.filterMap_append

@[simp] theorem finals_dumpMceFinal (r : AsciiRecord) (outs : List AsciiOut) :
    finals (dumpMceFinal r :: outs) = { r with m := { r.m with finished := 1 } } :: finals outs :=
  rfl

/-! ## The first line -/

section Line

variable {env : AsciiEnv} {st : Decoder} {line text : List Char}

/-- A line with its newline, as `getdelim` reads it. -/
def IsLine (line : List Char) : Prop := ∃ l, line = l ++ ['\n'] ∧ '\n' ∉ l ∧ '\x00' ∉ l

theorem getdelimLines_line (h : IsLine line) (text : List Char) :
    getdelimLines (line ++ text) = line :: getdelimLines text := by
  obtain ⟨l, rfl, hnl, hnul⟩ := h
  have hcut : (l ++ ['\n']).takeWhile (fun c => decide (c ≠ '\x00')) = l ++ ['\n'] := by
    rw [List.takeWhile_eq_self_iff]
    intro c hc
    refine decide_eq_true ?_
    rintro rfl
    rcases List.mem_append.mp hc with hc | hc
    · exact hnul hc
    · exact absurd hc (by decide)
  unfold getdelimLines
  rw [List.append_assoc, List.singleton_append, lines_line_append hnl, rest_line_append hnl,
    List.map_cons, List.cons_append, List.map_cons, hcut]

theorem decodeLines_cons (env : AsciiEnv) (st : Decoder) (line : List Char)
    (ls : List (List Char)) : decodeLines env st (line :: ls) =
      (decodeLine env st line).2 ++ decodeLines env (decodeLine env st line).1 ls := by
  unfold decodeLines
  rw [runState_cons, runOut_cons, List.flatten_cons, List.append_assoc]

/-- A text is its first line and the rest. -/
theorem decodedFrom_line (h : IsLine line) (env : AsciiEnv) (st : Decoder) (text : List Char) :
    decodedFrom env st (line ++ text) =
      (finals (decodeLine env st line).2).map AsciiRecord.m ++
        decodedFrom env (decodeLine env st line).1 text := by
  rw [decodedFrom, getdelimLines_line h, decodeLines_cons, finals_append, List.map_append]
  rfl

theorem decodedFrom_nil (env : AsciiEnv) (st : Decoder) :
    decodedFrom env st [] = if st.data then [{ st.record.m with finished := 1 }] else [] := by
  unfold decodedFrom getdelimLines decodeLines
  cases hdata : st.data <;> simp [lines, rest, hdata, finals, dumpMceFinal]

variable {left start : List Char} {read : Bool} {change : Mce → Mce}

/-- A line whose fields are read to its end. -/
theorem decodedFrom_reaches (hline : IsLine line) (h : Reaches env line left read change)
    (hleft : skipgunk left = []) (st : Decoder) (text : List Char) :
    ∃ r, r.m = change st.record.m ∧
      decodedFrom env st (line ++ text) = decodedFrom env ⟨r, st.data || read⟩ text := by
  obtain ⟨r, hr, heq⟩ := h st
  refine ⟨r, hr, ?_⟩
  rw [decodedFrom_line hline, heq, decodeLine_blank hleft]
  simp

/-- A line with a token that is not known ends the record. -/
theorem decodedFrom_unknown (hline : IsLine line) (h : Reaches env line left read change)
    (hleft : skipgunk left = start) (hne : start ≠ []) (ht : ∀ r, token env r start = none)
    (hdata : (st.data || read) = true) (text : List Char) :
    decodedFrom env st (line ++ text) =
      { change st.record.m with finished := 1 } :: decodedFrom env {} text := by
  obtain ⟨r, hr, heq⟩ := h st
  rw [decodedFrom_line hline, heq, decodeLine_unknown hleft (ht r) hne hdata, ← hr]
  simp

end Line

/-! ## No record is lost -/

section Data

variable {env : AsciiEnv} {st : Decoder}

theorem decodeToken_data (env : AsciiEnv) (s : List Char) (hdata : st.data = true) :
    (decodeToken env st s).1.data = true ∨ finals (decodeToken env st s).2.1 ≠ [] := by
  unfold decodeToken
  dsimp only
  split
  · exact Or.inl (by simp [hdata])
  · by_cases hend : skipgunk s ≠ [] ∧ st.data = true
    · rw [if_pos hend]
      exact Or.inr (by simp)
    · rw [if_neg hend]
      exact Or.inl hdata

/-- A line keeps what has been read, or prints it. -/
theorem decodeLine_data (env : AsciiEnv) (s : List Char) (hdata : st.data = true) :
    (decodeLine env st s).1.data = true ∨ finals (decodeLine env st s).2 ≠ [] := by
  induction hlen : s.length using Nat.strong_induction_on generalizing s st with
  | _ n ih =>
    have htoken := decodeToken_data env s hdata
    rw [decodeLine_eq]
    rcases htok : decodeToken env st s with ⟨st', outs, _ | left⟩
    · rw [htok] at htoken
      exact htoken
    · rw [htok] at htoken
      dsimp only at htoken ⊢
      rw [finals_append]
      rcases htoken with hdata' | hfinals
      · have hleft := decodeToken_rest htok
        exact (ih left.length (by omega) left hdata' rfl).imp id (by simp +contextual)
      · exact Or.inr (by simp [hfinals])

theorem decodeLines_data (ls : List (List Char)) (hdata : st.data = true) :
    finals (decodeLines env st ls) ≠ [] := by
  induction ls generalizing st with
  | nil => simp [decodeLines, hdata]
  | cons line ls ih =>
    rw [decodeLines_cons, finals_append]
    rcases decodeLine_data env line hdata with hdata' | hfinals
    · simp [ih hdata']
    · simp [hfinals]

/-- Once a field has been read, a record follows, whatever the rest of the text
    is. -/
theorem decodedFrom_ne_nil (hdata : st.data = true) (text : List Char) :
    decodedFrom env st text ≠ [] := by
  unfold decodedFrom
  simpa using decodeLines_data _ hdata

/-- A text whose first line has a field gives a record. -/
theorem decodedFrom_ne_nil_of_reaches {line left : List Char} {change : Mce → Mce}
    (hline : IsLine line) (h : Reaches env line left true change) (text : List Char) :
    decodedFrom env st (line ++ text) ≠ [] := by
  obtain ⟨r, -, heq⟩ := h st
  rw [decodedFrom_line hline, heq, Bool.or_true]
  have hdata : (⟨r, true⟩ : Decoder).data = true := rfl
  rcases decodeLine_data env left hdata with hdata | hfinals
  · simp [decodedFrom_ne_nil hdata]
  · simp [hfinals]

end Data

end Mcelog.Ascii
