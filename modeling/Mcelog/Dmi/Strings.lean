import Mcelog.Dmi.Sanity
import Mcelog.Dmi.Walk

/-!
# Validated strings are found

`check_entry` walks over the strings of an entry, bounded by the end of the table.
`dmi_getstring` walks over them again to find one by its number, and relies on the checks of
`check_entry` for its bounds.

* `skipStrings_layout`: the bytes that `check_entry` has walked over.
* `findString_layout`: `dmi_getstring` on such bytes, whatever follows them.
* `dmi_getstring_agrees`: the two agree on every accepted entry.
-/

namespace Mcelog.Dmi

open Mcelog.Common

/-! ## The strings of an entry -/

/-- The strings that the loops of `check_entry` walk over, with the bytes `text` of the current
    one so far (dmi.c:93-109): none where the entry is truncated. -/
def walkStrings : List UInt8 → List UInt8 → Option (List (List UInt8))
  | text, b :: c :: rest =>
    -- `while (s < end-1 && *s)`
    if b ≠ 0 then walkStrings (text ++ [b]) (c :: rest)
    -- `while (*s)`
    else if c ≠ 0 then (walkStrings [] (c :: rest)).map (text :: ·)
    else some [text]
  | _, _ => none

/-- Strings as they lie in the table: each one with its NUL, and a NUL behind the last one. -/
def layout (strings : List (List UInt8)) : List UInt8 := strings.flatMap (· ++ [0]) ++ [0]

/-- Strings that can lie in the table: no NUL is in them, and only the first one can be empty. -/
structure Laid (strings : List (List UInt8)) : Prop where
  noNul : ∀ text ∈ strings, 0 ∉ text
  later : ∀ text ∈ strings.tail, text ≠ []

/-- `dmi_getstring` finds the strings that `check_entry` has walked over, from `s` to the NUL
    before `next` where it stopped, and reads nothing behind. -/
structure StringsAgree (t : Table) (s next : ℕ) (strings : List (List UInt8)) : Prop where
  walked : walkStrings [] (t.drop s) = some strings
  nonempty : strings ≠ []
  laid : Laid strings
  bytes : (t.take next).drop s = layout strings
  stopped : t[next - 1]? = some 0
  zero : dmiGetstring (t.drop s) 0 = some (some [])
  found : ∀ number, 1 ≤ number → dmiGetstring (t.drop s) number = some strings[number - 1]?
  inside : ∀ number,
    dmiGetstring ((t.take next).drop s) number = dmiGetstring (t.drop s) number

section

variable {t : Table} {verbose : ℤ} {e s next : ℕ} {bytes behind first : List UInt8}
  {strings rest : List (List UInt8)}

theorem layout_cons (first : List UInt8) (rest : List (List UInt8)) :
    layout (first :: rest) = first ++ 0 :: layout rest := by
  simp [layout]

theorem Laid.tail (h : Laid (first :: rest)) : Laid rest :=
  ⟨fun text htext => h.noNul text (List.mem_cons_of_mem _ htext),
    fun text htext => h.later text (List.mem_of_mem_tail htext)⟩

/-! ## What `check_entry` walks over -/

/-- A string is extended by a byte in front. -/
theorem Laid.cons_byte {b : UInt8} (hb : b ≠ 0) (h : Laid (first :: rest)) :
    Laid ((b :: first) :: rest) := by
  refine ⟨fun text htext hmem => ?_, h.later⟩
  rcases List.mem_cons.mp htext with rfl | htext
  · rcases List.mem_cons.mp hmem with heq | hmem
    · exact hb heq.symm
    · exact h.noNul first List.mem_cons_self hmem
  · exact h.noNul text (List.mem_cons_of_mem _ htext) hmem

/-- An empty string may only stand in front of all others. -/
theorem Laid.cons_nil (hfirst : first ≠ []) (h : Laid (first :: rest)) :
    Laid ([] :: first :: rest) := by
  refine ⟨fun text htext => ?_, fun text htext => ?_⟩
  · rcases List.mem_cons.mp htext with rfl | htext
    · exact List.not_mem_nil
    · exact h.noNul text htext
  · rcases List.mem_cons.mp htext with rfl | htext
    · exact hfirst
    · exact h.later text htext

/-- The bytes that the loops have walked over are strings, and they end where the loops did. -/
theorem skipStrings_layout (h : skipStrings verbose bytes s = some (some next)) :
    ∃ first rest behind, (∀ text, walkStrings text bytes = some ((text ++ first) :: rest)) ∧
      Laid (first :: rest) ∧ bytes = layout (first :: rest) ++ behind ∧
      next = s + (layout (first :: rest)).length := by
  induction bytes generalizing s with
  | nil => cases h
  | cons b bytes ih =>
    cases bytes with
    | nil => cases h
    | cons c bytes =>
      rw [skipStrings] at h
      by_cases hb : b = 0
      · rw [if_neg (not_not.mpr hb)] at h
        by_cases hc : c = 0
        · -- the last string ends here
          rw [if_neg (not_not.mpr hc), Option.some.injEq, Option.some.injEq] at h
          refine ⟨[], [], bytes, fun text => ?_, ⟨by simp, by simp⟩, ?_, h.symm⟩
          · rw [walkStrings, if_neg (not_not.mpr hb), if_neg (not_not.mpr hc), List.append_nil]
          · rw [hb, hc]
            rfl
        · rw [if_pos hc] at h
          obtain ⟨_, -, h⟩ := Option.bind_eq_some_iff.mp h
          obtain ⟨first, rest, behind, hwalk, hlaid, hbytes, hnext⟩ := ih h
          refine ⟨[], first :: rest, behind, fun text => ?_, ?_, ?_, ?_⟩
          · rw [walkStrings, if_neg (not_not.mpr hb), if_pos hc, hwalk, List.append_nil]
            rfl
          · have hfirst : first ≠ [] := by
              rintro rfl
              rw [layout_cons] at hbytes
              exact hc (List.cons.inj hbytes).1
            exact hlaid.cons_nil hfirst
          · rw [layout_cons, hbytes, hb]
            rfl
          · rw [layout_cons, hnext, List.length_append, List.length_cons, List.length_nil]
            omega
      · rw [if_pos hb] at h
        obtain ⟨first, rest, behind, hwalk, hlaid, hbytes, hnext⟩ := ih h
        refine ⟨b :: first, rest, behind, fun text => ?_, hlaid.cons_byte hb, ?_, ?_⟩
        · rw [walkStrings, if_pos hb, hwalk, List.append_assoc]
          rfl
        · rw [hbytes, layout_cons, layout_cons]
          rfl
        · rw [hnext, layout_cons, layout_cons, List.cons_append, List.length_cons]
          omega

/-! ## What `dmi_getstring` finds -/

/-- A string is read up to its NUL. -/
theorem readString_append (h : 0 ∉ first) (behind : List UInt8) :
    readString (first ++ 0 :: behind) = some first := by
  rw [readString, if_pos (by simp), List.takeWhile_append_of_pos]
  · simp
  · intro c hc
    refine decide_eq_true fun hzero => h ?_
    rw [← hzero]
    exact hc

theorem readString_layout (h : Laid (first :: rest)) (behind : List UInt8) :
    readString (layout (first :: rest) ++ behind) = some first := by
  rw [layout_cons, List.append_assoc, List.cons_append]
  exact readString_append (h.noNul first List.mem_cons_self) _

theorem drop_layout (first : List UInt8) (rest : List (List UInt8)) (behind : List UInt8) :
    (layout (first :: rest) ++ behind).drop (first.length + 1) = layout rest ++ behind := by
  rw [layout_cons, List.append_assoc, ← List.drop_drop, List.drop_left]
  rfl

/-- The loop finds a string by its number, or the NUL behind the last one. -/
theorem findString_layout (h : Laid (first :: rest)) (number : ℕ) (behind : List UInt8) :
    findString number (layout (first :: rest) ++ behind) = some (first :: rest)[number]? := by
  induction number generalizing first rest with
  | zero =>
    rw [findString, readString_layout h]
    rfl
  | succ number ih =>
    rw [findString, readString_layout h]
    simp only [Option.bind_eq_bind, Option.bind_some, drop_layout]
    cases rest with
    | nil => rfl
    | cons next rest =>
      -- the next string is not empty, and its first byte is not taken for the last NUL
      obtain ⟨b, text, rfl⟩ := List.exists_cons_of_ne_nil (h.later next List.mem_cons_self)
      have hb : b ≠ 0 := by
        rintro rfl
        exact h.noNul _ (List.mem_cons_of_mem _ List.mem_cons_self) List.mem_cons_self
      have hhead : (layout ((b :: text) :: rest) ++ behind)[0]? = some b := by
        rw [layout_cons]
        rfl
      rw [hhead, Option.bind_some, if_neg hb, ih h.tail]
      rfl

theorem dmiGetstring_layout (h : Laid strings) (hne : strings ≠ []) {number : ℕ}
    (hnumber : 1 ≤ number) (behind : List UInt8) :
    dmiGetstring (layout strings ++ behind) number = some strings[number - 1]? := by
  obtain ⟨first, rest, rfl⟩ := List.exists_cons_of_ne_nil hne
  rw [dmiGetstring, if_neg (by omega), findString_layout h]

/-! ## Agreement -/

/-- **String lookup agrees with entry validation.** For every accepted entry, the bytes behind
    its formatted area are the strings that `check_entry` walked over. `dmi_getstring` finds
    each one by its number, NULL for the numbers behind, and the empty string for 0, within
    these bytes. -/
theorem dmi_getstring_agrees (h : checkEntry t verbose e = some (some next)) :
    ∃ length strings, lengthOf t e = some length ∧
      StringsAgree t (e + length.toNat) next strings := by
  obtain ⟨length, hlength, -, -, hskip, -⟩ := checkEntry_eq_some.mp h
  obtain ⟨first, rest, behind, hwalk, hlaid, hbytes, hnext⟩ := skipStrings_layout hskip
  refine ⟨length, first :: rest, hlength, ?_⟩
  have htake : (t.take next).drop (e + length.toNat) = layout (first :: rest) := by
    rw [List.drop_take, hbytes, hnext, Nat.add_sub_cancel_left, List.take_left]
  have hfound (number : ℕ) (hnumber : 1 ≤ number) (behind : List UInt8) :
      dmiGetstring (layout (first :: rest) ++ behind) number =
        some (first :: rest)[number - 1]? :=
    dmiGetstring_layout hlaid (List.cons_ne_nil _ _) hnumber behind
  refine ⟨hwalk [], List.cons_ne_nil _ _, hlaid, htake, ?_, rfl, fun number hnumber => ?_,
    fun number => ?_⟩
  · obtain ⟨_, p, -, -, hp, -, -, hnul⟩ := lt_of_nextEntry (checkEntry_agrees h).symm
    rw [hp]
    exact hnul
  · rw [hbytes, hfound number hnumber]
  · rcases Nat.eq_zero_or_pos number with rfl | hnumber
    · rfl
    · rw [htake, hbytes, hfound number hnumber, ← List.append_nil (layout _),
        hfound number hnumber]

/-- An entry with two strings, of which the first one is empty. -/
def emptyString : Table := [1, 4, 0, 0, 0, 65, 0, 0, 66]

theorem empty_string_first : checkEntry emptyString 0 0 = some (some 8) ∧
    ∃ length strings, lengthOf emptyString 0 = some length ∧
      StringsAgree emptyString (0 + length.toNat) 8 strings :=
  ⟨by decide, dmi_getstring_agrees (show checkEntry emptyString 0 0 = some (some 8) by decide)⟩

end

end Mcelog.Dmi
