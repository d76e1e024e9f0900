import Mathlib.Data.List.DropRight
import Mcelog.Common.Scanf

/-!
# C strings in a buffer

A buffer is the list of its bytes, and a pointer into it is an index. `HasStr buf off text`
says that the C string at `off` is `text`: its characters stand there with a NUL behind
them. The functions that edit strings in place are described by the strings that they
leave behind.

* `HasStr.cut`: a NUL written into a string leaves one string before it and one behind it.
* `HasStr.strchr_eq_none`, `HasStr.strchr_eq_some`: searching a character.
* `HasStr.trimBack`: the white space at the end of a string is overwritten by NULs;
  `trimBack_frame`: everything outside the string stays.
-/

namespace Mcelog.Common

/-! ## Strings -/

/-- The C string at `off` is `text`. -/
def HasStr (buf : List Char) (off : ℕ) (text : List Char) : Prop :=
  '\x00' ∉ text ∧ text ++ ['\x00'] <+: buf.drop off

/-- The C string at `off`. -/
def cstr (buf : List Char) (off : ℕ) : List Char := (buf.drop off).takeWhile (· ≠ '\x00')

/-- `buf[i]` -/
def charAt (buf : List Char) (i : ℕ) : Char := buf.getD i '\x00'

section

variable {buf buf' a b text : List Char} {off i : ℕ} {c : Char}

theorem hasStr_iff : HasStr buf off text ↔
    '\x00' ∉ text ∧ ∀ i ≤ text.length, buf[off + i]? = (text ++ ['\x00'])[i]? := by
  unfold HasStr
  refine and_congr_right fun _ => ?_
  rw [List.prefix_iff_getElem?]
  constructor
  · intro h i hi
    rw [← List.getElem?_drop, h i (by simp; omega), List.getElem?_eq_getElem]
  · intro h i hi
    rw [List.getElem?_drop, h i (by simp at hi; omega), List.getElem?_eq_getElem hi]

theorem HasStr.cstr_eq (h : HasStr buf off text) : cstr buf off = text := by
  obtain ⟨hnul, t, ht⟩ := h
  rw [cstr, ← ht, List.append_assoc, List.takeWhile_append_of_pos]
  · simp
  · intro c hc
    exact decide_eq_true fun heq => hnul (heq ▸ hc)

/-- The line that was just read. -/
theorem hasStr_of_append (h : '\x00' ∉ text) (a : List Char) :
    HasStr (text ++ '\x00' :: a) 0 text :=
  ⟨h, a, by simp⟩

/-- What a string is depends on its own bytes only. -/
theorem HasStr.congr (h : HasStr buf off text)
    (hsame : ∀ i, off ≤ i → i ≤ off + text.length → buf'[i]? = buf[i]?) :
    HasStr buf' off text := by
  rw [hasStr_iff] at h ⊢
  refine ⟨h.1, fun i hi => ?_⟩
  rw [hsame (off + i) (by omega) (by omega)]
  exact h.2 i hi

/-- The end of a string is a string. -/
theorem HasStr.drop (h : HasStr buf off (a ++ b)) : HasStr buf (off + a.length) b := by
  rw [hasStr_iff] at h ⊢
  refine ⟨fun hmem => h.1 (List.mem_append_right _ hmem), fun i hi => ?_⟩
  rw [Nat.add_assoc, h.2 (a.length + i) (by simp; omega), List.append_assoc,
    List.getElem?_append_right (by omega), Nat.add_sub_cancel_left]

/-- A NUL ends the string where it is written. -/
theorem HasStr.cut_left (h : HasStr buf off (a ++ c :: b)) :
    HasStr (buf.set (off + a.length) '\x00') off a := by
  rw [hasStr_iff] at h ⊢
  refine ⟨fun hmem => h.1 (List.mem_append_left _ hmem), fun i hi => ?_⟩
  have hlast := h.2 a.length (by simp)
  have hbuf := h.2 i (by simp; omega)
  rcases Nat.lt_or_eq_of_le hi with hlt | rfl
  · rw [List.getElem?_set_ne (by omega), hbuf, List.append_assoc, List.getElem?_append_left hlt,
      List.getElem?_append_left hlt]
  · rw [List.getElem?_set_self]
    · simp
    · exact (List.getElem?_eq_some_iff.mp (hlast.trans (by simp : _ = some c))).1

/-- What stood behind it is a string of its own. -/
theorem HasStr.cut_right (h : HasStr buf off (a ++ c :: b)) :
    HasStr (buf.set (off + a.length) '\x00') (off + a.length + 1) b := by
  have hright : HasStr buf (off + (a ++ [c]).length) b :=
    HasStr.drop (by rwa [List.append_assoc])
  rw [List.length_append, List.length_singleton, ← Nat.add_assoc] at hright
  exact hright.congr fun i hi _ => List.getElem?_set_ne (by omega)

theorem HasStr.charAt_eq (h : HasStr buf off text) : charAt buf off = text.headD '\x00' := by
  have h := (hasStr_iff.mp h).2 0 (Nat.zero_le _)
  rw [charAt, List.getD_eq_getElem?_getD, show buf[off]? = _ from h]
  cases text <;> rfl

/-! ## `strchr` -/

/-- `strchr(buf + off, c)`, for a character other than NUL -/
def strchr (buf : List Char) (off : ℕ) (c : Char) : Option ℕ :=
  ((cstr buf off).findIdx? (· == c)).map (off + ·)

theorem HasStr.strchr_eq_none (h : HasStr buf off text) (hc : c ∉ text) :
    strchr buf off c = none := by
  rw [strchr, h.cstr_eq, Option.map_eq_none_iff, List.findIdx?_eq_none_iff]
  intro x hx
  exact beq_false_of_ne fun heq => hc (heq ▸ hx)

theorem HasStr.strchr_eq_some (h : HasStr buf off (a ++ c :: b)) (hc : c ∉ a) :
    strchr buf off c = some (off + a.length) := by
  have hnone : a.findIdx? (· == c) = none := by
    rw [List.findIdx?_eq_none_iff]
    intro x hx
    exact beq_false_of_ne fun heq => hc (heq ▸ hx)
  rw [strchr, h.cstr_eq, List.findIdx?_append, hnone, List.findIdx?_cons]
  simp

/-! ## White space -/

/-- `while (isspace(*s)) s++` -/
def skipSpaces (buf : List Char) (off : ℕ) : ℕ := off + ((buf.drop off).takeWhile isSpace).length

/-- The text behind the leading white space starts there. -/
theorem HasStr.skipSpaces_eq (h : HasStr buf off text) :
    skipSpaces buf off = off + (text.takeWhile isSpace).length := by
  obtain ⟨-, t, ht⟩ := h
  rw [skipSpaces, ← ht]
  congr 2
  -- The white space ends at the NUL, if not before.
  by_cases hall : ∀ c ∈ text, isSpace c = true
  · rw [List.append_assoc, List.takeWhile_append_of_pos hall]
    have hnul : List.takeWhile isSpace (['\x00'] ++ t) = [] := rfl
    rw [hnul, List.append_nil, List.takeWhile_eq_self_iff.mpr hall]
  · rw [List.append_assoc, List.takeWhile_append, if_neg]
    intro hlen
    have hself : text.takeWhile isSpace = text :=
      (List.takeWhile_prefix _).eq_of_length hlen
    exact hall (List.takeWhile_eq_self_iff.mp hself)

/-- White space is removed at the end of the text in front of `n`, back to `s`. -/
def trimBack (s : ℕ) : ℕ → List Char → List Char
  | 0, buf => buf
  | n + 1, buf =>
    if isSpace (charAt buf n) ∧ s ≤ n then trimBack s n (buf.set n '\x00') else buf

/-- The white space at the end is removed in place. -/
theorem HasStr.trimBack (h : HasStr buf off (a ++ text)) :
    HasStr (trimBack (off + a.length) (off + a.length + text.length) buf) off
      (a ++ text.rdropWhile isSpace) := by
  set s := off + a.length with hs
  -- Character by character from the end: a NUL in its place, or the end of the loop.
  induction text using List.reverseRecOn generalizing buf with
  | nil =>
    have hstop : Common.trimBack s s buf = buf := by
      cases s with
      | zero => rfl
      | succ n => rw [Common.trimBack, if_neg (by omega)]
    rw [List.length_nil, Nat.add_zero, hstop]
    exact h
  | append_singleton text c ih =>
    have hc : HasStr buf (off + (a ++ text).length) [c] := by
      rw [← List.append_assoc] at h
      exact h.drop
    have hlen : off + (a ++ text).length = s + text.length := by
      rw [List.length_append, hs, Nat.add_assoc]
    rw [hlen] at hc
    rw [List.length_append, List.length_singleton, ← Nat.add_assoc, Common.trimBack,
      hc.charAt_eq, List.headD_cons, List.rdropWhile_concat]
    by_cases hspace : isSpace c = true
    · rw [if_pos ⟨hspace, by omega⟩, if_pos hspace]
      apply ih
      rw [← List.append_assoc] at h
      have hcut := h.cut_left
      rwa [hlen] at hcut
    · rw [if_neg fun hand => hspace hand.1, if_neg hspace]
      exact h

/-- Bytes outside the trimmed region stay. -/
theorem trimBack_frame {s n : ℕ} (hi : i < s ∨ n ≤ i) : (trimBack s n buf)[i]? = buf[i]? := by
  induction n generalizing buf with
  | zero => rfl
  | succ n ih =>
    rw [trimBack]
    split_ifs with h
    · rw [ih (by omega), List.getElem?_set_ne (by omega)]
    · rfl

/-- A text without the white space around it. -/
def strip (text : List Char) : List Char := (text.dropWhile isSpace).rdropWhile isSpace

end

end Mcelog.Common
