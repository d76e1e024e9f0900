import Mcelog.Common.Scanf

/-!
# CPU masks

The kernel writes a set of CPUs as groups of hexadecimal digits with commas between them, 32
CPUs for each group and the lowest ones in the last group. `cpumap_len` goes over the text to
find the size of the buffer. `parse_cpumap` searches the commas from the end of the text and
fills the buffer word by word.

* `cpumapLen_groups`: four bytes for each group.
* `cpumapWords_groups`: the words are the groups, the last one first.
* `readCpuMap_groups`: the words fill the buffer.
-/

namespace Mcelog.Cache

open Mcelog.Common

/-! ## Reading a mask -/

/-- `read_field` (sysfs.c:30-62): the first line of a file, at most 4096 bytes, as a C string. -/
def readField (content : List Char) : List Char :=
  (content.take 4096).takeWhile fun c => c ≠ '\n' && c ≠ '\x00'

/-- `round_up(x, BITS_PER_INT)` (mcelog.h:94), where `BITS_PER_INT` is a `size_t`. -/
def roundUpBits (x : UInt32) : UInt64 := (x.toUInt64 + 32 - 1) &&& ~~~(32 - 1)

/-- One turn of the loop of `cpumap_len`, for the character `*s`. -/
def cpumapLenStep (st : UInt32 × UInt32) (c : Char) : UInt32 × UInt32 :=
  if isDigitOf 16 c then (st.1, st.2 + 1)
  else (st.1 + (roundUpBits (st.2 * 4) / 8).toUInt32, 0)

/-- `cpumap_len` (cache.c:64-76), with `len` and `width`. The NUL is looked at as well. -/
def cpumapLen (s : List Char) : UInt32 := ((s ++ ['\x00']).foldl cpumapLenStep (0, 0)).1

/-- `memrchr(map, c, ..)`: the place of the last `c`. -/
def memrchr (s : List Char) (c : Char) : Option ℕ :=
  if c ∈ s then some (s.length - 1 - (s.reverse.takeWhile (· ≠ c)).length) else none

/-- `strtoul(s, NULL, 16)`, as `unsigned`. -/
def strtoulHex (s : List Char) : UInt32 :=
  let (neg, body) := scanSign (s.dropWhile isSpace)
  let digits := (scanPrefix 16 body).takeWhile (isDigitOf 16)
  .ofNat (strtoValue false neg (ofNumeral 16 digits))

theorem lt_of_memrchr {s : List Char} {c : Char} {p : ℕ} (h : memrchr s c = some p) :
    p < s.length := by
  unfold memrchr at h
  split_ifs at h with hmem
  have hpos := List.length_pos_of_mem hmem
  have hp := Option.some.inj h
  omega

/-- The loop of `parse_cpumap` (cache.c:84-95), from the place `s` down, with the words
    `buf[0..c-1]`. The buffer has `len` bytes, and a store behind it goes wrong. -/
def cpumapWords (map : List Char) (len : UInt32) (s : ℕ) (buf : List UInt32) :
    Option (List UInt32) :=
  if 4 * (buf.length + 1) ≤ len.toNat then
    match hcomma : memrchr (map.take s) ',' with
    | none => some (buf ++ [strtoulHex map])
    | some p => cpumapWords map len p (buf ++ [strtoulHex (map.drop (p + 1))])
  else none
termination_by s
decreasing_by
  have hlt := lt_of_memrchr hcomma
  rw [List.length_take] at hlt
  omega

/-- `parse_cpumap` (cache.c:78-97): none where it stores behind the buffer or its assertion
    fails. -/
def parseCpumap (map : List Char) (len : UInt32) : Option (List UInt32) := do
  let buf ← cpumapWords map len map.length []
  if len.toNat = buf.length * 4 then return buf else none

/-- `read_cpu_map` (cache.c:99-112): the words and `cpumaplen`, or `some none` for NULL. -/
def readCpuMap (content : List Char) : Option (Option (List UInt32 × UInt32)) :=
  let map := readField content
  if map = [] then some none
  else
    let len := cpumapLen map
    (parseCpumap map len).map fun buf => some (buf, len)

/-! ## Masks of the kernel -/

/-- The groups of a mask, each of 1 to 8 hexadecimal digits. -/
structure Mask (groups : List (List Char)) : Prop where
  nonempty : groups ≠ []
  width : ∀ g ∈ groups, 1 ≤ g.length ∧ g.length ≤ 8
  digits : ∀ g ∈ groups, ∀ c ∈ g, isDigitOf 16 c = true

/-- The text of a mask. -/
def maskText (groups : List (List Char)) : List Char := [','].intercalate groups

/-- The words of a mask, the lowest CPUs first. -/
def maskWords (groups : List (List Char)) : List UInt32 :=
  groups.reverse.map fun g => UInt32.ofNat (ofNumeral 16 g)

/-- The number that a mask denotes. -/
def maskNumber (groups : List (List Char)) : ℕ :=
  groups.foldl (fun n g => n * 2 ^ 32 + ofNumeral 16 g) 0

section

variable {groups gs : List (List Char)} {g s rest : List Char} {len : UInt32} {c : Char} {p : ℕ}

/-! ## The size of the buffer -/

/-- The digits of a group are counted. -/
theorem foldl_cpumapLenStep_digits (hdigits : ∀ c ∈ g, isDigitOf 16 c = true)
    (st : UInt32 × UInt32) :
    g.foldl cpumapLenStep st = (st.1, st.2 + UInt32.ofNat g.length) := by
  induction g generalizing st with
  | nil => simp
  | cons c g ih =>
    have hstep : cpumapLenStep st c = (st.1, st.2 + 1) := if_pos (hdigits c List.mem_cons_self)
    rw [List.foldl_cons, hstep, ih fun d hd => hdigits d (List.mem_cons_of_mem _ hd),
      List.length_cons, UInt32.ofNat_add, UInt32.add_assoc, UInt32.add_comm 1]
    rfl

/-- Up to eight digits take four bytes. -/
theorem roundUpBits_width {w : ℕ} (hpos : 1 ≤ w) (hle : w ≤ 8) :
    (roundUpBits (UInt32.ofNat w * 4) / 8).toUInt32 = 4 := by
  interval_cases w <;> decide

/-- A group with the character behind it. -/
theorem foldl_cpumapLenStep_group (hpos : 1 ≤ g.length) (hle : g.length ≤ 8)
    (hdigits : ∀ c ∈ g, isDigitOf 16 c = true) (hc : isDigitOf 16 c = false) (len : UInt32) :
    (g ++ c :: rest).foldl cpumapLenStep (len, 0) = rest.foldl cpumapLenStep (len + 4, 0) := by
  have hstep : cpumapLenStep (len, 0 + UInt32.ofNat g.length) c = (len + 4, 0) := by
    rw [cpumapLenStep, hc, if_neg Bool.false_ne_true, UInt32.zero_add,
      roundUpBits_width hpos hle]
  rw [List.foldl_append, foldl_cpumapLenStep_digits hdigits, List.foldl_cons, hstep]

theorem maskText_cons (hne : gs ≠ []) : maskText (g :: gs) = g ++ ',' :: maskText gs := by
  rw [maskText, List.intercalate_cons_of_ne_nil hne, List.append_assoc]
  rfl

/-- The loop over the text of a mask. -/
theorem foldl_cpumapLenStep_mask (hne : groups ≠ [])
    (hwidth : ∀ g ∈ groups, 1 ≤ g.length ∧ g.length ≤ 8)
    (hdigits : ∀ g ∈ groups, ∀ c ∈ g, isDigitOf 16 c = true) (len : UInt32) :
    (maskText groups ++ ['\x00']).foldl cpumapLenStep (len, 0) =
      (len + 4 * UInt32.ofNat groups.length, 0) := by
  induction groups generalizing len with
  | nil => exact absurd rfl hne
  | cons g gs ih =>
    obtain ⟨hpos, hle⟩ := hwidth g List.mem_cons_self
    have hg := hdigits g List.mem_cons_self
    by_cases hgs : gs = []
    · subst hgs
      rw [maskText, List.intercalate_singleton, foldl_cpumapLenStep_group hpos hle hg (by decide)]
      rfl
    · rw [maskText_cons hgs, List.append_assoc, List.cons_append,
        foldl_cpumapLenStep_group hpos hle hg (by decide),
        ih hgs (fun x hx => hwidth x (List.mem_cons_of_mem _ hx))
          (fun x hx => hdigits x (List.mem_cons_of_mem _ hx)),
        List.length_cons, UInt32.ofNat_add, UInt32.mul_add, UInt32.add_assoc,
        UInt32.add_comm (4 * _)]
      rfl

/-- **Four bytes for each group.** -/
theorem cpumapLen_groups (h : Mask groups) :
    cpumapLen (maskText groups) = 4 * UInt32.ofNat groups.length := by
  rw [cpumapLen, foldl_cpumapLenStep_mask h.nonempty h.width h.digits, UInt32.zero_add]

/-! ## The words -/

/-- The last comma. -/
theorem memrchr_append (hc : c ∉ s) : memrchr (rest ++ c :: s) c = some rest.length := by
  have hother : ∀ x ∈ s.reverse, decide (x ≠ c) = true := by
    intro x hx
    apply decide_eq_true
    rintro rfl
    exact hc (List.mem_reverse.mp hx)
  have hafter : ((rest ++ c :: s).reverse.takeWhile (· ≠ c)).length = s.length := by
    rw [List.reverse_append, List.reverse_cons, List.append_assoc,
      List.takeWhile_append_of_pos hother, List.singleton_append,
      List.takeWhile_cons_of_neg (by simp), List.append_nil, List.length_reverse]
  have hmem : c ∈ rest ++ c :: s := List.mem_append_right _ List.mem_cons_self
  rw [memrchr, if_pos hmem, hafter, List.length_append, List.length_cons]
  congr 1
  omega

/-- A group of at most eight digits is read whole. -/
theorem strtoulHex_group (hpos : 1 ≤ g.length) (hle : g.length ≤ 8)
    (hdigits : ∀ c ∈ g, isDigitOf 16 c = true) (hrest : NumberEnds 16 rest) :
    strtoulHex (g ++ rest) = UInt32.ofNat (ofNumeral 16 g) := by
  have hne : g ≠ [] := List.ne_nil_of_length_pos hpos
  have hlt : ofNumeral 16 g < 2 ^ 64 := by
    calc ofNumeral 16 g < 16 ^ g.length := ofNumeral_lt_pow hdigits
      _ ≤ 16 ^ 8 := Nat.pow_le_pow_right (by omega) hle
      _ < 2 ^ 64 := by norm_num
  have hblank : (g ++ rest).dropWhile isSpace = g ++ rest :=
    dropWhile_of_noHead (noHead_isSpace_digits (by omega) hdigits hne)
  have hsign : scanSign (g ++ rest) = (false, g ++ rest) := by
    obtain ⟨c, t, rfl⟩ := List.exists_cons_of_ne_nil hne
    obtain ⟨-, hminus, hplus, -⟩ :=
      not_isSpace_of_isDigitOf (le_refl 16) (hdigits c List.mem_cons_self)
    exact scanSign_cons hminus hplus
  have hdigit : (g ++ rest).takeWhile (isDigitOf 16) = g := by
    rw [List.takeWhile_append_of_pos hdigits, takeWhile_of_noHead hrest.noHead, List.append_nil]
  have hvalue : strtoValue false false (ofNumeral 16 g) = ofNumeral 16 g := by
    rw [strtoValue, if_neg Bool.false_ne_true, if_neg (by omega), if_neg Bool.false_ne_true]
  unfold strtoulHex
  rw [hblank, hsign]
  dsimp only
  rw [scanPrefix_digits (le_refl 16) hdigits hne hrest, hdigit, hvalue]

theorem maskText_singleton (g : List Char) : maskText [g] = g := List.intercalate_singleton

/-- The last text stands behind a separator. -/
theorem intercalate_concat {xs : List (List Char)} (hne : xs ≠ []) (sep x : List Char) :
    sep.intercalate (xs ++ [x]) = sep.intercalate xs ++ sep ++ x := by
  induction xs with
  | nil => exact absurd rfl hne
  | cons y xs ih =>
    by_cases hxs : xs = []
    · subst hxs
      rw [List.singleton_append, List.intercalate_cons_cons, List.intercalate_singleton,
        List.intercalate_singleton]
    · rw [List.cons_append, List.intercalate_cons_of_ne_nil (by simp), ih hxs,
        List.intercalate_cons_of_ne_nil hxs]
      simp only [List.append_assoc]

theorem maskText_concat (hne : gs ≠ []) :
    maskText (gs ++ [g]) = maskText gs ++ ',' :: g := by
  rw [maskText, intercalate_concat hne, List.append_assoc]
  rfl

theorem maskWords_concat :
    maskWords (gs ++ [g]) = UInt32.ofNat (ofNumeral 16 g) :: maskWords gs := by
  rw [maskWords, List.reverse_concat, List.map_cons]
  rfl

/-- The loop finds the groups from the last one to the first. By induction on the groups in
    front of the place it has come to; `rest` is what it has read already. -/
theorem cpumapWords_groups (hne : groups ≠ [])
    (hwidth : ∀ g ∈ groups, 1 ≤ g.length ∧ g.length ≤ 8)
    (hdigits : ∀ g ∈ groups, ∀ c ∈ g, isDigitOf 16 c = true) (hrest : NumberEnds 16 rest)
    {buf : List UInt32} (hroom : 4 * (buf.length + groups.length) ≤ len.toNat) :
    cpumapWords (maskText groups ++ rest) len (maskText groups).length buf =
      some (buf ++ maskWords groups) := by
  induction groups using List.reverseRecOn generalizing rest buf with
  | nil => exact absurd rfl hne
  | append_singleton gs g ih =>
    have hmem : g ∈ gs ++ [g] := List.mem_append_right _ List.mem_cons_self
    obtain ⟨hpos, hle⟩ := hwidth g hmem
    have hcomma : ',' ∉ g := notMem_of_isDigitOf (hdigits g hmem) (by decide)
    rw [List.length_append, List.length_singleton] at hroom
    unfold cpumapWords
    rw [if_pos (by omega), List.take_left, maskWords_concat]
    by_cases hgs : gs = []
    · -- no comma is left: the group begins the text
      subst hgs
      rw [List.nil_append, maskText_singleton]
      have hnone : memrchr g ',' = none := if_neg hcomma
      split
      · rw [strtoulHex_group hpos hle (hdigits g hmem) hrest]
        rfl
      · rename_i p hp
        rw [hnone] at hp
        cases hp
    · have hlast : memrchr (maskText (gs ++ [g])) ',' = some (maskText gs).length := by
        rw [maskText_concat hgs, memrchr_append hcomma]
      have htext : maskText (gs ++ [g]) ++ rest = maskText gs ++ ',' :: (g ++ rest) := by
        rw [maskText_concat hgs, List.append_assoc, List.cons_append]
      split
      · rename_i hnone
        rw [hlast] at hnone
        cases hnone
      · rename_i p hp
        rw [hlast] at hp
        obtain rfl := Option.some.inj hp
        rw [htext, List.drop_length_add_append, List.drop_one, List.tail_cons,
          strtoulHex_group hpos hle (hdigits g hmem) hrest,
          ih hgs (fun x hx => hwidth x (List.mem_append_left _ hx))
            (fun x hx => hdigits x (List.mem_append_left _ hx)) (numberEnds_cons (by decide))
            (by rw [List.length_append, List.length_singleton]; omega),
          List.append_assoc, List.singleton_append]

theorem cpumapLen_toNat (h : Mask groups) (hlt : groups.length < 2 ^ 30) :
    (cpumapLen (maskText groups)).toNat = 4 * groups.length := by
  rw [cpumapLen_groups h, UInt32.toNat_mul, UInt32.toNat_ofNat]
  show 4 * (groups.length % 2 ^ 32) % 2 ^ 32 = 4 * groups.length
  omega

theorem length_maskWords (groups : List (List Char)) :
    (maskWords groups).length = groups.length := by
  rw [maskWords, List.length_map, List.length_reverse]

/-- The words of fewer than 2^30 groups fill the buffer, and the assertion holds. -/
theorem parseCpumap_groups (h : Mask groups) (hlt : groups.length < 2 ^ 30) :
    parseCpumap (maskText groups) (cpumapLen (maskText groups)) = some (maskWords groups) := by
  have hlen := cpumapLen_toNat h hlt
  have hwords := cpumapWords_groups h.nonempty h.width h.digits numberEnds_nil
    (show 4 * (([] : List UInt32).length + groups.length) ≤
      (cpumapLen (maskText groups)).toNat by
      rw [hlen, List.length_nil, Nat.zero_add])
  rw [List.append_nil, List.nil_append] at hwords
  rw [parseCpumap, hwords, Option.bind_eq_bind, Option.bind_some, hlen, length_maskWords,
    if_pos (Nat.mul_comm ..)]
  rfl

/-- A text has at least two characters for each group but the last. -/
theorem length_maskText (h : Mask groups) : 2 * groups.length ≤ (maskText groups).length + 1 := by
  obtain ⟨hne, hwidth, -⟩ := h
  induction groups with
  | nil => exact absurd rfl hne
  | cons g gs ih =>
    have hpos := (hwidth g List.mem_cons_self).1
    by_cases hgs : gs = []
    · subst hgs
      rw [maskText_singleton, List.length_singleton]
      omega
    · have htail := ih hgs fun x hx => hwidth x (List.mem_cons_of_mem _ hx)
      rw [maskText_cons hgs, List.length_append, List.length_cons, List.length_cons]
      omega

/-- A field of sysfs has at most 4096 characters. -/
theorem length_readField (content : List Char) : (readField content).length ≤ 4096 :=
  (List.takeWhile_sublist _).length_le.trans (List.length_take_le _ _)

theorem length_groups_of_readField (h : Mask groups) {content : List Char}
    (hread : readField content = maskText groups) : groups.length ≤ 2048 := by
  have hshort := length_readField content
  have hlong := length_maskText h
  rw [hread] at hshort
  omega

/-- **The words of a mask that is read from a file.** -/
theorem readCpuMap_groups (h : Mask groups) {content : List Char}
    (hread : readField content = maskText groups) :
    readCpuMap content = some (some (maskWords groups, 4 * UInt32.ofNat groups.length)) := by
  have hfew := length_groups_of_readField h hread
  have hlong := length_maskText h
  have hgroups := List.length_pos_of_ne_nil h.nonempty
  have hne : maskText groups ≠ [] := by
    apply List.ne_nil_of_length_pos
    omega
  rw [readCpuMap, hread, if_neg hne]
  dsimp only
  rw [parseCpumap_groups h (by omega), cpumapLen_groups h]
  rfl

end

end Mcelog.Cache
