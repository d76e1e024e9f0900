import Mathlib.Data.List.Basic
import Mathlib.Data.Nat.Size
import Mcelog.Decode.Mca

/-!
# Bit fields with string tables

Model of `decode_bitfield` and `decode_numfield`. A field of a register is printed as the
entry of a string table, or as its number if the table has no entry for it. The value is
masked with the smallest number of ones that covers the table, and with nothing else: a
field that is wider than its table wraps around in it.

* `bitmask_toNat`: the mask.
* `decode_bitfield_label_iff`: which values are printed under their own label.
* `decodeBitfield_congr`, `decodeNumfield_congr`: bits below the fields do not matter.
-/

namespace Mcelog.Decode

open Mcelog.Machine

/-! ## Tables -/

/-- `struct field` (bitfield.h:3-7). `stringlen` is the number of entries. -/
structure Field where
  startBit : UInt64
  str : List (Option String)
  deriving DecidableEq, Repr

/-- `struct numfield` (bitfield.h:9-14) -/
structure Numfield where
  start : UInt64
  stop : UInt64
  name : String
  /-- `%llx`, not `%llu` -/
  hex : Bool
  force : Bool
  deriving DecidableEq, Repr

/-- `FIELD` (bitfield.h:16) -/
def tableField (startBit : UInt64) (str : List (Option String)) : Field := { startBit, str }

/-- `SBITFIELD` (bitfield.h:17) -/
def sbitField (startBit : UInt64) (string : String) : Field :=
  { startBit, str := [none, some string] }

/-- `NUMBER`, `NUMBERFORCE`, `HEXNUMBER` and `HEXNUMBERFORCE` (bitfield.h:19-22) -/
def number (start stop : UInt64) (name : String) : Numfield :=
  { start, stop, name, hex := false, force := false }

@[inherit_doc number]
def numberForce (start stop : UInt64) (name : String) : Numfield :=
  { start, stop, name, hex := false, force := true }

@[inherit_doc number]
def hexNumber (start stop : UInt64) (name : String) : Numfield :=
  { start, stop, name, hex := true, force := false }

@[inherit_doc number]
def hexNumberForce (start stop : UInt64) (name : String) : Numfield :=
  { start, stop, name, hex := true, force := true }

/-- An entry of a table: its first and last index, and its text. -/
abbrev Designator := ℕ × ℕ × String

/-- `[i] = text` -/
def one (i : ℕ) (text : String) : Designator := (i, i, text)

/-- `[i ... j] = text` -/
def span (i j : ℕ) (text : String) : Designator := (i, j, text)

/-- A table of `size` entries, with designated initializers. -/
def sized (size : ℕ) (entries : List Designator) : List (Option String) :=
  (List.range size).map fun i =>
    (entries.find? fun e => e.1 ≤ i ∧ i ≤ e.2.1).map fun e => e.2.2

/-- A table that ends with its last initializer. -/
def strings (entries : List Designator) : List (Option String) :=
  sized ((entries.map fun e => e.2.1 + 1).foldl max 0) entries

/-- A table with an entry for every index. -/
def plain (entries : List String) : List (Option String) := entries.map some

/-- `reserved_3bits`, `reserved_1bit` and `reserved_2bits` (bitfield.c:6-8), without any
    entry. -/
def reserved3bits : List (Option String) := List.replicate 8 none

@[inherit_doc reserved3bits]
def reserved1bit : List (Option String) := List.replicate 2 none

@[inherit_doc reserved3bits]
def reserved2bits : List (Option String) := List.replicate 4 none

/-! ## `decode_bitfield` -/

/-- The loop of `bitmask`; 64 rounds fill the word. -/
def bitmaskLoop (i : UInt64) : ℕ → UInt64 → UInt64
  | 0, mask => mask
  | n + 1, mask => if mask < i then bitmaskLoop i n ((mask <<< 1) ||| 1) else mask

/-- `bitmask` (bitfield.c:10-16) -/
def bitmask (i : UInt64) : UInt64 := bitmaskLoop i 64 1

/-- What is printed for a field. -/
inductive Label
  /-- an entry of the table -/
  | entry (index : ℕ) (text : String)
  /-- `<start:value>` -/
  | raw (startBit value : UInt64)
  deriving DecidableEq, Repr

/-- The text of a label (bitfield.c:36). -/
def Label.text : Label → String
  | .entry _ text => text
  | .raw startBit value => "<" ++ toString startBit.toNat ++ ":" ++ hexText value.toNat ++ ">"

/-- One field (bitfield.c:27-37); nothing for a zero without an entry. -/
def fieldLabel (status : UInt64) (f : Field) : Option Label :=
  let stringlen := UInt32.ofNat f.str.length
  let v := (status >>> f.startBit) &&& bitmask (stringlen - 1).toUInt64
  let s := if v < stringlen.toUInt64 then f.str.getD v.toNat none else none
  match s with
  | some s => some (.entry v.toNat s)
  | none => if v = 0 then none else some (.raw f.startBit v)

/-- The layout loop (bitfield.c:38-48), from `linelen` and `delim`. -/
def layoutFrom (linelen : ℕ) (delim : String) : List String → String
  | [] => if linelen > 0 then "\n" else ""
  | s :: rest =>
    let (delim, linelen) := if linelen + s.length > 75 then ("\n", 0) else (delim, linelen)
    delim ++ s ++ layoutFrom (linelen + s.length + 1) " " rest

/-- `decode_bitfield` (bitfield.c:18-49): the labels that it prints. -/
def bitfieldLabels (status : UInt64) (fields : List Field) : List Label :=
  fields.filterMap (fieldLabel status)

/-- `decode_bitfield` (bitfield.c:18-49): the printed text. -/
def decodeBitfield (status : UInt64) (fields : List Field) : String :=
  layoutFrom 0 "" ((bitfieldLabels status fields).map Label.text)

/-- `decode_numfield` (bitfield.c:51-63) -/
def decodeNumfield (status : UInt64) (fields : List Numfield) : String :=
  String.join (fields.map fun f =>
    let mask := ((1 : UInt64) <<< (f.stop - f.start + 1)) - 1
    let v := (status >>> f.start) &&& mask
    if v > 0 ∨ f.force then
      f.name ++ ": " ++ (if f.hex then hexText v.toNat else toString v.toNat) ++ "\n"
    else "")

/-! ## The mask -/

/-- One more bit. -/
theorem shiftLeft_or_one_toNat {mask : UInt64} {k : ℕ} (hmask : mask.toNat = 2 ^ k - 1)
    (hk : k < 63) : ((mask <<< 1) ||| 1).toNat = 2 ^ (k + 1) - 1 := by
  have hpos : 0 < 2 ^ k := Nat.two_pow_pos k
  have hlt : 2 ^ (k + 1) < 2 ^ 64 := Nat.pow_lt_pow_right (by omega) (by omega)
  have hshift : (mask <<< 1).toNat = mask.toNat <<< 1 := by
    rw [UInt64.toNat_shiftLeft]
    show mask.toNat <<< 1 % 2 ^ 64 = mask.toNat <<< 1
    rw [Nat.mod_eq_of_lt]
    rw [Nat.shiftLeft_eq, hmask]
    omega
  rw [UInt64.toNat_or, hshift]
  show mask.toNat <<< 1 ||| 1 = _
  rw [← Nat.shiftLeft_add_eq_or_of_lt (by omega), Nat.shiftLeft_eq, hmask]
  omega

theorem bitmaskLoop_toNat {i : UInt64} (hi : i.toNat < 2 ^ 32) {k n : ℕ} {mask : UInt64}
    (hmask : mask.toNat = 2 ^ k - 1) (hk : k + n = 65) :
    (bitmaskLoop i n mask).toNat = 2 ^ max k (Nat.size i.toNat) - 1 := by
  induction n generalizing k mask with
  | zero =>
    -- 64 ones do not leave room for another round.
    have hlt := mask.toNat_lt
    rw [hmask, show k = 65 by omega] at hlt
    exact absurd hlt (by decide)
  | succ n ih =>
    rw [bitmaskLoop]
    have hpos : 0 < 2 ^ k := Nat.two_pow_pos k
    split_ifs with hlt
    · rw [UInt64.lt_iff_toNat_lt, hmask] at hlt
      have hsize : k < Nat.size i.toNat := Nat.lt_size.mpr (by omega)
      have hk32 : k < 32 := (Nat.pow_lt_pow_iff_right (by omega : 1 < 2)).mp (by omega)
      rw [ih (shiftLeft_or_one_toNat hmask (by omega)) (by omega), max_eq_right (by omega),
        max_eq_right hsize.le]
    · rw [UInt64.lt_iff_toNat_lt, hmask] at hlt
      have hsize : Nat.size i.toNat ≤ k := Nat.size_le.mpr (by omega)
      rw [hmask, max_eq_left hsize]

/-- The mask has as many ones as the number has digits, and at least one. -/
theorem bitmask_toNat {i : UInt64} (hi : i.toNat < 2 ^ 32) :
    (bitmask i).toNat = 2 ^ max 1 (Nat.size i.toNat) - 1 :=
  bitmaskLoop_toNat hi rfl rfl

/-! ## Labels -/

/-- The number of values that the mask of a table keeps apart. An empty table has the mask
    of `-1U`. -/
def covered (str : List (Option String)) : ℕ :=
  if str = [] then 2 ^ 32 else 2 ^ max 1 (Nat.size (str.length - 1))

variable {str : List (Option String)} {startBit status : UInt64}

theorem fieldMask_toNat (hlen : str.length < 2 ^ 32) :
    (bitmask (UInt32.ofNat str.length - 1).toUInt64).toNat = covered str - 1 := by
  rw [bitmask_toNat (by rw [UInt32.toNat_toUInt64]; exact UInt32.toNat_lt _),
    UInt32.toNat_toUInt64, covered]
  split_ifs with hnil
  · subst hnil
    decide
  · have hpos := List.length_pos_iff.mpr hnil
    have hof : (UInt32.ofNat str.length).toNat = str.length := by
      rw [UInt32.toNat_ofNat', Nat.mod_eq_of_lt hlen]
    have hone : (1 : UInt32) ≤ UInt32.ofNat str.length := by
      rw [UInt32.le_iff_toNat_le, hof]
      exact hpos
    rw [UInt32.toNat_sub_of_le _ _ hone, hof]
    rfl

/-- A table is covered by its mask. -/
theorem length_le_covered (hlen : str.length < 2 ^ 32) : str.length ≤ covered str := by
  rw [covered]
  split_ifs with hnil
  · exact hlen.le
  · have hsize := Nat.lt_size_self (str.length - 1)
    have hle : 2 ^ Nat.size (str.length - 1) ≤ 2 ^ max 1 (Nat.size (str.length - 1)) :=
      Nat.pow_le_pow_right (by omega) (le_max_right _ _)
    omega

/-- The value that is looked up is the field modulo the size of the mask. -/
theorem fieldValue_toNat (hlen : str.length < 2 ^ 32) (f : UInt64) :
    (f &&& bitmask (UInt32.ofNat str.length - 1).toUInt64).toNat = f.toNat % covered str := by
  rw [UInt64.toNat_and, fieldMask_toNat hlen, covered]
  split_ifs
  · exact Nat.and_two_pow_sub_one_eq_mod _ 32
  · exact Nat.and_two_pow_sub_one_eq_mod _ _

/-- The label of a value: the entry of the table, nothing for a zero without one, and
    otherwise the number. -/
def ownLabel (startBit : UInt64) (str : List (Option String)) (f : UInt64) : Option Label :=
  match str.getD f.toNat none with
  | some text => some (.entry f.toNat text)
  | none => if f = 0 then none else some (.raw startBit f)

/-- `decode_bitfield` prints the label of the value modulo the size of the mask. -/
theorem fieldLabel_eq (hlen : str.length < 2 ^ 32) (status startBit : UInt64) :
    fieldLabel status (tableField startBit str) =
      ownLabel startBit str ((status >>> startBit) &&&
        bitmask (UInt32.ofNat str.length - 1).toUInt64) := by
  set v := (status >>> startBit) &&& bitmask (UInt32.ofNat str.length - 1).toUInt64 with hv
  have hbound : v < (UInt32.ofNat str.length).toUInt64 ↔ v.toNat < str.length := by
    rw [UInt64.lt_iff_toNat_lt, UInt32.toNat_toUInt64, UInt32.toNat_ofNat',
      Nat.mod_eq_of_lt hlen]
  have hs : (if v < (UInt32.ofNat str.length).toUInt64 then str.getD v.toNat none else none) =
      str.getD v.toNat none := by
    split_ifs with hlt
    · rfl
    · rw [hbound, not_lt] at hlt
      rw [List.getD_eq_default _ _ hlt]
  unfold fieldLabel ownLabel tableField
  dsimp only
  rw [← hv, hs]

/-- A number is printed as itself. -/
theorem eq_of_ownLabel_raw {v f : UInt64} (h : ownLabel startBit str v = some (.raw startBit f)) :
    v = f := by
  unfold ownLabel at h
  split at h
  · cases h
  · split_ifs at h
    simpa using h

/-- A value behind the table has its number as label. -/
theorem ownLabel_of_le {f : UInt64} (hle : str.length ≤ f.toNat) (hf : f ≠ 0) :
    ownLabel startBit str f = some (.raw startBit f) := by
  unfold ownLabel
  rw [List.getD_eq_default _ _ hle]
  exact if_neg hf

theorem covered_pos (str : List (Option String)) : 0 < covered str := by
  rw [covered]
  split_ifs <;> exact Nat.two_pow_pos _

/-- **Labels.** For every string table and every value, `decode_bitfield` prints the value's
    own label, if and only if the value is below the power of two that covers the table. -/
theorem decode_bitfield_label_iff (hlen : str.length < 2 ^ 32) (status startBit : UInt64) :
    bitfieldLabels status [tableField startBit str] =
        (ownLabel startBit str (status >>> startBit)).toList ↔
      (status >>> startBit).toNat < covered str := by
  have hlabels : bitfieldLabels status [tableField startBit str] =
      (fieldLabel status (tableField startBit str)).toList := by
    cases h : fieldLabel status (tableField startBit str) <;> simp [bitfieldLabels, h]
  have hinj : Function.Injective (Option.toList : Option Label → List Label) := by
    intro a b hab
    cases a <;> cases b <;> simp_all
  rw [hlabels, hinj.eq_iff, fieldLabel_eq hlen]
  set f := status >>> startBit
  set v := f &&& bitmask (UInt32.ofNat str.length - 1).toUInt64 with hv
  have hmod : v.toNat = f.toNat % covered str := fieldValue_toNat hlen f
  have hpos := covered_pos str
  constructor
  · intro hsame
    by_contra hge
    -- The number itself would be printed, but the value that is looked up is smaller.
    have hf : f ≠ 0 := by
      rintro hzero
      rw [hzero] at hge
      exact hge hpos
    rw [ownLabel_of_le ((length_le_covered hlen).trans (not_lt.mp hge)) hf] at hsame
    rw [eq_of_ownLabel_raw hsame] at hmod
    have := Nat.mod_lt f.toNat hpos
    omega
  · intro hlt
    rw [Nat.mod_eq_of_lt hlt, UInt64.toNat_inj] at hmod
    rw [hmod]

/-! ## Bits that are not read -/

section Congr

variable {status status' : UInt64}

/-- The fields lie above the bits that differ. -/
theorem decodeBitfield_congr {fields : List Field}
    (hfields : (fields.all fun f => status >>> f.startBit = status' >>> f.startBit) = true) :
    decodeBitfield status fields = decodeBitfield status' fields := by
  have hlabels : bitfieldLabels status fields = bitfieldLabels status' fields := by
    refine List.filterMap_congr fun f hf => ?_
    have hsame := of_decide_eq_true (List.all_eq_true.mp hfields f hf)
    unfold fieldLabel
    dsimp only
    rw [hsame]
  rw [decodeBitfield, decodeBitfield, hlabels]

theorem decodeNumfield_congr {fields : List Numfield}
    (hfields : (fields.all fun f => status >>> f.start = status' >>> f.start) = true) :
    decodeNumfield status fields = decodeNumfield status' fields := by
  unfold decodeNumfield
  congr 1
  refine List.map_congr_left fun f hf => ?_
  have hsame := of_decide_eq_true (List.all_eq_true.mp hfields f hf)
  dsimp only
  rw [hsame]

end Congr

/-! ## What the decoders do -/

/-- The functions of the older decoders that a status can lead to. -/
inductive ModelFunction
  | p6oldDecodeModel | core2DecodeModel | p4DecodeModel
  | dunningtonDecodeBus | dunningtonDecodeInternal | tulsaDecodeBus | tulsaDecodeInternal
  deriving DecidableEq, Repr

/-- A step of a decoder. -/
inductive Event
  /-- a text, or one of the triggers of `decode_mca` -/
  | action (a : Action)
  | runUnknownTrigger (socket cpu : ℤ) (log : Mce)
  | call (f : ModelFunction)
  | bitfield (status : UInt64) (fields : List Field)
  | numfield (status : UInt64) (fields : List Numfield)
  deriving DecidableEq, Repr

/-- `Wprintf` and `Gprintf` of this text -/
def say (text : String) : Event := .action (.print text)

/-- `if (f) decode_bitfield(f, fields)` -/
def nonzeroBitfield (f : UInt64) (fields : List Field) : List Event :=
  if f ≠ 0 then [.bitfield f fields] else []

/-- `switch (code)` with a call of `decode_bitfield` in each case -/
def switchBitfield (code f : UInt64) (cases : List (UInt64 × List Field)) : List Event :=
  match cases.lookup code with
  | some fields => [.bitfield f fields]
  | none => []

/-- `switch (code)` with a text in each case -/
def switchText (code : UInt64) (cases : List (UInt64 × String)) (default : String) : String :=
  (cases.lookup code).getD default

end Mcelog.Decode
