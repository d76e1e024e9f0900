import Mcelog.Dmi.Ranges

/-!
# The sanity check

`checkdmi` decodes addresses to DIMMs only if `dmi_sanity_check` finds the table usable. The
check counts the ranges in the loop that compares each one with the one before it, so that
`numranges` is one less than there are ranges: a pair of ranges is taken for a single one,
and a single one for none.

* `Memdev`: a memory device, whose strings end; `dmiGetstring_isSome`: its strings are found
  within the table.
* `checkLocators_iff`: the quadratic loop over the locators.
* `chain_before_iff`: the overlap loop on sorted ranges.
* `dmi_sanity_check_iff`: when the verdict is that the table is usable.
-/

namespace Mcelog.Dmi

open Mcelog.Common

/-! ## Strings of an entry -/

/-- The loop of `dmi_getstring` over the strings from `s` on, `number` of them before the one
    that is wanted (dmi.c:119-126). -/
def findString : ℕ → List UInt8 → Option (Option (List UInt8))
  | 0, s => (readString s).map some
  | number + 1, s => do
    let text ← readString s
    let behind := s.drop (text.length + 1)
    let next ← behind[0]?
    if next = 0 then return none
    findString number behind

/-- `dmi_getstring` (dmi.c:114-127), for the bytes behind the formatted area of an entry. -/
def dmiGetstring (strings : List UInt8) (number : ℕ) : Option (Option (List UInt8)) :=
  if number = 0 then some (some []) else findString (number - 1) strings

section

variable {strings text : List UInt8} {p n : ℕ}

/-- A string ends at the first NUL. -/
theorem length_of_readString (h : readString strings = some text) (hp : strings[p]? = some 0) :
    text.length ≤ p := by
  have htext : text = strings.takeWhile (· ≠ 0) := by
    rw [readString] at h
    split_ifs at h
    exact (Option.some.inj h).symm
  by_contra hle
  have hlt : p < text.length := by omega
  have hnul : 0 = text[p] := by
    have hpre : text <+: strings := htext ▸ List.takeWhile_prefix _
    have hget := List.prefix_iff_getElem?.mp hpre p hlt
    rwa [hp, Option.some.injEq] at hget
  have hmem : (0 : UInt8) ∈ strings.takeWhile (· ≠ 0) := htext ▸ hnul ▸ List.getElem_mem hlt
  have hall := List.all_takeWhile (p := fun c : UInt8 => decide (c ≠ 0)) (l := strings)
  exact absurd (List.all_eq_true.mp hall 0 hmem) (by decide)

/-- Strings that end in two NULs are searched within the table. -/
theorem findString_isSome (h : ∃ p, DoubleNul strings p) (n : ℕ) :
    (findString n strings).isSome = true := by
  induction n generalizing strings with
  | zero =>
    obtain ⟨p, hnul, -⟩ := h
    rw [findString, Option.isSome_map, readString_isSome]
    exact List.mem_of_getElem? hnul
  | succ n ih =>
    obtain ⟨p, hnul⟩ := h
    obtain ⟨text, htext⟩ := Option.isSome_iff_exists.mp
      (readString_isSome.mpr (List.mem_of_getElem? hnul.1))
    have hle := length_of_readString htext hnul.1
    have hlt := hnul.lt
    have hnext : (strings.drop (text.length + 1))[0]? = some strings[text.length + 1] := by
      rw [List.getElem?_drop]
      exact List.getElem?_eq_getElem (show text.length + 1 < strings.length by omega)
    rw [findString, htext]
    simp only [Option.bind_eq_bind, Option.bind_some, hnext]
    split_ifs with hzero
    · rfl
    · -- the string does not end at the first of the two NULs
      have hne : text.length ≠ p := by
        rintro rfl
        have hsnd := hnul.2
        rw [List.getElem?_eq_getElem (by omega), Option.some.injEq] at hsnd
        exact hzero hsnd
      refine ih ⟨p - (text.length + 1), doubleNul_drop.mpr ?_⟩
      rwa [Nat.add_sub_of_le (by omega)]

end

/-! ## Memory devices -/

/-- The fields of `struct dmi_memdev` that are used, of an entry that `check_entry` has
    accepted (dmi.h:25-41): its strings are the bytes behind the formatted area. -/
structure Memdev where
  deviceLocator : UInt8
  strings : List UInt8
  ends : (stringsEnd strings 0).isSome = true
  deriving DecidableEq

theorem dmiGetstring_isSome (d : Memdev) (number : ℕ) :
    (dmiGetstring d.strings number).isSome = true := by
  unfold dmiGetstring
  split_ifs
  · rfl
  · obtain ⟨p, -, hnul⟩ := stringsEnd_isSome.mp d.ends
    exact findString_isSome ⟨p, hnul⟩ _

/-- `dmi_getstring(&dimm->header, dimm->device_locator)` -/
def Memdev.locator (d : Memdev) : Option (List UInt8) :=
  (dmiGetstring d.strings d.deviceLocator.toNat).get (dmiGetstring_isSome d _)

/-! ## The check -/

/-- The loop over the locators, with the DIMMs `dmi_dimms[0..k-1]` before (dmi.c:560-581). -/
def checkLocators : List Memdev → List Memdev → Bool
  | _, [] => true
  | before, d :: rest =>
    match d.locator with
    | none => false
    | some loc =>
      -- a locator that is missing before is skipped
      if before.any fun b => b.locator = some loc then false
      else checkLocators (before ++ [d]) rest

/-- `dmi_sanity_check` (dmi.c:533-584) -/
def dmiSanityCheck (dmiRanges : List MemdevAddr) (dmiDimms : List Memdev) : Bool :=
  if dmiRanges = [] then false
  else
    match countRanges 0 dmiRanges with
    | none => false
    | some numranges =>
      if numranges = 1 ∧ dmiDimms.length > 2 then false else checkLocators [] dmiDimms

/-! ## Usable tables -/

/-- The kilobyte `k` is in the range. -/
def MemdevAddr.Contains (a : MemdevAddr) (k : ℕ) : Prop :=
  a.startAddr.toNat ≤ k ∧ k ≤ a.endAddr.toNat

/-- A kilobyte is in both ranges. -/
def Overlap (a b : MemdevAddr) : Prop := ∃ k, a.Contains k ∧ b.Contains k

/-- Each DIMM has a locator and no other DIMM has it. -/
structure UniqueLocators (dmiDimms : List Memdev) : Prop where
  present : ∀ d ∈ dmiDimms, d.locator ≠ none
  different : dmiDimms.Pairwise fun a b => a.locator ≠ b.locator

/-- A table that addresses can be decoded with. -/
structure Usable (dmiRanges : List MemdevAddr) (dmiDimms : List Memdev) : Prop where
  range : dmiRanges ≠ []
  apart : dmiRanges.Pairwise fun a b => ¬ Overlap a b
  enough : ¬ (dmiRanges.length = 1 ∧ 2 < dmiDimms.length)
  locators : UniqueLocators dmiDimms

/-- No range that ends before it starts does so within the range before it. -/
def NoneInverted (dmiRanges : List MemdevAddr) : Prop :=
  dmiRanges.IsChain fun a b => ¬ (b.endAddr < b.startAddr ∧ b.startAddr ≤ a.endAddr)

section

variable {a b : MemdevAddr} {dmiRanges : List MemdevAddr} {before dmiDimms : List Memdev}

/-! ## The loops -/

theorem checkLocators_iff : checkLocators before dmiDimms = true ↔
    UniqueLocators dmiDimms ∧ ∀ b ∈ before, ∀ d ∈ dmiDimms, b.locator ≠ d.locator := by
  induction dmiDimms generalizing before with
  | nil => exact iff_of_true rfl ⟨⟨by simp, List.Pairwise.nil⟩, by simp⟩
  | cons d rest ih =>
    rw [checkLocators]
    cases hloc : d.locator with
    | none =>
      refine iff_of_false (fun h => Bool.false_ne_true h) fun h => ?_
      exact h.1.present d List.mem_cons_self hloc
    | some loc =>
      dsimp only
      split_ifs with hany
      · obtain ⟨b, hb, hbloc⟩ := List.any_eq_true.mp hany
        refine iff_of_false (fun h => h) fun h => ?_
        exact h.2 b hb d List.mem_cons_self ((of_decide_eq_true hbloc).trans hloc.symm)
      · have hnew : ∀ b ∈ before, b.locator ≠ d.locator := by
          intro b hb heq
          exact hany (List.any_eq_true.mpr ⟨b, hb, decide_eq_true (heq.trans hloc)⟩)
        rw [ih]
        constructor
        · rintro ⟨hrest, hdiff⟩
          refine ⟨⟨fun x hx => ?_, List.pairwise_cons.mpr ⟨fun x hx => ?_, hrest.different⟩⟩,
            fun b hb x hx => ?_⟩
          · rcases List.mem_cons.mp hx with rfl | hx
            · rw [hloc]
              exact Option.some_ne_none loc
            · exact hrest.present x hx
          · exact hdiff d (by simp) x hx
          · rcases List.mem_cons.mp hx with rfl | hx
            · exact hnew b hb
            · exact hdiff b (List.mem_append_left _ hb) x hx
        · rintro ⟨hall, hdiff⟩
          obtain ⟨hhead, htail⟩ := List.pairwise_cons.mp hall.different
          refine ⟨⟨fun x hx => hall.present x (List.mem_cons_of_mem _ hx), htail⟩,
            fun b hb x hx => ?_⟩
          rcases List.mem_append.mp hb with hb | hb
          · exact hdiff b hb x (List.mem_cons_of_mem _ hx)
          · rw [List.mem_singleton.mp hb]
            exact hhead x hx

theorem overlap_iff : Overlap a b ↔ a.startAddr ≤ a.endAddr ∧ b.startAddr ≤ b.endAddr ∧
    a.startAddr ≤ b.endAddr ∧ b.startAddr ≤ a.endAddr := by
  simp only [Overlap, MemdevAddr.Contains, UInt32.le_iff_toNat_le]
  constructor
  · rintro ⟨k, ⟨ha, ha'⟩, hb, hb'⟩
    omega
  · rintro ⟨ha, hb, hab, hba⟩
    exact ⟨max a.startAddr.toNat b.startAddr.toNat, by omega, by omega⟩

theorem not_overlap_of_before (h : Before a b) : ¬ Overlap a b := fun hover =>
  not_le_of_before h (overlap_iff.mp hover).2.2.2

/-- Sorted ranges of which each ends before the next one starts. -/
theorem pairwise_before_of_chain (hsorted : dmiRanges.Pairwise fun a b => a.startAddr ≤ b.startAddr)
    (h : dmiRanges.IsChain Before) : dmiRanges.Pairwise Before := by
  induction dmiRanges with
  | nil => exact List.Pairwise.nil
  | cons a rest ih =>
    obtain ⟨-, hrest⟩ := List.pairwise_cons.mp hsorted
    refine List.pairwise_cons.mpr ⟨fun b hb => ?_, ih hrest h.tail⟩
    cases rest with
    | nil => exact absurd hb List.not_mem_nil
    | cons next rest =>
      have hnext := (List.isChain_cons_cons.mp h).1
      rcases List.mem_cons.mp hb with rfl | hb
      · exact hnext
      · exact UInt32.lt_of_lt_of_le hnext ((List.pairwise_cons.mp hrest).1 b hb)

/-- The overlap loop takes sorted ranges for disjoint ones, but for inverted ranges. -/
theorem chain_before_iff (hsorted : dmiRanges.Pairwise fun a b => a.startAddr ≤ b.startAddr) :
    dmiRanges.IsChain Before ↔
      dmiRanges.Pairwise (fun a b => ¬ Overlap a b) ∧ NoneInverted dmiRanges := by
  constructor
  · intro h
    refine ⟨(pairwise_before_of_chain hsorted h).imp not_overlap_of_before, h.imp ?_⟩
    exact fun a b hab hinv => not_le_of_before hab hinv.2
  · rintro ⟨hapart, hinv⟩
    induction dmiRanges with
    | nil => exact List.IsChain.nil
    | cons a rest ih =>
      cases rest with
      | nil => exact List.IsChain.singleton a
      | cons b rest =>
        obtain ⟨hapart, hrest⟩ := List.pairwise_cons.mp hapart
        obtain ⟨hle, hsorted⟩ := List.pairwise_cons.mp hsorted
        obtain ⟨hinv, hchain⟩ := List.isChain_cons_cons.mp hinv
        refine List.isChain_cons_cons.mpr ⟨?_, ih hsorted hrest hchain⟩
        refine UInt32.not_le.mp fun hin => ?_
        -- `b` starts within `a`, so that it is inverted or shares its first kilobyte
        have hne : b.startAddr ≤ b.endAddr :=
          UInt32.not_lt.mp fun hlt => hinv ⟨hlt, hin⟩
        have hab := hle b List.mem_cons_self
        exact hapart b List.mem_cons_self (overlap_iff.mpr
          ⟨UInt32.le_trans hab hin, hne, UInt32.le_trans hab hne, hin⟩)

/-! ## The verdict -/

/-- What the code asks for. -/
theorem dmiSanityCheck_iff : dmiSanityCheck dmiRanges dmiDimms = true ↔
    dmiRanges ≠ [] ∧ dmiRanges.IsChain Before ∧
      ¬ (dmiRanges.length = 2 ∧ 2 < dmiDimms.length) ∧ UniqueLocators dmiDimms := by
  have hlocators : checkLocators [] dmiDimms = true ↔ UniqueLocators dmiDimms := by
    rw [checkLocators_iff]
    simp
  rw [dmiSanityCheck]
  by_cases hnil : dmiRanges = []
  · rw [if_pos hnil]
    exact iff_of_false Bool.false_ne_true fun h => h.1 hnil
  have hpos : 0 < dmiRanges.length := List.length_pos_iff.mpr hnil
  rw [if_neg hnil, and_iff_right hnil]
  by_cases hchain : dmiRanges.IsChain Before
  · have hpair : 0 + (dmiRanges.length - 1) = 1 ↔ dmiRanges.length = 2 := by omega
    rw [countRanges_of_chain hchain, and_iff_right hchain, ← hpair]
    dsimp only
    split_ifs with htwo
    · exact iff_of_false not_false fun h => h.1 htwo
    · rw [hlocators, and_iff_right htwo]
  · rw [countRanges_of_not_chain hchain]
    exact iff_of_false Bool.false_ne_true fun h => hchain h.1

/-- The verdict is right: no range, or ranges that overlap, or locators that do not tell the
    DIMMs apart, or neither too many DIMMs for the count of the ranges nor an inverted one. -/
def VerdictRight (dmiRanges : List MemdevAddr) (dmiDimms : List Memdev) : Prop :=
  dmiRanges = [] ∨ ¬ dmiRanges.Pairwise (fun a b => ¬ Overlap a b) ∨ ¬ UniqueLocators dmiDimms ∨
    (dmiDimms.length ≤ 2 ∨ 3 ≤ dmiRanges.length) ∧ NoneInverted dmiRanges

/-- **The sanity check.** For ranges sorted by their starts, the verdict is that the table is
    usable exactly when it is, unless there is one range or a pair of them for more than two
    DIMMs, or a range that ends before it starts within the range before it. -/
theorem dmi_sanity_check_iff
    (hsorted : dmiRanges.Pairwise fun a b => a.startAddr ≤ b.startAddr) :
    (dmiSanityCheck dmiRanges dmiDimms = true ↔ Usable dmiRanges dmiDimms) ↔
      VerdictRight dmiRanges dmiDimms := by
  have husable : Usable dmiRanges dmiDimms ↔ dmiRanges ≠ [] ∧
      dmiRanges.Pairwise (fun a b => ¬ Overlap a b) ∧
      ¬ (dmiRanges.length = 1 ∧ 2 < dmiDimms.length) ∧ UniqueLocators dmiDimms :=
    ⟨fun h => ⟨h.range, h.apart, h.enough, h.locators⟩, fun h => ⟨h.1, h.2.1, h.2.2.1, h.2.2.2⟩⟩
  rw [dmiSanityCheck_iff, husable, chain_before_iff hsorted, VerdictRight]
  by_cases hnil : dmiRanges = []
  · simp [hnil]
  have hpos : 0 < dmiRanges.length := List.length_pos_iff.mpr hnil
  by_cases hapart : dmiRanges.Pairwise fun a b => ¬ Overlap a b
  · by_cases hloc : UniqueLocators dmiDimms
    · -- both sides are left with the numbers and with the inverted ranges
      by_cases hinv : NoneInverted dmiRanges
      · simp only [hnil, hapart, hloc, hinv, ne_eq, not_false_eq_true, not_true_eq_false, true_and,
          and_true, false_or]
        omega
      · have hone : dmiRanges.length ≠ 1 := by
          intro hone
          obtain ⟨a, rfl⟩ := List.length_eq_one_iff.mp hone
          exact hinv (List.IsChain.singleton a)
        simp only [hnil, hapart, hloc, hinv, ne_eq, not_false_eq_true, not_true_eq_false, and_true,
          false_or, and_false, false_and, false_iff, hone]
    · simp [hloc]
  · simp [hapart]

/-- A memory device whose locator is one letter. -/
def namedDimm (name : UInt8) : Memdev where
  deviceLocator := 1
  strings := [name, 0, 0]
  ends := stringsEnd_isSome.mpr ⟨1, by omega, rfl, rfl⟩

/-- Two ranges for two DIMMs. -/
theorem two_ranges_two_dimms :
    (dmiSanityCheck [⟨0, 1023, 0⟩, ⟨1024, 2047, 1⟩] [namedDimm 65, namedDimm 66] = true ↔
      Usable [⟨0, 1023, 0⟩, ⟨1024, 2047, 1⟩] [namedDimm 65, namedDimm 66]) ↔
    VerdictRight [⟨0, 1023, 0⟩, ⟨1024, 2047, 1⟩] [namedDimm 65, namedDimm 66] :=
  dmi_sanity_check_iff (by decide)

/-- A single range for three DIMMs is accepted. A pair of them is not. -/
theorem one_range_three_dimms :
    dmiSanityCheck [⟨0, 1023, 0⟩] [namedDimm 65, namedDimm 66, namedDimm 67] = true ∧
    ¬ Usable [⟨0, 1023, 0⟩] [namedDimm 65, namedDimm 66, namedDimm 67] ∧
    dmiSanityCheck [⟨0, 1023, 0⟩, ⟨1024, 2047, 1⟩]
      [namedDimm 65, namedDimm 66, namedDimm 67] = false := by
  refine ⟨by decide, fun h => ?_, by decide⟩
  exact h.enough ⟨rfl, by decide⟩

end

end Mcelog.Dmi
