import Mathlib.Data.List.Basic
import Mcelog.Machine.Cputype

/-!
# Detecting the CPU type

`select_intel_cputype` finds the CPU type of a family and a model, and decides on the way
whether the CPU reports memory errors: in family 6 by the model number, in the newer
families not at all. With `--cpu` the decision is made by `intel_cpu_init` from the CPU
type.

* `cputypeTable`: the rows of `cputype.table`.
* `memory_error_support_iff`: for which families and models the two decisions agree.
-/

namespace Mcelog.Machine

/-- The models of each CPU type (cputype.table:1-44). -/
def cputypeTable : List (CpuType × List Int32) :=
  [ (.alderlake, [0x97, 0x9A, 0xBE]),
    (.arrowlake, [0xB5, 0xC5, 0xC6]),
    (.atom, [0x1c, 0x26, 0x27, 0x35, 0x36, 0x37, 0x4a, 0x4c, 0x4d, 0x5a, 0x5d]),
    (.broadwell, [0x3d, 0x47]),
    (.broadwellDe, [0x56]),
    (.broadwellEpex, [0x4f]),
    (.clearwaterforest, [0xdd]),
    (.cometlake, [0xa5, 0xa6]),
    (.core2, [0xf, 0x17]),
    (.denverton, [0x5f]),
    (.diamondrapids, [0x1301]),
    (.dunnington, [0x1d]),
    (.emeraldrapids, [0xcf]),
    (.grandridge, [0xb6]),
    (.graniterapids, [0xad, 0xae]),
    (.haswell, [0x3c, 0x45, 0x46]),
    (.haswellEpex, [0x3f]),
    (.icelake, [0x7D, 0x7E, 0x9D]),
    (.icelakeDe, [0x6C]),
    (.icelakeXeon, [0x6A]),
    (.ivyBridge, [0x3a]),
    (.ivyBridgeEpex, [0x3e]),
    (.kabylake, [0x8E, 0x9E]),
    (.knightsLanding, [0x57]),
    (.knightsMill, [0x85]),
    (.lakefield, [0x8A]),
    (.lunarlake, [0xBD]),
    (.meteorlake, [0xac, 0xaa]),
    (.nehalem, [0x1a, 0x2c, 0x1e, 0x25]),
    (.novalake, [0x1201, 0x1203]),
    (.p6old, [0x0, 0x1, 0x2, 0x3, 0x4, 0x5, 0x6, 0x7, 0x8, 0x9, 0xA, 0xB, 0xC, 0xD, 0xE]),
    (.pantherlake, [0xcc]),
    (.raptorlake, [0xb7, 0xba, 0xbf]),
    (.rocketlake, [0xA7]),
    (.sandyBridge, [0x2a]),
    (.sandyBridgeEp, [0x2d]),
    (.sapphirerapids, [0x8F]),
    (.sierraforest, [0xaf]),
    (.skylake, [0x4e, 0x5e]),
    (.skylakeXeon, [0x55]),
    (.tigerlake, [0x8C, 0x8D]),
    (.tremontD, [0x86]),
    (.wildcatlake, [0xd5]),
    (.xeon75xx, [0x2e, 0x2f]) ]

/-- `lookup_intel_cputype`, the switch that `mkcputype` generates (mkcputype:21-36, 49-50);
    `none` for `-1`. -/
def lookupIntelCputype (model : Int32) : Option CpuType :=
  (cputypeTable.find? fun row => row.2.contains model).map Prod.fst

/-- `select_intel_cputype` (intel.c:46-83): the CPU type, and `memory_error_support`
    afterwards. -/
def selectIntelCputype (memoryErrorSupport : Bool) (family model : Int32) : CpuType × Bool :=
  if family = 15 then
    (if model = 6 then .tulsa else .p4, memoryErrorSupport)
  else
    let memoryErrorSupport :=
      if family = 6 ∧ 0x1a ≤ model ∧ model ≠ 28 then true else memoryErrorSupport
    let unknown : CpuType × Bool :=
      if 0xf < family then
        match lookupIntelCputype ((family <<< 8) ||| model) with
        | some cpu => (cpu, memoryErrorSupport)
        | none => (.intel, memoryErrorSupport)
      else if 6 < family then (.intel, memoryErrorSupport)
      else (if family = 6 then .p6old else .generic, memoryErrorSupport)
    if family = 6 then
      match lookupIntelCputype model with
      | some cpu => (cpu, memoryErrorSupport)
      | none => if 0x1a < model then (.intel, memoryErrorSupport) else unknown
    else unknown

/-- `select_zhaoxin_cputype` (zhaoxin.c:39-55): the CPU type, and `memory_error_support`
    afterwards. -/
def selectZhaoxinCputype (family model : Int32) : CpuType × Bool :=
  if family = 0x7 ∧ model = 0x5b then (.zhaoxinKh40000, true)
  else if family = 0x7 ∧ model = 0x7b then (.zhaoxinKh50000, true)
  else (.zhaoxin, true)

/-- The CPU type has a row in the table. -/
def CpuType.listed (cpu : CpuType) : Bool := cputypeTable.any fun row => row.1 = cpu

/-- The models of the CPU types for which `intel_cpu_init` does not expect memory errors:
    P6, Core 2, Dunnington and Atom. -/
def untracked : List Int32 :=
  [0x0, 0x1, 0x2, 0x3, 0x4, 0x5, 0x6, 0x7, 0x8, 0x9, 0xA, 0xB, 0xC, 0xD, 0xE, 0xf, 0x17, 0x1d,
    0x1c, 0x26, 0x27, 0x35, 0x36, 0x37, 0x4a, 0x4c, 0x4d, 0x5a, 0x5d]

section

variable {family model : Int32} {cpu : CpuType}

/-- What holds for every row of the table holds for every model that is found. -/
theorem forall_of_lookup {P : CpuType → Int32 → Bool}
    (hall : (cputypeTable.all fun row => row.2.all (P row.1)) = true)
    (h : lookupIntelCputype model = some cpu) : P cpu model = true := by
  obtain ⟨row, hrow, rfl⟩ := Option.map_eq_some_iff.mp h
  have hmem : row ∈ cputypeTable := List.mem_of_find?_eq_some hrow
  have hmodel : row.2.contains model = true := by
    simpa using List.find?_some hrow
  exact List.all_eq_true.mp (List.all_eq_true.mp hall row hmem) model (by simpa using hmodel)

theorem intelCpuInit_of_lookup (h : lookupIntelCputype model = some cpu) :
    cpu.intelCpuInit = !decide (model ∈ untracked) := by
  have hrow := forall_of_lookup
    (P := fun cpu model => cpu.intelCpuInit == !decide (model ∈ untracked)) (by decide +kernel) h
  simpa using hrow

/-- The first models have no memory error support. -/
theorem untracked_of_lookup (h : lookupIntelCputype model = some cpu) (hlt : model < 0x1a) :
    model ∈ untracked := by
  have hrow := forall_of_lookup
    (P := fun _ model => !decide (model < 0x1a) || decide (model ∈ untracked)) (by decide +kernel) h
  simpa [hlt] using hrow

/-- The two decisions agree. In family 6 they do not for Dunnington and for every Atom but
    the first one; in the families above 15 they do not for any model of the table, which
    are Novalake and Diamond Rapids there (the shifted family of an old model wraps). -/
def SupportAgrees (family model : Int32) : Prop :=
  if family = 6 then model < 0x1a ∨ model = 28 ∨ model ∉ untracked
  else (family <<< 8) ||| model ∈ untracked

instance : Decidable (SupportAgrees family model) :=
  inferInstanceAs (Decidable (if family = 6 then model < 0x1a ∨ model = 28 ∨ model ∉ untracked
    else (family <<< 8) ||| model ∈ untracked))

/-- The ways to a CPU type of the table: two lookups, and the old models of family 6. -/
theorem selectIntelCputype_cases
    (hlisted : (selectIntelCputype false family model).1.listed = true) :
    (family = 6 ∧ ∃ cpu, lookupIntelCputype model = some cpu ∧
      selectIntelCputype false family model = (cpu, decide (0x1a ≤ model ∧ model ≠ 28))) ∨
    (family = 6 ∧ model < 0x1a ∧ selectIntelCputype false family model = (.p6old, false)) ∨
    (family ≠ 6 ∧ ∃ cpu, lookupIntelCputype ((family <<< 8) ||| model) = some cpu ∧
      selectIntelCputype false family model = (cpu, false)) := by
  have hp4 : CpuType.p4.listed = false := by decide +kernel
  have htulsa : CpuType.tulsa.listed = false := by decide +kernel
  have hintel : CpuType.intel.listed = false := by decide +kernel
  have hgeneric : CpuType.generic.listed = false := by decide +kernel
  by_cases hsix : family = 6
  · subst hsix
    have hlt : ¬(0xf : Int32) < 6 ∧ ¬(6 : Int32) < 6 ∧ (6 : Int32) ≠ 15 := by decide
    cases hlookup : lookupIntelCputype model with
    | some cpu =>
      refine .inl ⟨rfl, cpu, rfl, ?_⟩
      simp [selectIntelCputype, hlookup, hlt]
    | none =>
      by_cases hgt : (0x1a : Int32) < model
      · rw [selectIntelCputype] at hlisted
        simp [hlookup, hlt, hgt, hintel] at hlisted
      · have hne : model ≠ 0x1a := by
          rintro rfl
          exact absurd hlookup (by decide +kernel)
        have hmodel : model < 0x1a :=
          Int32.lt_of_le_of_ne (Int32.not_lt.mp hgt) hne
        refine .inr (.inl ⟨rfl, hmodel, ?_⟩)
        simp [selectIntelCputype, hlookup, hlt, hgt, Int32.not_le.mpr hmodel]
  · refine .inr (.inr ⟨hsix, ?_⟩)
    by_cases hfifteen : family = 15
    · rw [selectIntelCputype, if_pos hfifteen] at hlisted
      split_ifs at hlisted <;> simp_all
    · by_cases hnew : (0xf : Int32) < family
      · cases hlookup : lookupIntelCputype ((family <<< 8) ||| model) with
        | some cpu =>
          refine ⟨cpu, rfl, ?_⟩
          simp [selectIntelCputype, hfifteen, hsix, hnew, hlookup]
        | none =>
          rw [selectIntelCputype] at hlisted
          simp [hfifteen, hsix, hnew, hlookup, hintel] at hlisted
      · rw [selectIntelCputype] at hlisted
        simp only [hfifteen, hsix, hnew, if_false] at hlisted
        split_ifs at hlisted <;> simp_all

/-- **Memory error support.** For every family and model with a CPU type of the table, the
    support that the detection leaves is the one that `--cpu` sets, if and only if
    `SupportAgrees`. -/
theorem memory_error_support_iff
    (hlisted : (selectIntelCputype false family model).1.listed = true) :
    (selectIntelCputype false family model).2 =
        (selectIntelCputype false family model).1.intelCpuInit ↔
      SupportAgrees family model := by
  unfold SupportAgrees
  obtain ⟨rfl, cpu, hlookup, hselect⟩ | ⟨rfl, hlt, hselect⟩ | ⟨hsix, cpu, hlookup, hselect⟩ :=
    selectIntelCputype_cases hlisted
  · rw [hselect, if_pos rfl, intelCpuInit_of_lookup hlookup]
    by_cases hlt : model < 0x1a
    · have huntracked := untracked_of_lookup hlookup hlt
      simp [hlt, huntracked, Int32.not_le.mpr hlt]
    · by_cases hatom : model = 28
      · subst hatom
        refine iff_of_true ?_ (.inr (.inl rfl))
        show decide ((26 : Int32) ≤ 28 ∧ (28 : Int32) ≠ 28) = !decide ((28 : Int32) ∈ untracked)
        decide
      · simp [hlt, hatom, Int32.not_lt.mp hlt]
  · rw [hselect, if_pos rfl]
    exact iff_of_true rfl (.inl hlt)
  · rw [hselect, if_neg hsix, intelCpuInit_of_lookup hlookup]
    simp

/-- A Nehalem. -/
theorem nehalem_agrees : (selectIntelCputype false 6 0x1a).1.listed = true ∧
    (selectIntelCputype false 6 0x1a).2 = (selectIntelCputype false 6 0x1a).1.intelCpuInit :=
  ⟨by decide +kernel, (memory_error_support_iff (by decide +kernel)).mpr (by decide)⟩

/-- Diamond Rapids is detected without support, an Atom of the second generation with it. -/
theorem support_differs :
    selectIntelCputype false 0x13 0x1 = (.diamondrapids, false) ∧
    CpuType.diamondrapids.listed = true ∧ CpuType.diamondrapids.intelCpuInit = true ∧
    selectIntelCputype false 6 0x37 = (.atom, true) ∧
    CpuType.atom.listed = true ∧ CpuType.atom.intelCpuInit = false := by
  decide +kernel

end

end Mcelog.Machine
