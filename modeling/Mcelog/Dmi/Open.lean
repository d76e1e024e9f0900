import Mcelog.Dmi.Sanity
import Mcelog.Dmi.Walk

/-!
# Opening the table

`opendmi` reads the table once and leaves behind the entry of each handle, the address ranges
in the order of `cmp_range`, and the memory devices.

* `fillHandles_slot`: a handle stands for the last entry that has it, of whatever type.
* `dmiCollect_eq`: the entries that are collected.
* `opendmi_isSome`: a table whose walk stays inside it is opened.
-/

namespace Mcelog.Dmi

open Mcelog.Common

/-! ## The tables that are left behind -/

/-- A memory device. `check_entry` has accepted it, so that its strings end. -/
def memdev (t : Table) (e : ℕ) : Option Memdev := do
  let length ← lengthOf t e
  let deviceLocator ← t[e + 16]?
  if h : (stringsEnd (t.drop (e + length.toNat)) 0).isSome = true then
    return ⟨deviceLocator, t.drop (e + length.toNat), h⟩
  else none

/-- `handle_to_entry`, `dmi_ranges` and `dmi_dimms` -/
structure DmiTables where
  handleToEntry : HandleMap
  dmiRanges : List MemdevAddr
  dmiDimms : List Memdev

/-- `opendmi` from the table on (dmi.c:348-349): `fill_handles`, which must not store behind
    the last slot, and `collect_dmi_dimms` (dmi.c:482-494). -/
def opendmi (qsort : ComparisonSort MemdevAddr) (t : Table) (verbose : ℤ) (numentries : ℕ) :
    Option DmiTables := do
  let handles ← fillHandles t verbose numentries
  if handles.overrun then none
  let collect (type : DmiType) := dmiCollect t verbose numentries type type.minsize
  let ranges ← (← collect .memoryMappedAddr).mapM (memdevAddr t)
  let dimms ← (← collect .memoryDevice).mapM (memdev t)
  let _ ← collect .memoryArray
  let _ ← collect .memoryArrayAddr
  return ⟨handles, qsort.sort compareRanges ranges, dimms⟩

/-! ## What the table says -/

/-- The entries of the table. -/
def entriesOf (t : Table) (numentries : ℕ) : List ℕ := passed (nextEntry t) numentries 0

/-- The last entry with this handle. -/
def entryWith (t : Table) (numentries : ℕ) (handle : UInt16) : Option ℕ :=
  ((entriesOf t numentries).filter fun e => handleOf t e = some handle).getLast?

/-- The entry is collected: it has this type and all the fields, and is not disabled. -/
def Wanted (t : Table) (type : DmiType) (minsize e : ℕ) : Prop :=
  typeOf t e = some type.code ∧ (∃ length ∈ lengthOf t e, minsize ≤ length.toNat) ∧
    ¬ (type = .memoryDevice ∧ readShort t (e + 12) = some 0)

instance (t : Table) (type : DmiType) (minsize e : ℕ) : Decidable (Wanted t type minsize e) :=
  inferInstanceAs (Decidable (_ ∧ _ ∧ _))

section

variable {t : Table} {verbose : ℤ} {n e : ℕ} {m m' : HandleMap} {handle : UInt16}
  {type : DmiType} {minsize : ℕ} {l r r' : List ℕ}

/-! ## The handles -/

theorem HandleMap.store_slot {k : ℕ} (hk : k < handleSlots) (m : HandleMap) (handle e : ℕ) :
    (m.store handle e).slot k = if handle = k then some e else m.slot k := by
  unfold HandleMap.store
  split_ifs with hin heq heq
  · rw [heq]
    exact Function.update_self _ _ _
  · exact Function.update_of_ne (Ne.symm heq) _ _
  · omega
  · rfl

theorem fillHandle_eq (h : fillHandle t m e = some m') :
    ∃ handle, handleOf t e = some handle ∧ m' = m.store handle.toNat e := by
  obtain ⟨handle, hhandle, h⟩ := Option.bind_eq_some_iff.mp h
  exact ⟨handle, hhandle, (Option.some.inj h).symm⟩

/-- A later entry takes the slot of an earlier one. -/
theorem foldlM_fillHandle_slot (h : l.foldlM (fillHandle t) m = some m')
    (hhandle : handle.toNat < handleSlots) :
    m'.slot handle.toNat =
      ((l.filter fun e => handleOf t e = some handle).getLast?).or (m.slot handle.toNat) := by
  induction l generalizing m with
  | nil => rw [Option.some.inj h]; rfl
  | cons e l ih =>
    rw [List.foldlM_cons] at h
    obtain ⟨m₁, hfill, hrest⟩ := Option.bind_eq_some_iff.mp h
    obtain ⟨handle', hhandle', rfl⟩ := fillHandle_eq hfill
    rw [ih hrest, HandleMap.store_slot hhandle]
    by_cases heq : handle' = handle
    · rw [if_pos (congrArg _ heq), List.filter_cons_of_pos (by simp [hhandle', heq]),
        List.getLast?_cons]
      cases (l.filter fun e => handleOf t e = some handle).getLast? <;> rfl
    · rw [if_neg fun hnat => heq (UInt16.toNat_inj.mp hnat),
        List.filter_cons_of_neg (by simp [hhandle', heq])]

/-- The loop of `fill_handles` goes over the entries of the table. -/
theorem fillHandles_eq (h : fillHandles t verbose n = some m) :
    (entriesOf t n).foldlM (fillHandle t) HandleMap.empty = some m := by
  rw [fillHandles] at h
  rw [entriesOf, ← walk_eq_foldlM (check_of_walk (fun _ _ => checkEntry_agrees) h)]
  exact h

/-- A handle stands for the last entry that has it. -/
theorem fillHandles_slot (h : fillHandles t verbose n = some m)
    (hhandle : handle.toNat < handleSlots) : m.slot handle.toNat = entryWith t n handle := by
  rw [foldlM_fillHandle_slot (fillHandles_eq h) hhandle, entryWith]
  exact Option.or_none

/-! ## The collected entries -/

theorem eq_of_printed {read : Option UInt16}
    (h : ((printed 0 verbose read).bind fun _ => some r) = some r') : r' = r := by
  obtain ⟨_, -, h⟩ := Option.bind_eq_some_iff.mp h
  exact (Option.some.inj h).symm

/-- The entry is long enough: what `dmi_collect` does then. -/
theorem collectEntry_of_long {length : UInt8} (htype : typeOf t e = some type.code)
    (hlength : lengthOf t e = some length) (hlong : minsize ≤ length.toNat) :
    collectEntry t verbose type minsize r e =
      if type = .memoryDevice then (readShort t (e + 12)).bind fun size =>
        if size = 0 then (printed 0 verbose (handleOf t e)).bind fun _ => some r
        else some (r ++ [e])
      else some (r ++ [e]) := by
  rw [collectEntry, htype, hlength]
  simp only [Option.bind_eq_bind, Option.bind_some, Option.pure_def, ne_eq, not_true_eq_false,
    if_false, if_neg (Nat.not_lt.mpr hlong), Bool.false_eq_true]
  split_ifs with hdevice
  · cases readShort t (e + 12) <;> simp
  · rfl

/-- The body of `dmi_collect` appends an entry that is wanted. -/
theorem collectEntry_eq (h : collectEntry t verbose type minsize r e = some r') :
    r' = if Wanted t type minsize e then r ++ [e] else r := by
  obtain ⟨found, hfound, hrest⟩ := Option.bind_eq_some_iff.mp h
  by_cases htype : found = type.code
  swap
  · have hnot : ¬ Wanted t type minsize e := fun hwanted =>
      htype (Option.some.inj (hfound.symm.trans hwanted.1))
    rw [if_pos htype] at hrest
    rw [if_neg hnot]
    exact (Option.some.inj hrest).symm
  rw [if_neg (not_not.mpr htype)] at hrest
  obtain ⟨length, hlength, hrest⟩ := Option.bind_eq_some_iff.mp hrest
  by_cases hshort : length.toNat < minsize
  · have hnot : ¬ Wanted t type minsize e := by
      rintro ⟨-, ⟨length', hlength', hle⟩, -⟩
      rw [hlength, Option.mem_some_iff] at hlength'
      subst hlength'
      omega
    rw [if_pos hshort] at hrest
    rw [if_neg hnot]
    exact eq_of_printed hrest
  have hlong : ∃ length ∈ lengthOf t e, minsize ≤ length.toNat := ⟨length, hlength, by omega⟩
  rw [collectEntry_of_long (htype ▸ hfound) hlength (Nat.not_lt.mp hshort)] at h
  have hwanted (henabled : type = .memoryDevice → readShort t (e + 12) ≠ some 0) :
      Wanted t type minsize e :=
    ⟨htype ▸ hfound, hlong, fun hdisabled => henabled hdisabled.1 hdisabled.2⟩
  split_ifs at h with hdevice
  · obtain ⟨size, hsize, h⟩ := Option.bind_eq_some_iff.mp h
    split_ifs at h with hzero
    · rw [if_neg fun hwanted : Wanted t type minsize e =>
        hwanted.2.2 ⟨hdevice, hzero ▸ hsize⟩]
      exact eq_of_printed h
    · rw [if_pos (hwanted fun _ hread => hzero (Option.some.inj (hsize.symm.trans hread)))]
      exact (Option.some.inj h).symm
  · rw [if_pos (hwanted fun hdevice' => absurd hdevice' hdevice)]
    exact (Option.some.inj h).symm

/-- The entries that are collected, in the order of the table. -/
theorem dmiCollect_eq (h : dmiCollect t verbose n type minsize = some r) :
    r = (entriesOf t n).filter fun e => Wanted t type minsize e := by
  rw [dmiCollect] at h
  rw [walk_eq_foldlM (check_of_walk (fun _ _ => checkEntry_agrees) h)] at h
  rw [foldlM_filter (fun _ _ _ => collectEntry_eq) h, List.nil_append, entriesOf]

/-! ## Opening -/

/-- The ranges of the mapped-address entries. -/
def mappedRanges (t : Table) (numentries : ℕ) : List MemdevAddr :=
  ((entriesOf t numentries).filter fun e =>
    Wanted t .memoryMappedAddr (DmiType.minsize .memoryMappedAddr) e).filterMap (memdevAddr t)

/-- What `opendmi` leaves behind. -/
theorem opendmi_eq_some {qsort : ComparisonSort MemdevAddr} {d : DmiTables}
    (h : opendmi qsort t verbose n = some d) :
    fillHandles t verbose n = some d.handleToEntry ∧ d.handleToEntry.overrun = false ∧
      d.dmiRanges = qsort.sort compareRanges (mappedRanges t n) := by
  obtain ⟨handles, hhandles, h⟩ := Option.bind_eq_some_iff.mp h
  by_cases hover : handles.overrun = true
  · rw [if_pos hover] at h
    cases h
  rw [if_neg hover] at h
  obtain ⟨es, hes, h⟩ := Option.bind_eq_some_iff.mp h
  obtain ⟨ranges, hranges, h⟩ := Option.bind_eq_some_iff.mp h
  obtain ⟨es', hes', h⟩ := Option.bind_eq_some_iff.mp h
  obtain ⟨dimms, hdimms, h⟩ := Option.bind_eq_some_iff.mp h
  obtain ⟨_, -, h⟩ := Option.bind_eq_some_iff.mp h
  obtain ⟨_, -, h⟩ := Option.bind_eq_some_iff.mp h
  have hd := (Option.some.inj h).symm
  subst hd
  refine ⟨hhandles, Bool.eq_false_iff.mpr hover, ?_⟩
  rw [mappedRanges, ← dmiCollect_eq hes, ← mapM_eq_filterMap hranges]

/-- A collected entry has its fields in the table. -/
theorem fields_of_wanted (he : e ∈ entriesOf t n) (hwanted : Wanted t type minsize e) :
    ∃ length, lengthOf t e = some length ∧ minsize ≤ length.toNat ∧
      (stringsEnd t (e + length.toNat)).isSome = true ∧ e + length.toNat + 2 ≤ t.length := by
  obtain ⟨next, hnext⟩ := Option.isSome_iff_exists.mp (mem_passed.mp he).2
  obtain ⟨length, p, hlength, hle, -, hin, hnul⟩ := lt_of_nextEntry hnext
  obtain ⟨length', hlength', hsize⟩ := hwanted.2.1
  have heq : length' = length := Option.some.inj (Eq.trans hlength'.symm hlength)
  exact ⟨length, hlength, heq ▸ hsize, stringsEnd_isSome.mpr ⟨p, hle, hnul⟩, by omega⟩

theorem memdevAddr_isSome (h : e + 14 ≤ t.length) : (memdevAddr t e).isSome = true := by
  have hstart : (readWord t (e + 4)).isSome = true := readWord_isSome.mpr (by omega)
  have hend : (readWord t (e + 8)).isSome = true := readWord_isSome.mpr (by omega)
  have hhandle : (readShort t (e + 12)).isSome = true := readShort_isSome.mpr (by omega)
  obtain ⟨_, hstart⟩ := Option.isSome_iff_exists.mp hstart
  obtain ⟨_, hend⟩ := Option.isSome_iff_exists.mp hend
  obtain ⟨_, hhandle⟩ := Option.isSome_iff_exists.mp hhandle
  rw [memdevAddr, hstart, hend, hhandle]
  rfl

theorem memdev_isSome {length : UInt8} (hlength : lengthOf t e = some length)
    (hin : e + 17 ≤ t.length) (hend : (stringsEnd t (e + length.toNat)).isSome = true) :
    (memdev t e).isSome = true := by
  have hlocator : t[e + 16]? = some t[e + 16] := List.getElem?_eq_getElem (by omega)
  have hends : (stringsEnd (t.drop (e + length.toNat)) 0).isSome = true := by
    obtain ⟨p, hle, hnul⟩ := stringsEnd_isSome.mp hend
    refine stringsEnd_isSome.mpr ⟨p - (e + length.toNat), Nat.zero_le _, doubleNul_drop.mpr ?_⟩
    rwa [Nat.add_sub_of_le hle]
  rw [memdev, hlength, hlocator]
  simp only [Option.bind_eq_bind, Option.bind_some, dif_pos hends]
  rfl

/-- **Opening a table.** It is opened when the walk stays inside it and no handle is stored
    behind the last slot. -/
theorem opendmi_isSome {qsort : ComparisonSort MemdevAddr} (h : WalkInside t verbose n)
    (hover : ∀ m, fillHandles t verbose n = some m → m.overrun = false) :
    (opendmi qsort t verbose n).isSome = true := by
  obtain ⟨m, hm⟩ := Option.isSome_iff_exists.mp h.handles
  obtain ⟨es, hes⟩ := Option.isSome_iff_exists.mp (h.collects .memoryMappedAddr)
  obtain ⟨es', hes'⟩ := Option.isSome_iff_exists.mp (h.collects .memoryDevice)
  obtain ⟨_, harrays⟩ := Option.isSome_iff_exists.mp (h.collects .memoryArray)
  obtain ⟨_, haddrs⟩ := Option.isSome_iff_exists.mp (h.collects .memoryArrayAddr)
  have hranges : (es.mapM (memdevAddr t)).isSome = true := by
    refine mapM_isSome fun e he => ?_
    rw [dmiCollect_eq hes, List.mem_filter] at he
    obtain ⟨length, -, hsize, -, hin⟩ := fields_of_wanted he.1 (of_decide_eq_true he.2)
    have hmin : DmiType.minsize .memoryMappedAddr = 14 := rfl
    exact memdevAddr_isSome (by omega)
  have hdimms : (es'.mapM (memdev t)).isSome = true := by
    refine mapM_isSome fun e he => ?_
    rw [dmiCollect_eq hes', List.mem_filter] at he
    obtain ⟨length, hlength, hsize, hend, hin⟩ := fields_of_wanted he.1 (of_decide_eq_true he.2)
    have hmin : DmiType.minsize .memoryDevice = 17 := rfl
    exact memdev_isSome hlength (by omega) hend
  obtain ⟨ranges, hranges⟩ := Option.isSome_iff_exists.mp hranges
  obtain ⟨dimms, hdimms⟩ := Option.isSome_iff_exists.mp hdimms
  simp [opendmi, hm, hover m hm, hes, hes', harrays, haddrs, hranges, hdimms]

end

end Mcelog.Dmi
