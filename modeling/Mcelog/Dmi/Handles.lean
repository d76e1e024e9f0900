import Mcelog.Dmi.Lookup

/-!
# The handle map has a slot too few

A handle has 16 bits, and `handle_to_entry` has 0xffff slots: one for each handle but 0xffff.
`fill_handles` stores an entry with this handle behind the last slot, and `dmi_find_addr`
looks it up there.

* `fillHandles_overrun`: the store goes wrong exactly when an entry has the handle 0xffff.
* `findDevices_isSome`: so does the lookup, for a range that is hit.
* `handles_fit_iff`: the map is right for all tables without this handle.
-/

namespace Mcelog.Dmi

open Mcelog.Common

/-! ## What the map should do -/

/-- The entries that the loop of `fill_handles` accepts. -/
def acceptedEntries (t : Table) (verbose : ℤ) (numentries : ℕ) : List ℕ :=
  passed (fun e => (checkEntry t verbose e).getD none) numentries 0

/-- The entries whose handle is stored all go to a slot, the handles of the ranges are all looked
    up in a slot, and the map sends each handle to the last entry that has it. -/
structure HandlesFit (qsort : ComparisonSort MemdevAddr) (t : Table) (verbose : ℤ)
    (numentries : ℕ) : Prop where
  stores : ∀ e ∈ acceptedEntries t verbose numentries, ∀ handle ∈ handleOf t e,
    handle.toNat < handleSlots
  loads : ∀ m addr,
    (findDevices m addr [] (qsort.sort compareRanges (mappedRanges t numentries))).isSome = true
  last : ∀ m, fillHandles t verbose numentries = some m → m.overrun = false ∧
    ∀ handle : UInt16, m.slot handle.toNat = entryWith t numentries handle

/-- No accepted entry has the last handle, and no range with an address that is looked up. -/
structure NoLastHandle (t : Table) (verbose : ℤ) (numentries : ℕ) : Prop where
  entries : ∀ e ∈ acceptedEntries t verbose numentries, handleOf t e ≠ some 0xffff
  ranges : ∀ da ∈ mappedRanges t numentries, da.startAddr < da.endAddr → da.devHandle ≠ 0xffff

section

variable {t : Table} {verbose : ℤ} {n e : ℕ} {m m' : HandleMap} {handle : UInt16}
  {da : MemdevAddr} {dmiRanges : List MemdevAddr} {l : List ℕ}

/-! ## Stores -/

/-- One handle has no slot. -/
theorem lt_handleSlots_iff : handle.toNat < handleSlots ↔ handle ≠ 0xffff := by
  have hmax := handle.toNat_lt
  have hlast : (0xffff : UInt16).toNat = 0xffff := rfl
  rw [handleSlots, ne_eq, ← UInt16.toNat_inj, hlast]
  omega

/-- A slot behind the last one is never filled. -/
theorem HandleMap.store_slot_last (m : HandleMap) (handle e : ℕ) :
    (m.store handle e).slot handleSlots = m.slot handleSlots := by
  unfold HandleMap.store
  split_ifs with hin
  · exact Function.update_of_ne (Nat.ne_of_gt hin) _ _
  · rfl

theorem HandleMap.store_overrun (m : HandleMap) (handle e : ℕ) :
    (m.store handle e).overrun = (m.overrun || !decide (handle < handleSlots)) := by
  unfold HandleMap.store
  split_ifs with hin
  · simp [hin]
  · simp [hin]

/-- The loop goes wrong at the first entry with the last handle. -/
theorem foldlM_fillHandle_overrun (h : l.foldlM (fillHandle t) m = some m') :
    (m'.overrun = true ↔ m.overrun = true ∨ ∃ e ∈ l, handleOf t e = some 0xffff) ∧
      m'.slot handleSlots = m.slot handleSlots := by
  induction l generalizing m with
  | nil =>
    rw [← Option.some.inj h]
    simp
  | cons e l ih =>
    rw [List.foldlM_cons] at h
    obtain ⟨m₁, hfill, hrest⟩ := Option.bind_eq_some_iff.mp h
    obtain ⟨handle, hhandle, rfl⟩ := fillHandle_eq hfill
    obtain ⟨hover, hslot⟩ := ih hrest
    refine ⟨?_, hslot.trans (m.store_slot_last _ _)⟩
    have hstore : (m.store handle.toNat e).overrun = true ↔
        m.overrun = true ∨ handle = 0xffff := by
      rw [HandleMap.store_overrun, Bool.or_eq_true, Bool.not_eq_true', decide_eq_false_iff_not,
        lt_handleSlots_iff, not_not]
    rw [hover, hstore, List.exists_mem_cons_iff, hhandle, Option.some.injEq, or_assoc]

theorem fillHandles_overrun (h : fillHandles t verbose n = some m) :
    (m.overrun = true ↔ ∃ e ∈ entriesOf t n, handleOf t e = some 0xffff) ∧
      m.slot handleSlots = none := by
  obtain ⟨hover, hslot⟩ := foldlM_fillHandle_overrun (fillHandles_eq h)
  exact ⟨hover.trans (or_iff_right Bool.false_ne_true), hslot⟩

/-- A run that stays inside the table accepts the entries of the table. -/
theorem acceptedEntries_eq (h : fillHandles t verbose n = some m) :
    acceptedEntries t verbose n = entriesOf t n := by
  rw [fillHandles] at h
  have hchecks := check_of_walk (fun _ _ => checkEntry_agrees) h
  rw [acceptedEntries, entriesOf]
  refine passed_congr fun e he => ?_
  rw [hchecks e he, Option.getD_some]

/-! ## Loads -/

/-- A range that has an address is hit at its start. -/
theorem hit_startAddr (h : da.startAddr < da.endAddr) :
    Hit da (UInt64.ofNat (da.startAddr.toNat * 1024)) := by
  have hlt := UInt32.lt_iff_toNat_lt.mp h
  have hmax := da.startAddr.toNat_lt
  have haddr : (UInt64.ofNat (da.startAddr.toNat * 1024)).toNat = da.startAddr.toNat * 1024 :=
    UInt64.toNat_ofNat_of_lt' (show _ < 2 ^ 64 by omega)
  rw [Hit, haddr]
  omega

theorem lt_of_hit {addr : UInt64} (h : Hit da addr) : da.startAddr < da.endAddr := by
  rw [Hit] at h
  rw [UInt32.lt_iff_toNat_lt]
  omega

/-- Every address is looked up in the slots, in whatever map. -/
theorem findDevices_isSome : (∀ m addr, (findDevices m addr [] dmiRanges).isSome = true) ↔
    ∀ da ∈ dmiRanges, da.startAddr < da.endAddr → da.devHandle ≠ 0xffff := by
  constructor
  · intro h da hda hlt
    obtain ⟨devs, hdevs⟩ := Option.isSome_iff_exists.mp (h HandleMap.empty _)
    exact lt_handleSlots_iff.mp (slot_of_findDevices hdevs da hda (hit_startAddr hlt))
  · intro h m addr
    rw [findDevices_eq fun da hda hhit => lt_handleSlots_iff.mpr (h da hda (lt_of_hit hhit))]
    rfl

/-! ## The map -/

/-- **The handle map.** For every table, the stores and loads keep to the slots and each handle
    ends up with its last entry exactly when no accepted entry has the handle 0xffff and no
    range that contains an address has it as its `dev_handle`. -/
theorem handles_fit_iff (qsort : ComparisonSort MemdevAddr) (t : Table) (verbose : ℤ)
    (numentries : ℕ) :
    HandlesFit qsort t verbose numentries ↔ NoLastHandle t verbose numentries := by
  have hperm := qsort.perm compareRanges (mappedRanges t numentries)
  constructor
  · intro h
    refine ⟨fun e he hlast => ?_, fun da hda => ?_⟩
    · exact lt_handleSlots_iff.mp (h.stores e he 0xffff hlast) rfl
    · exact findDevices_isSome.mp h.loads da (hperm.mem_iff.mpr hda)
  · intro h
    refine ⟨fun e he handle hhandle => ?_, ?_, fun m hm => ?_⟩
    · refine lt_handleSlots_iff.mpr fun hlast => h.entries e he ?_
      rw [← hlast]
      exact hhandle
    · exact findDevices_isSome.mpr fun da hda => h.ranges da (hperm.mem_iff.mp hda)
    · have hnone := h.entries
      rw [acceptedEntries_eq hm] at hnone
      obtain ⟨hover, hslot⟩ := fillHandles_overrun hm
      refine ⟨Bool.eq_false_iff.mpr fun htrue => ?_, fun handle => ?_⟩
      · obtain ⟨e, he, hlast⟩ := hover.mp htrue
        exact hnone e he hlast
      · by_cases hhandle : handle = 0xffff
        · -- the handle without a slot stands for no entry
          subst hhandle
          have hentry : entryWith t numentries 0xffff = none := by
            rw [entryWith, List.getLast?_eq_none_iff, List.filter_eq_nil_iff]
            exact fun e he hlast => hnone e he (of_decide_eq_true hlast)
          exact hslot.trans hentry.symm
        · exact fillHandles_slot hm (lt_handleSlots_iff.mpr hhandle)

/-- An end-of-table entry with the handle 0xffff. -/
def endWithLastHandle : Table := [127, 4, 0xff, 0xff, 0, 0]

/-- Its handle is stored behind the last slot. -/
theorem last_handle_stored_outside :
    (∃ m, fillHandles endWithLastHandle 0 1 = some m ∧ m.overrun = true) ∧
      ¬ HandlesFit .mergeSort endWithLastHandle 0 1 := by
  refine ⟨?_, fun h => ?_⟩
  · have hsome : (fillHandles endWithLastHandle 0 1).isSome = true := by decide
    obtain ⟨m, hm⟩ := Option.isSome_iff_exists.mp hsome
    exact ⟨m, hm, (fillHandles_overrun hm).1.mpr ⟨0, by decide, by decide⟩⟩
  · have hlt := h.stores 0 (by decide) 0xffff (by decide)
    exact absurd hlt (by decide)

end

end Mcelog.Dmi
