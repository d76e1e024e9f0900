import Mcelog.Dmi.Open

/-!
# From an address to its DIMMs

`dmi_find_addr` goes over the ranges and collects the entry that the handle of each one that
contains the address stands for. The last kilobyte of a range belongs to it: the next range
starts behind it, and `dmi_sanity_check` rejects one that starts there. The lookup compares
with the start of this kilobyte, and so leaves it out. And it takes whatever entry the
handle stands for, a memory device or not.

* `LooksUp`: the devices of the ranges that contain the address are found, and no others.
* `findDevices_eq`: what the loop finds.
* `dmi_find_addr_iff`: when the lookup is exact.
-/

namespace Mcelog.Dmi

open Mcelog.Common

/-! ## The lookup -/

/-- `addr >= start_addr*1024 && addr < end_addr*1024`, in 64 bits -/
def Hit (da : MemdevAddr) (addr : UInt64) : Prop :=
  ¬ (addr.toNat < da.startAddr.toNat * 1024 ∨ addr.toNat ≥ da.endAddr.toNat * 1024)

instance (da : MemdevAddr) (addr : UInt64) : Decidable (Hit da addr) :=
  inferInstanceAs (Decidable (¬ _))

/-- The loop of `dmi_find_addr` with `devs[0..k-1]` (dmi.c:621-629). A handle behind the last
    slot is looked up outside the array. -/
def findDevices (m : HandleMap) (addr : UInt64) : List ℕ → List MemdevAddr → Option (List ℕ)
  | devs, [] => some devs
  | devs, da :: rest =>
    if Hit da addr then
      if da.devHandle.toNat < handleSlots then
        -- `if (devs[k]) k++`
        findDevices m addr (devs ++ (m.slot da.devHandle.toNat).toList) rest
      else none
    else findDevices m addr devs rest

/-- `dmi_find_addr` (dmi.c:614-656) -/
def dmiFindAddr (d : DmiTables) (addr : UInt64) : Option (List ℕ) :=
  findDevices d.handleToEntry addr [] d.dmiRanges

/-! ## What should be found -/

/-- The address is in the range, of which the last kilobyte is `end_addr`. -/
def MemdevAddr.InRange (da : MemdevAddr) (addr : UInt64) : Prop := da.Contains (addr.toNat / 1024)

instance (da : MemdevAddr) (addr : UInt64) : Decidable (da.InRange addr) :=
  inferInstanceAs (Decidable (_ ∧ _))

/-- The last memory device entry with this handle. -/
def memdevWith (t : Table) (numentries : ℕ) (handle : UInt16) : Option ℕ :=
  ((entriesOf t numentries).filter fun e =>
    handleOf t e = some handle ∧ typeOf t e = some DmiType.memoryDevice.code).getLast?

/-- The memory devices of the ranges that contain the address, in the order of the ranges. -/
def devicesAt (t : Table) (numentries : ℕ) (dmiRanges : List MemdevAddr) (addr : UInt64) :
    List ℕ :=
  (dmiRanges.filter fun da => da.InRange addr).filterMap fun da =>
    memdevWith t numentries da.devHandle

/-- Each range starts at the kilobyte behind the one before it. -/
def Contiguous (dmiRanges : List MemdevAddr) : Prop :=
  dmiRanges.IsChain fun a b => b.startAddr.toNat = a.endAddr.toNat + 1

/-- The lookup finds the memory devices of the mapped-address entries whose ranges contain the
    address. Contiguous ranges contain each address between the first start and the last
    end. -/
structure LooksUp (t : Table) (numentries : ℕ) (d : DmiTables) (addr : UInt64) : Prop where
  ranges : d.dmiRanges.Perm (mappedRanges t numentries)
  exact : dmiFindAddr d addr = some (devicesAt t numentries d.dmiRanges addr)
  contiguous : ∀ a ∈ d.dmiRanges.head?, ∀ z ∈ d.dmiRanges.getLast?, Contiguous d.dmiRanges →
    a.startAddr.toNat ≤ addr.toNat / 1024 → addr.toNat / 1024 ≤ z.endAddr.toNat →
    (∀ da ∈ d.dmiRanges, (memdevWith t numentries da.devHandle).isSome = true) →
    dmiFindAddr d addr ≠ some []

/-- The lookup does right by the range: where it takes the address to be in the range, the
    last entry with the handle is a memory device, if there is one; where the address is in
    the last kilobyte of the range, there is no memory device with the handle. -/
structure RightRange (t : Table) (numentries : ℕ) (da : MemdevAddr) (addr : UInt64) : Prop where
  slot : Hit da addr → da.devHandle.toNat < handleSlots
  device : Hit da addr → ∀ e, entryWith t numentries da.devHandle = some e →
    typeOf t e = some DmiType.memoryDevice.code
  last : da.InRange addr → addr.toNat / 1024 = da.endAddr.toNat →
    memdevWith t numentries da.devHandle = none

section

variable {t : Table} {verbose : ℤ} {n e : ℕ} {m : HandleMap} {handle : UInt16} {addr : UInt64}
  {da : MemdevAddr} {dmiRanges : List MemdevAddr} {devs devs' : List ℕ}

/-! ## Handles and memory devices -/

/-- The last element that passes is the last one of those that have to pass more. -/
theorem getLast?_filter_and {α : Type*} {p q : α → Bool} {l : List α} {a : α}
    (h : (l.filter p).getLast? = some a) (hq : q a = true) :
    (l.filter fun x => p x && q x).getLast? = some a := by
  obtain ⟨init, hinit⟩ := List.getLast?_eq_some_iff.mp h
  have hsplit : (l.filter fun x => p x && q x) = (l.filter p).filter q := by
    rw [List.filter_filter]
    exact List.filter_congr fun x _ => Bool.and_comm _ _
  rw [hsplit, hinit, List.filter_append, List.filter_cons_of_pos hq, List.filter_nil,
    List.getLast?_concat]

theorem memdevWith_of_entryWith (h : entryWith t n handle = some e)
    (htype : typeOf t e = some DmiType.memoryDevice.code) : memdevWith t n handle = some e := by
  have hlast := getLast?_filter_and
    (q := fun x => decide (typeOf t x = some DmiType.memoryDevice.code)) h (decide_eq_true htype)
  rw [memdevWith, ← hlast]
  simp only [Bool.decide_and]

theorem memdevWith_of_entryWith_none (h : entryWith t n handle = none) :
    memdevWith t n handle = none := by
  rw [entryWith, List.getLast?_eq_none_iff, List.filter_eq_nil_iff] at h
  rw [memdevWith, List.getLast?_eq_none_iff, List.filter_eq_nil_iff]
  exact fun x hx hboth => h x hx (decide_eq_true (of_decide_eq_true hboth).1)

theorem typeOf_memdevWith (h : memdevWith t n handle = some e) :
    typeOf t e = some DmiType.memoryDevice.code :=
  (of_decide_eq_true (List.mem_filter.mp (List.mem_of_getLast? h)).2).2

/-! ## What the loop finds -/

/-- The lookup leaves out the last kilobyte of a range. -/
theorem hit_iff : Hit da addr ↔ da.InRange addr ∧ addr.toNat / 1024 ≠ da.endAddr.toNat := by
  rw [Hit, MemdevAddr.InRange, MemdevAddr.Contains]
  omega

/-- The loop finds an entry for each range that is hit, unless its handle stands for none. -/
theorem findDevices_eq (h : ∀ da ∈ dmiRanges, Hit da addr → da.devHandle.toNat < handleSlots) :
    findDevices m addr devs dmiRanges = some (devs ++ dmiRanges.flatMap fun da =>
      if Hit da addr then (m.slot da.devHandle.toNat).toList else []) := by
  induction dmiRanges generalizing devs with
  | nil => rw [findDevices, List.flatMap_nil, List.append_nil]
  | cons da rest ih =>
    have hrest : ∀ da ∈ rest, Hit da addr → da.devHandle.toNat < handleSlots :=
      fun x hx => h x (List.mem_cons_of_mem _ hx)
    rw [findDevices, List.flatMap_cons]
    by_cases hhit : Hit da addr
    · rw [if_pos hhit, if_pos hhit, if_pos (h da List.mem_cons_self hhit), ih hrest,
        List.append_assoc]
    · rw [if_neg hhit, if_neg hhit, ih hrest, List.nil_append]

/-- A lookup that comes to its end has stayed inside the array. -/
theorem slot_of_findDevices (h : findDevices m addr devs dmiRanges = some devs') :
    ∀ da ∈ dmiRanges, Hit da addr → da.devHandle.toNat < handleSlots := by
  induction dmiRanges generalizing devs with
  | nil => exact fun da hda => absurd hda List.not_mem_nil
  | cons x rest ih =>
    rw [findDevices] at h
    intro da hda hhit
    by_cases hx : Hit x addr
    · rw [if_pos hx] at h
      split_ifs at h with hslot
      rcases List.mem_cons.mp hda with rfl | hda
      · exact hslot
      · exact ih h da hda hhit
    · rw [if_neg hx] at h
      rcases List.mem_cons.mp hda with rfl | hda
      · exact absurd hhit hx
      · exact ih h da hda hhit

theorem devicesAt_eq (dmiRanges : List MemdevAddr) : devicesAt t n dmiRanges addr =
    dmiRanges.flatMap fun da =>
      if da.InRange addr then (memdevWith t n da.devHandle).toList else [] := by
  induction dmiRanges with
  | nil => rfl
  | cons da rest ih =>
    rw [List.flatMap_cons, ← ih, devicesAt, devicesAt]
    by_cases hin : da.InRange addr
    · rw [List.filter_cons_of_pos (by simpa using hin), if_pos hin]
      rw [List.filterMap_cons]
      cases memdevWith t n da.devHandle <;> rfl
    · rw [List.filter_cons_of_neg (by simpa using hin), if_neg hin, List.nil_append]

/-- Of two lists that are put together alike, one from parts that are never longer, the parts
    are equally long. -/
theorem length_eq_of_flatMap {α β : Type*} {f g : α → List β} {l : List α}
    (hle : ∀ a ∈ l, (f a).length ≤ (g a).length)
    (heq : (l.flatMap f).length = (l.flatMap g).length) :
    ∀ a ∈ l, (f a).length = (g a).length := by
  induction l with
  | nil => exact fun a ha => absurd ha List.not_mem_nil
  | cons x l ih =>
    have hrest : ∀ a ∈ l, (f a).length ≤ (g a).length := fun a ha =>
      hle a (List.mem_cons_of_mem _ ha)
    have hx := hle x List.mem_cons_self
    have htotal : (l.flatMap f).length ≤ (l.flatMap g).length := by
      rw [List.length_flatMap, List.length_flatMap]
      exact List.sum_le_sum hrest
    rw [List.flatMap_cons, List.flatMap_cons, List.length_append, List.length_append] at heq
    intro a ha
    rcases List.mem_cons.mp ha with rfl | ha
    · omega
    · exact ih hrest (by omega) a ha

/-! ## The exact lookup -/

/-- What the lookup takes from a range, where it does right by it. -/
theorem found_eq (h : RightRange t n da addr) :
    (if Hit da addr then (entryWith t n da.devHandle).toList else []) =
      if da.InRange addr then (memdevWith t n da.devHandle).toList else [] := by
  by_cases hhit : Hit da addr
  · rw [if_pos hhit, if_pos (hit_iff.mp hhit).1]
    cases hentry : entryWith t n da.devHandle with
    | none => rw [memdevWith_of_entryWith_none hentry]
    | some e => rw [memdevWith_of_entryWith hentry (h.device hhit e hentry)]
  · rw [if_neg hhit]
    split_ifs with hin
    · have hlast : addr.toNat / 1024 = da.endAddr.toNat :=
        not_not.mp fun hne => hhit (hit_iff.mpr ⟨hin, hne⟩)
      rw [h.last hin hlast]
      rfl
    · rfl

/-- What the lookup finds, in terms of the table. -/
theorem dmiFindAddr_eq {d : DmiTables} (hfill : fillHandles t verbose n = some d.handleToEntry)
    (h : ∀ da ∈ d.dmiRanges, Hit da addr → da.devHandle.toNat < handleSlots) :
    dmiFindAddr d addr = some (d.dmiRanges.flatMap fun da =>
      if Hit da addr then (entryWith t n da.devHandle).toList else []) := by
  rw [dmiFindAddr, findDevices_eq h, List.nil_append, Option.some.injEq]
  refine List.flatMap_congr fun da hda => ?_
  split_ifs with hhit
  · rw [fillHandles_slot hfill (h da hda hhit)]
  · rfl

/-- The lookup is exact where it does right by each range. -/
theorem exact_of_rightRange {d : DmiTables}
    (hfill : fillHandles t verbose n = some d.handleToEntry)
    (h : ∀ da ∈ d.dmiRanges, RightRange t n da addr) :
    dmiFindAddr d addr = some (devicesAt t n d.dmiRanges addr) := by
  rw [dmiFindAddr_eq hfill fun da hda => (h da hda).slot, devicesAt_eq, Option.some.injEq]
  exact List.flatMap_congr fun da hda => found_eq (h da hda)

/-- An exact lookup has done right by each range. -/
theorem rightRange_of_exact {d : DmiTables}
    (hfill : fillHandles t verbose n = some d.handleToEntry)
    (h : dmiFindAddr d addr = some (devicesAt t n d.dmiRanges addr)) :
    ∀ da ∈ d.dmiRanges, RightRange t n da addr := by
  have hslots := slot_of_findDevices h
  rw [dmiFindAddr_eq hfill hslots, devicesAt_eq, Option.some.injEq] at h
  -- everything that is found is a memory device
  have hdevice : ∀ da ∈ d.dmiRanges, Hit da addr → ∀ e, entryWith t n da.devHandle = some e →
      typeOf t e = some DmiType.memoryDevice.code := by
    intro da hda hhit e hentry
    have hfound : e ∈ d.dmiRanges.flatMap fun da =>
        if Hit da addr then (entryWith t n da.devHandle).toList else [] :=
      List.mem_flatMap.mpr ⟨da, hda, by rw [if_pos hhit, hentry]; exact List.mem_singleton_self e⟩
    rw [h] at hfound
    obtain ⟨da', -, he⟩ := List.mem_flatMap.mp hfound
    split_ifs at he
    · exact typeOf_memdevWith (Option.mem_toList.mp he)
    · exact absurd he List.not_mem_nil
  have hle : ∀ da ∈ d.dmiRanges,
      (if Hit da addr then (entryWith t n da.devHandle).toList else []).length ≤
        (if da.InRange addr then (memdevWith t n da.devHandle).toList else []).length := by
    intro da hda
    split_ifs with hhit hin hin
    · cases hentry : entryWith t n da.devHandle with
      | none => exact Nat.zero_le _
      | some e => rw [memdevWith_of_entryWith hentry (hdevice da hda hhit e hentry)]
    · exact absurd (hit_iff.mp hhit).1 hin
    · exact Nat.zero_le _
    · exact le_refl _
  have hlength := length_eq_of_flatMap hle (congrArg List.length h)
  refine fun da hda => ⟨hslots da hda, hdevice da hda, fun hin hlast => ?_⟩
  have hmiss : ¬ Hit da addr := fun hhit => (hit_iff.mp hhit).2 hlast
  have hnone := hlength da hda
  rw [if_neg hmiss, if_pos hin] at hnone
  cases hdev : memdevWith t n da.devHandle with
  | none => rfl
  | some e =>
    rw [hdev] at hnone
    exact absurd hnone Nat.zero_ne_one

/-- Contiguous ranges leave no gap. -/
theorem inRange_of_contiguous {a z : MemdevAddr} (h : Contiguous (a :: dmiRanges))
    (hlast : (a :: dmiRanges).getLast? = some z) (hlo : a.startAddr.toNat ≤ addr.toNat / 1024)
    (hhi : addr.toNat / 1024 ≤ z.endAddr.toNat) : ∃ da ∈ a :: dmiRanges, da.InRange addr := by
  induction dmiRanges generalizing a with
  | nil =>
    rw [List.getLast?_singleton, Option.some.injEq] at hlast
    subst hlast
    exact ⟨a, List.mem_cons_self, hlo, hhi⟩
  | cons b rest ih =>
    by_cases hin : addr.toNat / 1024 ≤ a.endAddr.toNat
    · exact ⟨a, List.mem_cons_self, hlo, hin⟩
    · obtain ⟨hnext, hrest⟩ := List.isChain_cons_cons.mp h
      rw [List.getLast?_cons_cons] at hlast
      obtain ⟨da, hda, hda'⟩ := ih hrest hlast (by omega)
      exact ⟨da, List.mem_cons_of_mem _ hda, hda'⟩

/-- **The lookup of an address.** In every table that was opened, the devices of an address are
    found exactly when the lookup does right by each range: none of them is hit with a handle
    that stands for something else or for no slot, and none has the address in its last
    kilobyte and a memory device. -/
theorem dmi_find_addr_iff {qsort : ComparisonSort MemdevAddr} {d : DmiTables}
    (h : opendmi qsort t verbose n = some d) (addr : UInt64) :
    LooksUp t n d addr ↔ ∀ da ∈ d.dmiRanges, RightRange t n da addr := by
  obtain ⟨hfill, -, hranges⟩ := opendmi_eq_some h
  refine ⟨fun hlook => rightRange_of_exact hfill hlook.exact, fun hright => ?_⟩
  have hexact := exact_of_rightRange hfill hright
  refine ⟨hranges ▸ qsort.perm compareRanges _, hexact, ?_⟩
  intro a ha z hz hcont hlo hhi hdevs hnone
  obtain ⟨rest, hrest⟩ : ∃ rest, d.dmiRanges = a :: rest := List.head?_eq_some_iff.mp ha
  rw [hrest] at hcont hz
  obtain ⟨da, hda, hin⟩ := inRange_of_contiguous hcont hz hlo hhi
  rw [← hrest] at hda
  obtain ⟨e, he⟩ := Option.isSome_iff_exists.mp (hdevs da hda)
  rw [hexact, Option.some.injEq, devicesAt, List.filterMap_eq_nil_iff] at hnone
  have hmiss := hnone da (List.mem_filter.mpr ⟨hda, decide_eq_true hin⟩)
  rw [he] at hmiss
  cases hmiss

/-- One memory device with the handle 1, and its range, the first megabyte. -/
def oneDimm : Table :=
  [17, 17, 1, 0, 0, 0, 0, 0, 0, 0, 0, 0, 1, 0, 0, 0, 1, 65, 0, 0,
    20, 14, 2, 0, 0, 0, 0, 0, 0xff, 3, 0, 0, 1, 0, 0, 0]

theorem oneDimm_opened : ∃ d, opendmi .mergeSort oneDimm 0 2 = some d ∧
    d.dmiRanges = [⟨0, 1023, 1⟩] := by
  have hopened : (opendmi .mergeSort oneDimm 0 2).isSome = true := by decide
  obtain ⟨d, hd⟩ := Option.isSome_iff_exists.mp hopened
  have hranges : mappedRanges oneDimm 2 = [⟨0, 1023, 1⟩] := by decide
  have hperm := ComparisonSort.mergeSort.perm compareRanges (mappedRanges oneDimm 2)
  rw [← (opendmi_eq_some hd).2.2, hranges] at hperm
  exact ⟨d, hd, List.perm_singleton.mp hperm⟩

/-- The device is found at the start of its range. -/
theorem first_kilobyte_found :
    ∃ d, opendmi .mergeSort oneDimm 0 2 = some d ∧ LooksUp oneDimm 2 d 0 := by
  obtain ⟨d, hd, hranges⟩ := oneDimm_opened
  refine ⟨d, hd, (dmi_find_addr_iff hd 0).mpr fun da hda => ?_⟩
  rw [hranges, List.mem_singleton] at hda
  subst hda
  have hentry : entryWith oneDimm 2 1 = some 0 := by decide
  refine ⟨fun _ => by decide, fun _ e he => ?_, fun _ hlast => absurd hlast (by decide)⟩
  rw [← Option.some.inj (hentry.symm.trans he)]
  decide

/-- At the start of its last kilobyte it is not. -/
theorem last_kilobyte_not_found : ∃ d, opendmi .mergeSort oneDimm 0 2 = some d ∧
    dmiFindAddr d 1047552 = some [] ∧ devicesAt oneDimm 2 d.dmiRanges 1047552 = [0] ∧
    ¬ LooksUp oneDimm 2 d 1047552 := by
  obtain ⟨d, hd, hranges⟩ := oneDimm_opened
  have hmiss : dmiFindAddr d 1047552 = some [] := by
    rw [dmiFindAddr, hranges, findDevices, if_neg (by decide), findDevices]
  have hthere : devicesAt oneDimm 2 d.dmiRanges 1047552 = [0] := by
    rw [hranges]
    decide
  refine ⟨d, hd, hmiss, hthere, fun h => ?_⟩
  have hexact := h.exact
  rw [hmiss, hthere] at hexact
  cases hexact

end

end Mcelog.Dmi
