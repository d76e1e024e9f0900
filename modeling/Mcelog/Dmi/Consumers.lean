import Mcelog.Dmi.Handles
import Mcelog.Dmi.Prefill

/-!
# Reading the fields of a memory device

Older versions of SMBIOS have shorter memory devices. `dmi_collect` asks for the fields up to
`device_locator`, and `prefill_memdb` reads the one behind it, too. `dump_memdev` asks for the
fields up to `manufacturer`, which it then reads with the three behind it. A string number may
be greater than the number of strings, and `dmi_getstring` returns NULL then.

* `prefillDevice_isSome`: when `prefill_memdb` can work on a memory device.
* `dumpMemdev_isSome`: when `dump_memdev` can.
* `dmi_consumers_iff`: when all memory devices of a table are read within their length.
-/

namespace Mcelog.Dmi

open Mcelog.Common Mcelog.Memory

/-! ## Fields within their entry -/

/-- The fields of `struct dmi_memdev` that are interpreted (dmi.h:26-44). -/
inductive MemdevField
  | totalWidth | dataWidth | size | formFactor | deviceLocator | bankLocator | memoryType
  | typeDetails | speed | manufacturer | serialNumber | assetTag | partNumber
  deriving DecidableEq, Repr

/-- `offsetof(struct dmi_memdev, f)` -/
def MemdevField.offset : MemdevField → ℕ
  | .totalWidth => 8
  | .dataWidth => 10
  | .size => 12
  | .formFactor => 14
  | .deviceLocator => 16
  | .bankLocator => 17
  | .memoryType => 18
  | .typeDetails => 19
  | .speed => 21
  | .manufacturer => 23
  | .serialNumber => 24
  | .assetTag => 25
  | .partNumber => 26

/-- A field of `size` bytes: none where it does not end below `header.length`. -/
def field {α : Type} (read : Table → ℕ → Option α) (size : ℕ) (t : Table) (e : ℕ)
    (f : MemdevField) : Option α := do
  let length ← lengthOf t e
  if f.offset + size ≤ length.toNat then read t (e + f.offset) else none

/-- An `unsigned char` -/
def fieldByte : Table → ℕ → MemdevField → Option UInt8 := field (fun t k => t[k]?) 1

/-- An `unsigned short` -/
def fieldShort : Table → ℕ → MemdevField → Option UInt16 := field readShort 2

/-- The characters of a string. -/
def charsOf (bytes : List UInt8) : List Char := bytes.map fun b => Char.ofNat b.toNat

/-- `dmi_getstring(&md->header, number)`: NULL is `some none`. -/
def stringAt (t : Table) (e : ℕ) (number : UInt8) : Option (Option (List Char)) := do
  let length ← lengthOf t e
  let text ← dmiGetstring (t.drop (e + length.toNat)) number.toNat
  return text.map charsOf

/-- `dmi_getstring(&md->header, md->f)` -/
def stringField (t : Table) (e : ℕ) (f : MemdevField) : Option (Option (List Char)) := do
  let number ← fieldByte t e f
  stringAt t e number

/-! ## Consumers -/

/-- What `prefill_memdb` asks for of the device at `e`. -/
def dimmStrings (t : Table) (e : ℕ) : DimmStrings :=
  ⟨stringField t e .bankLocator, stringField t e .deviceLocator⟩

/-- `memory_types` -/
def memoryTypes : List String :=
  ["?", "Other", "Unknown", "DRAM", "EDRAM", "VRAM", "SRAM", "RAM", "ROM", "FLASH", "EEPROM",
    "FEPROM", "EPROM", "CDRAM", "3DRAM", "SDRAM", "SGRAM", "RDRAM", "DDR", "DDR2",
    "DDR2 FB-DIMM", "Reserved 0x15", "Reserved 0x16", "Reserved 0x17", "DDR3", "FBD2", "DDR4",
    "LPDDR", "LPDDR2", "LPDDR3", "LPDDR4"]

/-- `form_factors` -/
def formFactors : List String :=
  ["?", "Other", "Unknown", "SIMM", "SIP", "Chip", "DIP", "ZIP", "Proprietary Card", "DIMM",
    "TSOP", "Row of chips", "RIMM", "SODIMM", "SRIMM", "FB-DIMM"]

/-- `type_details` -/
def typeDetails : List String :=
  ["Reserved", "Other", "Unknown", "Fast-paged", "Static Column", "Pseudo static", "RAMBUS",
    "Synchronous", "CMOS", "EDO", "Window DRAM", "Cache DRAM", "Non-volatile", "Registered",
    "Unbuffered", "LRDIMM"]

/-- `%u` -/
def decimal (n : ℕ) : List Char := Nat.toDigits 10 n

/-- `LOOKUP` (dmi.c:389-392) -/
def lookup (array : List String) (val : UInt8) : List Char :=
  match array[val.toNat]? with
  | some text => text.toList
  | none => "<".toList ++ decimal val.toNat ++ ">".toList

/-- `dump_type_details` (dmi.c:401-409) -/
def dumpTypeDetails (td : UInt16) : List Char :=
  ((typeDetails.zipIdx).filter fun d => td.toNat.testBit d.2).flatMap fun d => d.1.toList ++ [' ']

/-- `dmi_dimm_size` (dmi.c:358-371): the number and its unit. -/
def dmiDimmSize (size : UInt16) : ℕ × List Char :=
  if size.toNat.testBit 15 then (size.toNat - 2 ^ 15, "KB".toList)
  else if size.toNat ≥ 1024 then (size.toNat / 1024, "GB".toList)
  else (size.toNat, "MB".toList)

/-- `DUMPSTR` (dmi.c:434-439) -/
def dumpStr (t : Table) (e : ℕ) (label : String) (f : MemdevField) : Option (List Char) := do
  let number ← fieldByte t e f
  if number = 0 then return []
  match ← stringAt t e number with
  | none => return []
  | some s =>
    if s ≠ [] ∧ s ≠ "None".toList then return label.toList ++ ": ".toList ++ s ++ ['\n']
    else return []

/-- `dump_memdev` (dmi.c:411-449) -/
def dumpMemdev (t : Table) (verbose : ℤ) (e : ℕ) (addr : UInt64) : Option (List Char) := do
  let length ← lengthOf t e
  if length.toNat < MemdevField.manufacturer.offset then
    return if 0 < verbose then
        "Memory device for address ".toList ++ Nat.toDigits 16 addr.toNat ++ " too short ".toList ++
          decimal length.toNat ++ ['\n']
      else []
  let memoryType ← fieldByte t e .memoryType
  let formFactor ← fieldByte t e .formFactor
  let speed ← fieldShort t e .speed
  let details ← fieldShort t e .typeDetails
  let totalWidth ← fieldShort t e .totalWidth
  let dataWidth ← fieldShort t e .dataWidth
  let size ← fieldShort t e .size
  let deviceLocator ← dumpStr t e "Device Locator" .deviceLocator
  let bankLocator ← dumpStr t e "Bank Locator" .bankLocator
  let head := lookup memoryTypes memoryType ++ [' '] ++
    (if formFactor ≥ 3 then lookup formFactors formFactor ++ [' '] else []) ++
    (if speed ≠ 0 then decimal speed.toNat ++ " Mhz ".toList else []) ++ dumpTypeDetails details ++
    "Width ".toList ++ decimal totalWidth.toNat ++ " Data Width ".toList ++
    decimal dataWidth.toNat ++ " Size ".toList ++ decimal (dmiDimmSize size).1 ++ [' '] ++
    (dmiDimmSize size).2 ++ ['\n'] ++ deviceLocator ++ bankLocator
  -- the same length as above, so that the fields behind are read all the same
  if length.toNat < MemdevField.manufacturer.offset then return head
  let manufacturer ← dumpStr t e "Manufacturer" .manufacturer
  let serialNumber ← dumpStr t e "Serial Number" .serialNumber
  let assetTag ← dumpStr t e "Asset Tag" .assetTag
  let partNumber ← dumpStr t e "Part Number" .partNumber
  return head ++ manufacturer ++ serialNumber ++ assetTag ++ partNumber

/-! ## What should be read -/

/-- The memory devices of the table that are collected are worked on by `prefill_memdb` from the
    state `st`, and those of the table are dumped: no field is read that does not lie below the
    length of its entry, and no NULL is copied or compared. -/
structure ConsumersFit (t : Table) (verbose : ℤ) (numentries : ℕ) (now : ℤ)
    (st : PrefillState) : Prop where
  prefill : ∀ es, dmiCollect t verbose numentries .memoryDevice (DmiType.minsize .memoryDevice) =
    some es → (prefillDevices now st (es.map (dimmStrings t))).isSome = true
  dump : ∀ e ∈ acceptedEntries t verbose numentries,
    typeOf t e = some DmiType.memoryDevice.code →
      ∀ addr, (dumpMemdev t verbose e addr).isSome = true

/-- The device at `e` has a bank locator, and a string for its device locator if a new entry is
    made for it. -/
structure DeviceFits (t : Table) (st : PrefillState) (e : ℕ) : Prop where
  bank : ∃ length ∈ lengthOf t e, 18 ≤ length.toNat
  name : ∀ k, parsedKey st.addr (stringField t e .bankLocator).join = some k →
    ((st.db.find k).bind fun md => md.location) = none →
      stringField t e .deviceLocator ≠ some none

/-- Each device that `prefill_memdb` comes to fits, and no memory device has some, but not all of
    the fields from `manufacturer` on. -/
structure DevicesFit (t : Table) (verbose : ℤ) (numentries : ℕ) (now : ℤ)
    (st : PrefillState) : Prop where
  prefill : ∀ es, dmiCollect t verbose numentries .memoryDevice (DmiType.minsize .memoryDevice) =
    some es → ∀ before e after, es = before ++ e :: after →
      ∀ st', prefillDevices now st (before.map (dimmStrings t)) = some st' → DeviceFits t st' e
  dump : ∀ e ∈ acceptedEntries t verbose numentries,
    typeOf t e = some DmiType.memoryDevice.code →
      ∀ length ∈ lengthOf t e, length.toNat < 23 ∨ 27 ≤ length.toNat

/-- The entry at `e` lies in the table with its strings. -/
structure Complete (t : Table) (e : ℕ) (length : UInt8) : Prop where
  header : lengthOf t e = some length
  inside : e + length.toNat ≤ t.length
  ends : ∃ p, DoubleNul (t.drop (e + length.toNat)) p

section

variable {t : Table} {verbose : ℤ} {n e : ℕ} {length : UInt8} {f : MemdevField} {now : ℤ}
  {st : PrefillState} {addr : UInt64}

/-! ## Reading one field -/

theorem field_isSome {α : Type} {read : Table → ℕ → Option α} {size : ℕ}
    (hread : ∀ k, (read t k).isSome = true ↔ k + size ≤ t.length) (h : Complete t e length) :
    (field read size t e f).isSome = true ↔ f.offset + size ≤ length.toNat := by
  have hin := h.inside
  rw [field, h.header, Option.bind_eq_bind, Option.bind_some]
  split_ifs with hfits
  · rw [hread]
    exact iff_of_true (by omega) hfits
  · exact iff_of_false Bool.false_ne_true hfits

theorem fieldByte_isSome (h : Complete t e length) :
    (fieldByte t e f).isSome = true ↔ f.offset + 1 ≤ length.toNat := by
  refine field_isSome (fun k => ?_) h
  rw [isSome_getElem?]
  exact Nat.lt_iff_add_one_le

theorem fieldShort_isSome (h : Complete t e length) :
    (fieldShort t e f).isSome = true ↔ f.offset + 2 ≤ length.toNat :=
  field_isSome (fun _ => readShort_isSome) h

/-- `dmi_getstring` stays inside the table. -/
theorem stringAt_isSome (h : Complete t e length) (number : UInt8) :
    (stringAt t e number).isSome = true := by
  have hfound : (dmiGetstring (t.drop (e + length.toNat)) number.toNat).isSome = true := by
    rw [dmiGetstring]
    split_ifs
    · rfl
    · exact findString_isSome h.ends _
  obtain ⟨text, htext⟩ := Option.isSome_iff_exists.mp hfound
  rw [stringAt, h.header, Option.bind_eq_bind, Option.bind_some, htext]
  rfl

theorem stringField_isSome (h : Complete t e length) :
    (stringField t e f).isSome = true ↔ f.offset + 1 ≤ length.toNat := by
  rw [← fieldByte_isSome h, stringField]
  cases fieldByte t e f with
  | none => rfl
  | some number => exact iff_of_true (stringAt_isSome h number) rfl

theorem dumpStr_isSome (h : Complete t e length) (label : String) :
    (dumpStr t e label f).isSome = true ↔ f.offset + 1 ≤ length.toNat := by
  rw [← fieldByte_isSome h, dumpStr]
  cases fieldByte t e f with
  | none => rfl
  | some number =>
    refine iff_of_true ?_ rfl
    rw [Option.bind_eq_bind, Option.bind_some]
    split_ifs
    · rfl
    · obtain ⟨s, hs⟩ := Option.isSome_iff_exists.mp (stringAt_isSome h number)
      rw [hs]
      cases s with
      | none => rfl
      | some s =>
        show (if _ then _ else _ : Option (List Char)).isSome = true
        split_ifs <;> rfl

/-! ## The consumers -/

/-- What `dump_memdev` asks for. -/
theorem dumpMemdev_isSome (h : Complete t e length) :
    (dumpMemdev t verbose e addr).isSome = true ↔ length.toNat < 23 ∨ 27 ≤ length.toNat := by
  rw [dumpMemdev, h.header, Option.bind_eq_bind, Option.bind_some]
  by_cases hshort : length.toNat < MemdevField.manufacturer.offset
  · rw [if_pos hshort]
    exact iff_of_true rfl (Or.inl hshort)
  have hlong : 23 ≤ length.toNat := Nat.not_lt.mp hshort
  have hbyte (f : MemdevField) (hf : f.offset + 1 ≤ 23) : ∃ b, fieldByte t e f = some b :=
    Option.isSome_iff_exists.mp ((fieldByte_isSome h).mpr (by omega))
  have hword (f : MemdevField) (hf : f.offset + 2 ≤ 23) : ∃ b, fieldShort t e f = some b :=
    Option.isSome_iff_exists.mp ((fieldShort_isSome h).mpr (by omega))
  have hstr (label : String) (f : MemdevField) (hf : f.offset + 1 ≤ 23) :
      ∃ s, dumpStr t e label f = some s :=
    Option.isSome_iff_exists.mp ((dumpStr_isSome h label).mpr (by omega))
  obtain ⟨memoryType, hmemoryType⟩ := hbyte .memoryType (by decide)
  obtain ⟨formFactor, hformFactor⟩ := hbyte .formFactor (by decide)
  obtain ⟨speed, hspeed⟩ := hword .speed (by decide)
  obtain ⟨details, hdetails⟩ := hword .typeDetails (by decide)
  obtain ⟨totalWidth, htotalWidth⟩ := hword .totalWidth (by decide)
  obtain ⟨dataWidth, hdataWidth⟩ := hword .dataWidth (by decide)
  obtain ⟨size, hsize⟩ := hword .size (by decide)
  obtain ⟨device, hdevice⟩ := hstr "Device Locator" .deviceLocator (by decide)
  obtain ⟨bank, hbank⟩ := hstr "Bank Locator" .bankLocator (by decide)
  rw [if_neg hshort]
  simp only [hmemoryType, hformFactor, hspeed, hdetails, htotalWidth, hdataWidth, hsize, hdevice,
    hbank, Option.bind_some, if_neg hshort]
  have hpart : (dumpStr t e "Part Number" .partNumber).isSome = true ↔ 27 ≤ length.toNat :=
    dumpStr_isSome h "Part Number"
  by_cases hall : 27 ≤ length.toNat
  · have hlast (label : String) (f : MemdevField) (hf : f.offset + 1 ≤ 27) :
        ∃ s, dumpStr t e label f = some s :=
      Option.isSome_iff_exists.mp ((dumpStr_isSome h label).mpr (by omega))
    obtain ⟨_, hmanufacturer⟩ := hlast "Manufacturer" .manufacturer (by decide)
    obtain ⟨_, hserial⟩ := hlast "Serial Number" .serialNumber (by decide)
    obtain ⟨_, htag⟩ := hlast "Asset Tag" .assetTag (by decide)
    obtain ⟨_, hpart⟩ := Option.isSome_iff_exists.mp (hpart.mpr hall)
    rw [hmanufacturer, hserial, htag, hpart]
    exact iff_of_true rfl (Or.inr hall)
  · have hnone : dumpStr t e "Part Number" .partNumber = none :=
      Option.not_isSome_iff_eq_none.mp (mt hpart.mp hall)
    rw [hnone]
    refine iff_of_false ?_ (by omega)
    cases dumpStr t e "Manufacturer" .manufacturer <;>
      cases dumpStr t e "Serial Number" .serialNumber <;>
      cases dumpStr t e "Asset Tag" .assetTag <;> exact Bool.false_ne_true

/-- What `prefill_memdb` asks for of a device that was collected. -/
theorem prefillDevice_dimmStrings (h : Complete t e length) (hlong : 17 ≤ length.toNat) :
    (prefillDevice now st (dimmStrings t e)).isSome = true ↔ DeviceFits t st e := by
  have hname : (stringField t e .deviceLocator).isSome = true := (stringField_isSome h).mpr hlong
  obtain ⟨name, hname⟩ := Option.isSome_iff_exists.mp hname
  have hpresent : (stringField t e .deviceLocator).join ≠ none ↔
      stringField t e .deviceLocator ≠ some none := by
    rw [hname]
    cases name <;> simp
  have hlocator : (stringField t e .bankLocator).isSome = true ↔ 18 ≤ length.toNat :=
    stringField_isSome h
  rw [prefillDevice_isSome]
  constructor
  · rintro ⟨bl, hbl, hnew⟩
    replace hbl : stringField t e .bankLocator = some bl := hbl
    refine ⟨⟨length, h.header, hlocator.mp (by rw [hbl]; rfl)⟩,
      fun k hk hnone => hpresent.mp (hnew k ?_ hnone)⟩
    rw [hbl] at hk
    exact hk
  · rintro ⟨⟨length', hlength', hbank⟩, hnew⟩
    rw [h.header, Option.mem_some_iff] at hlength'
    subst hlength'
    obtain ⟨bl, hbl⟩ := Option.isSome_iff_exists.mp (hlocator.mpr hbank)
    refine ⟨bl, hbl, fun k hk hnone => hpresent.mpr (hnew k ?_ hnone)⟩
    rw [hbl]
    exact hk

/-! ## The table -/

theorem complete_of_accepted (he : e ∈ acceptedEntries t verbose n) :
    ∃ length, Complete t e length := by
  obtain ⟨-, hnext⟩ := mem_passed.mp he
  obtain ⟨next, hnext⟩ := Option.isSome_iff_exists.mp hnext
  have hcheck : checkEntry t verbose e = some (some next) := by
    cases hcheck : checkEntry t verbose e with
    | none => rw [hcheck] at hnext; cases hnext
    | some r => rw [hcheck] at hnext; rw [show r = some next from hnext]
  obtain ⟨length, p, hlength, hle, -, hin, hnul⟩ := lt_of_nextEntry (checkEntry_agrees hcheck).symm
  refine ⟨length, hlength, by omega, p - (e + length.toNat), doubleNul_drop.mpr ?_⟩
  rw [Nat.add_sub_of_le hle]
  exact hnul

theorem complete_of_collected {es : List ℕ} {minsize : ℕ}
    (hes : dmiCollect t verbose n .memoryDevice minsize = some es) (he : e ∈ es) :
    ∃ length, Complete t e length ∧ minsize ≤ length.toNat := by
  rw [dmiCollect_eq hes, List.mem_filter] at he
  obtain ⟨length, hlength, hsize, hend, hin⟩ := fields_of_wanted he.1 (of_decide_eq_true he.2)
  obtain ⟨p, hle, hnul⟩ := stringsEnd_isSome.mp hend
  refine ⟨length, ⟨hlength, by omega, p - (e + length.toNat), doubleNul_drop.mpr ?_⟩, hsize⟩
  rwa [Nat.add_sub_of_le hle]

/-- The devices that `prefill_memdb` goes over. -/
theorem prefillDevices_isSome {es : List ℕ}
    (hes : dmiCollect t verbose n .memoryDevice (DmiType.minsize .memoryDevice) = some es) :
    (prefillDevices now st (es.map (dimmStrings t))).isSome = true ↔
      ∀ before e after, es = before ++ e :: after →
        ∀ st', prefillDevices now st (before.map (dimmStrings t)) = some st' →
          DeviceFits t st' e := by
  have hmap : ∀ l : List ℕ, prefillDevices now st (l.map (dimmStrings t)) =
      l.foldlM (fun st e => prefillDevice now st (dimmStrings t e)) st :=
    fun _ => List.foldlM_map
  have hfits {e : ℕ} {st' : PrefillState} (he : e ∈ es) :
      (prefillDevice now st' (dimmStrings t e)).isSome = true ↔ DeviceFits t st' e := by
    obtain ⟨length, hcomplete, hlong⟩ := complete_of_collected hes he
    exact prefillDevice_dimmStrings hcomplete hlong
  rw [hmap, foldlM_isSome_iff]
  constructor
  · intro h before e after hsplit st' hst'
    exact (hfits (by rw [hsplit]; simp)).mp (h before e after hsplit st' (by rw [← hmap, hst']))
  · intro h before e after hsplit st' hst'
    exact (hfits (by rw [hsplit]; simp)).mpr (h before e after hsplit st' (by rw [hmap, hst']))

/-- **Consumers of memory devices.** For every table, all fields that are interpreted lie below
    the length of their entry and no NULL is copied exactly when each device that
    `prefill_memdb` comes to has a bank locator, and a name if it is new, and no memory device
    ends among the strings from `manufacturer` to `part_number`. -/
theorem dmi_consumers_iff (t : Table) (verbose : ℤ) (n : ℕ) (now : ℤ) (st : PrefillState) :
    ConsumersFit t verbose n now st ↔ DevicesFit t verbose n now st := by
  constructor
  · intro h
    refine ⟨fun es hes => (prefillDevices_isSome hes).mp (h.prefill es hes), ?_⟩
    intro e he htype length hlength
    obtain ⟨length', hcomplete⟩ := complete_of_accepted he
    have heq : length' = length := Option.some.inj (hcomplete.header.symm.trans hlength)
    exact heq ▸ (dumpMemdev_isSome hcomplete).mp (h.dump e he htype 0)
  · intro h
    refine ⟨fun es hes => (prefillDevices_isSome hes).mpr (h.prefill es hes), ?_⟩
    intro e he htype addr
    obtain ⟨length, hcomplete⟩ := complete_of_accepted he
    exact (dumpMemdev_isSome hcomplete).mpr (h.dump e he htype length hcomplete.header)

/-- A memory device up to `speed`. -/
def upToSpeed : Table :=
  [17, 23, 1, 0, 0, 0, 0, 0, 0, 0, 0, 0, 1, 0, 0, 0, 1, 0, 0, 0, 0, 0, 0, 65, 0, 0]

/-- A memory device with one string, its bank locator `A0_BANK0`, and the number 2 for its device
    locator. -/
def nameless : Table :=
  [17, 18, 1, 0, 0, 0, 0, 0, 0, 0, 0, 0, 1, 0, 0, 0, 2, 1, 65, 48, 95, 66, 65, 78, 75, 48, 0, 0]

/-- The bank locator of the first table and the manufacturer of the second one lie behind the
    length of their entries, and the name that is copied in the third one is NULL. -/
theorem memory_devices_read_outside :
    ¬ ConsumersFit oneDimm 0 2 0 ⟨⟨0, 0, 0⟩, .empty, 0⟩ ∧
      ¬ ConsumersFit upToSpeed 0 1 0 ⟨⟨0, 0, 0⟩, .empty, 0⟩ ∧
      ¬ ConsumersFit nameless 0 1 0 ⟨⟨0, 0, 0⟩, .empty, 0⟩ := by
  refine ⟨fun h => ?_, fun h => ?_, fun h => ?_⟩
  · have hread := h.prefill [0] (by decide)
    revert hread
    decide
  · have hread := h.dump 0 (by decide) (by decide) 0
    revert hread
    decide
  · have hread := h.prefill [0] (by decide)
    revert hread
    decide

end

end Mcelog.Dmi
