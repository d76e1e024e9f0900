import Mcelog.Dmi.Handles

/-!
# The table in sysfs

Newer kernels give each entry of the SMBIOS table as a file of its own. `opendmi` reads the
files of the four types it collects, one behind the other, into a buffer that grows, and then
walks the buffer as it walks a table of the firmware. A file may come in any pieces, a read may
be interrupted, and it may fail in the middle.

* `loadEntries_eq`: what is in the buffer, and that no store leaves it.
* `entriesOf_flatten`: the walk finds the entries that were put together.
* `sysfs_table`: both, and that the table is opened.
-/

namespace Mcelog.Dmi

open Mcelog.Common

/-! ## Model -/

/-- A call of `read` that does not return 0. -/
inductive ReadResult
  /-- `EINTR` -/
  | interrupted
  /-- another error -/
  | failed
  | data (bytes : List UInt8)
  deriving DecidableEq

/-- `entries` with its `entrieslen` bytes, which `xrealloc` does not clear, `numentries` and
    `dmi_length` (dmi.c:59-62). -/
structure Loader where
  mem : ℕ → UInt8
  entrieslen : ℕ
  numentries : ℕ
  dmiLength : ℕ

/-- `while (l + nr > entrieslen) entrieslen += 4096` -/
def grow (need entrieslen : ℕ) : ℕ :=
  if need > entrieslen then grow need (entrieslen + 4096) else entrieslen
termination_by need - entrieslen
decreasing_by omega

/-- `memcpy(mem + l, bytes, nr)` -/
def copyTo (mem : ℕ → UInt8) (l : ℕ) (bytes : List UInt8) : ℕ → UInt8 := fun i =>
  if l ≤ i ∧ i < l + bytes.length then bytes.getD (i - l) 0 else mem i

/-- The loop of `append_sysfs_dmi_entry` (dmi.c:165-186) over what `read` returns until the end
    of the file, and whether it returns 1; nothing where it stores behind the buffer. -/
def appendLoop (st : Loader) (l : ℕ) : List ReadResult → Option (Loader × Bool)
  | [] => some ({ st with numentries := st.numentries + 1, dmiLength := l }, true)
  | .interrupted :: rs => appendLoop st l rs
  | .failed :: _ => some (st, false)
  | .data bytes :: rs =>
    -- `nr > 0`
    if bytes ≠ [] then
      let st := { st with entrieslen := grow (l + bytes.length) st.entrieslen }
      if l + bytes.length ≤ st.entrieslen then
        appendLoop { st with mem := copyTo st.mem l bytes } (l + bytes.length) rs
      else none
    else some ({ st with numentries := st.numentries + 1, dmiLength := l }, true)

/-- `append_sysfs_dmi_entry` (dmi.c:142-187) for a file that can be opened. -/
def appendSysfsDmiEntry (st : Loader) (file : List ReadResult) : Option (Loader × Bool) :=
  appendLoop st st.dmiLength file

/-- `append_sysfs_dmi_entries` (dmi.c:189-193) for the files of a type; the one behind them
    cannot be opened. -/
def appendSysfsDmiEntries (st : Loader) : List (List ReadResult) → Option Loader
  | [] => some st
  | file :: files =>
    match appendSysfsDmiEntry st file with
    | none => none
    | some (st', true) => appendSysfsDmiEntries st' files
    | some (st', false) => some st'

/-- The types in the order in which they are read (dmi.c:264-267). -/
def sysfsTypes : List DmiType :=
  [.memoryArray, .memoryDevice, .memoryArrayAddr, .memoryMappedAddr]

/-- The start of `opendmi` with entries in sysfs (dmi.c:262-267). -/
def loadEntries (mem : ℕ → UInt8) (sysfs : DmiType → List (List ReadResult)) : Option Loader :=
  sysfsTypes.foldlM (fun st type => appendSysfsDmiEntries st (sysfs type)) ⟨mem, 0, 0, 0⟩

/-- The first `n` bytes. -/
def bytesOf (mem : ℕ → UInt8) (n : ℕ) : List UInt8 := (List.range n).map mem

/-- The table that `fill_handles` and `dmi_collect` walk. -/
def Loader.table (st : Loader) : Table := bytesOf st.mem st.dmiLength

/-! ## What the files say -/

/-- The bytes of a file, unless an error comes first. -/
def content : List ReadResult → Option (List UInt8)
  | [] => some []
  | .interrupted :: rs => content rs
  | .failed :: _ => none
  | .data bytes :: rs => if bytes ≠ [] then (content rs).map (bytes ++ ·) else some []

/-- The entries of a type: the files before the first one with an error. -/
def readable : List (List ReadResult) → List (List UInt8)
  | [] => []
  | file :: files =>
    match content file with
    | some bytes => bytes :: readable files
    | none => []

/-- All entries that are read. -/
def rawEntries (sysfs : DmiType → List (List ReadResult)) : List (List UInt8) :=
  sysfsTypes.flatMap fun type => readable (sysfs type)

/-- The bytes are one entry: a header of four bytes, and strings that end at the end. -/
def IsEntry (raw : List UInt8) : Prop := nextEntry raw 0 = some raw.length ∧ 4 ≤ raw.length

instance (raw : List UInt8) : Decidable (IsEntry raw) := inferInstanceAs (Decidable (_ ∧ _))

/-- The bytes of the entry at `e`. -/
def entryBytes (t : Table) (e : ℕ) : List UInt8 := (t.drop e).take ((nextEntry t e).getD e - e)

section

variable {mem mem' : ℕ → UInt8} {l k n need len : ℕ} {bytes raw pre post : List UInt8}
  {raws : List (List UInt8)} {rs : List ReadResult} {files : List (List ReadResult)} {st : Loader}

/-! ## The buffer -/

/-- The buffer is large enough after it has grown. -/
theorem le_grow (need len : ℕ) : need ≤ grow need len ∧ len ≤ grow need len := by
  fun_induction grow need len with
  | case1 len h ih => exact ⟨ih.1, by omega⟩
  | case2 len h => exact ⟨by omega, le_rfl⟩

theorem bytesOf_copyTo (mem : ℕ → UInt8) (l : ℕ) (bytes : List UInt8) :
    bytesOf (copyTo mem l bytes) (l + bytes.length) = bytesOf mem l ++ bytes := by
  unfold bytesOf
  refine List.ext_getElem (by simp) fun i hi hi' => ?_
  rw [List.length_map, List.length_range] at hi
  rw [List.getElem_map, List.getElem_range]
  by_cases hlt : i < l
  · rw [List.getElem_append_left (by simpa using hlt), List.getElem_map, List.getElem_range]
    exact if_neg fun h => Nat.not_le.mpr hlt h.1
  · rw [List.getElem_append_right (by simpa using Nat.not_lt.mp hlt)]
    refine (if_pos ⟨Nat.not_lt.mp hlt, hi⟩).trans ?_
    rw [List.getD_eq_getElem?_getD, List.getElem?_eq_getElem (by omega), Option.getD_some]
    congr 1
    simp

/-- The bytes before a longer part. -/
theorem bytesOf_take (mem : ℕ → UInt8) (h : k ≤ n) : (bytesOf mem n).take k = bytesOf mem k := by
  rw [bytesOf, ← List.map_take, List.take_range, Nat.min_eq_left h]
  rfl

theorem length_bytesOf (mem : ℕ → UInt8) (n : ℕ) : (bytesOf mem n).length = n := by
  simp [bytesOf]

/-! ## Reading the files -/

/-- A file that is read to its end. -/
theorem appendLoop_of_content (hl : l ≤ st.entrieslen) (h : content rs = some bytes) :
    ∃ mem len, appendLoop st l rs =
        some (⟨mem, len, st.numentries + 1, l + bytes.length⟩, true) ∧
      bytesOf mem (l + bytes.length) = bytesOf st.mem l ++ bytes ∧ l + bytes.length ≤ len := by
  induction rs generalizing st l bytes with
  | nil =>
    obtain rfl : [] = bytes := Option.some.inj h
    exact ⟨st.mem, st.entrieslen, rfl, by simp, hl⟩
  | cons r rs ih =>
    cases r with
    | interrupted => exact ih hl h
    | failed => cases h
    | data piece =>
      rw [content] at h
      rw [appendLoop]
      by_cases hpiece : piece ≠ []
      · rw [if_pos hpiece] at h ⊢
        obtain ⟨rest, hrest, rfl⟩ := Option.map_eq_some_iff.mp h
        have hgrow := (le_grow (l + piece.length) st.entrieslen).1
        dsimp only
        rw [if_pos hgrow]
        obtain ⟨mem, len, hloop, hbytes, hlen⟩ :=
          @ih _ _ ⟨copyTo st.mem l piece, grow (l + piece.length) st.entrieslen, st.numentries,
            st.dmiLength⟩ hgrow hrest
        rw [List.length_append, ← Nat.add_assoc]
        refine ⟨mem, len, hloop, ?_, hlen⟩
        rw [hbytes, bytesOf_copyTo, List.append_assoc]
      · rw [if_neg hpiece] at h ⊢
        obtain rfl : [] = bytes := Option.some.inj h
        exact ⟨st.mem, st.entrieslen, rfl, by simp, hl⟩

/-- A file with an error: what was read of it is not counted. -/
theorem appendLoop_of_failed (hl : l ≤ st.entrieslen) (h : content rs = none) (hk : k ≤ l) :
    ∃ mem len, appendLoop st l rs = some (⟨mem, len, st.numentries, st.dmiLength⟩, false) ∧
      bytesOf mem k = bytesOf st.mem k ∧ l ≤ len := by
  induction rs generalizing st l with
  | nil => cases h
  | cons r rs ih =>
    cases r with
    | interrupted => exact ih hl h hk
    | failed => exact ⟨st.mem, st.entrieslen, rfl, rfl, hl⟩
    | data piece =>
      rw [content] at h
      rw [appendLoop]
      by_cases hpiece : piece ≠ []
      · rw [if_pos hpiece] at h ⊢
        have hgrow := (le_grow (l + piece.length) st.entrieslen).1
        dsimp only
        rw [if_pos hgrow]
        obtain ⟨mem, len, hloop, hbytes, hlen⟩ :=
          @ih _ ⟨copyTo st.mem l piece, grow (l + piece.length) st.entrieslen, st.numentries,
            st.dmiLength⟩ hgrow (Option.map_eq_none_iff.mp h) (by omega)
        refine ⟨mem, len, hloop, ?_, by omega⟩
        have hcopy := congrArg (List.take k) (bytesOf_copyTo st.mem l piece)
        have hshort : k ≤ (bytesOf st.mem l).length := by rwa [length_bytesOf]
        rw [bytesOf_take _ (by omega), List.take_append_of_le_length hshort,
          bytesOf_take _ hk] at hcopy
        exact hbytes.trans hcopy
      · rw [if_neg hpiece] at h
        cases h

/-- The buffer holds these entries. -/
structure Holds (st : Loader) (raws : List (List UInt8)) : Prop where
  table : st.table = raws.flatten
  count : st.numentries = raws.length
  room : st.dmiLength ≤ st.entrieslen

/-- The files of a type. -/
theorem appendSysfsDmiEntries_holds (h : Holds st raws) (files : List (List ReadResult)) :
    ∃ st', appendSysfsDmiEntries st files = some st' ∧ Holds st' (raws ++ readable files) := by
  induction files generalizing st raws with
  | nil => exact ⟨st, rfl, by rwa [readable, List.append_nil]⟩
  | cons file files ih =>
    rw [appendSysfsDmiEntries, appendSysfsDmiEntry, readable]
    cases hcontent : content file with
    | some bytes =>
      obtain ⟨mem, len, hloop, hbytes, hlen⟩ := appendLoop_of_content h.room hcontent
      have hholds : Holds ⟨mem, len, st.numentries + 1, st.dmiLength + bytes.length⟩
          (raws ++ [bytes]) := by
        refine ⟨?_, ?_, hlen⟩
        · show bytesOf mem (st.dmiLength + bytes.length) = _
          rw [hbytes, List.flatten_append, ← h.table, List.flatten_singleton]
          rfl
        · show st.numentries + 1 = _
          rw [h.count, List.length_append, List.length_singleton]
      obtain ⟨st', hrest, hst'⟩ := ih hholds
      rw [hloop]
      refine ⟨st', hrest, ?_⟩
      rwa [List.append_assoc] at hst'
    | none =>
      obtain ⟨mem, len, hloop, hbytes, hlen⟩ :=
        appendLoop_of_failed h.room hcontent (le_refl st.dmiLength)
      rw [hloop]
      refine ⟨_, rfl, ?_, h.count.trans (by rw [List.append_nil]), hlen⟩
      show bytesOf mem st.dmiLength = _
      rw [hbytes, List.append_nil]
      exact h.table

/-- All files, whatever the memory holds at first. -/
theorem loadEntries_eq (mem : ℕ → UInt8) (sysfs : DmiType → List (List ReadResult)) :
    ∃ st, loadEntries mem sysfs = some st ∧ Holds st (rawEntries sysfs) := by
  have hall : ∀ (types : List DmiType) st raws, Holds st raws → ∃ st',
      types.foldlM (fun st type => appendSysfsDmiEntries st (sysfs type)) st = some st' ∧
        Holds st' (raws ++ types.flatMap fun type => readable (sysfs type)) := by
    intro types
    induction types with
    | nil => exact fun st raws h => ⟨st, rfl, by rwa [List.flatMap_nil, List.append_nil]⟩
    | cons type types ih =>
      intro st raws h
      obtain ⟨st₁, hstep, h₁⟩ := appendSysfsDmiEntries_holds h (sysfs type)
      obtain ⟨st', hrest, h'⟩ := ih st₁ _ h₁
      refine ⟨st', by rw [List.foldlM_cons, hstep]; exact hrest, ?_⟩
      rw [List.flatMap_cons]
      rwa [List.append_assoc] at h'
  exact hall sysfsTypes ⟨mem, 0, 0, 0⟩ [] ⟨rfl, rfl, le_rfl⟩

end

/-! ## Walking entries that were put together -/

section

variable {l k n e : ℕ} {pre raw post : List UInt8} {raws : List (List UInt8)}

/-- A part of the table. -/
theorem getElem?_part (pre post : List UInt8) (h : k < raw.length) :
    (pre ++ raw ++ post)[pre.length + k]? = raw[k]? := by
  rw [List.append_assoc, List.getElem?_append_right (Nat.le_add_right _ _), Nat.add_sub_cancel_left,
    List.getElem?_append_left h]

theorem readShort_part (pre post : List UInt8) (h : k + 2 ≤ raw.length) :
    readShort (pre ++ raw ++ post) (pre.length + k) = readShort raw k := by
  unfold readShort
  rw [getElem?_part pre post (by omega), Nat.add_assoc, getElem?_part pre post (by omega)]

theorem doubleNul_part (pre post : List UInt8) (h : k + 2 ≤ raw.length) :
    DoubleNul (pre ++ raw ++ post) (pre.length + k) ↔ DoubleNul raw k := by
  unfold DoubleNul
  rw [getElem?_part pre post (by omega), Nat.add_assoc, getElem?_part pre post (by omega)]

theorem stringsEnd_eq_some {t : Table} {s p : ℕ} : stringsEnd t s = some p ↔
    (s ≤ p ∧ DoubleNul t p) ∧ ∀ q, s ≤ q → q < p → ¬ DoubleNul t q := by
  unfold stringsEnd
  rw [List.find?_range_eq_some]
  constructor
  · rintro ⟨hp, -, hbefore⟩
    refine ⟨of_decide_eq_true hp, fun q hs hq hnul => ?_⟩
    have hnot := hbefore q hq
    rw [Bool.not_eq_true', decide_eq_false_iff_not] at hnot
    exact hnot ⟨hs, hnul⟩
  · rintro ⟨hp, hbefore⟩
    have hlt := hp.2.lt
    refine ⟨decide_eq_true hp, List.mem_range.mpr (by omega), fun q hq => ?_⟩
    rw [Bool.not_eq_true', decide_eq_false_iff_not]
    exact fun h => hbefore q h.1 hq h.2

/-- Behind an entry comes the next one, whatever surrounds them. -/
theorem nextEntry_part (h : nextEntry raw 0 = some raw.length) (pre post : List UInt8) :
    nextEntry (pre ++ raw ++ post) pre.length = some (pre.length + raw.length) := by
  obtain ⟨length, hlength, hnext⟩ := Option.bind_eq_some_iff.mp h
  obtain ⟨p, hend, hp⟩ := Option.bind_eq_some_iff.mp hnext
  have hplen : p + 2 = raw.length := Option.some.inj hp
  rw [Nat.zero_add] at hend
  obtain ⟨⟨hle, hnul⟩, hbefore⟩ := stringsEnd_eq_some.mp hend
  have hlen : 1 < raw.length := (List.getElem?_eq_some_iff.mp hlength).1
  have hlength' : lengthOf (pre ++ raw ++ post) pre.length = some length := by
    rw [lengthOf, getElem?_part pre post hlen]
    exact hlength
  have hend' : stringsEnd (pre ++ raw ++ post) (pre.length + length.toNat) =
      some (pre.length + p) := by
    refine stringsEnd_eq_some.mpr
      ⟨⟨by omega, (doubleNul_part pre post (by omega)).mpr hnul⟩, fun q hq hqp hnul' => ?_⟩
    obtain ⟨q, rfl⟩ := Nat.exists_eq_add_of_le (show pre.length ≤ q by omega)
    exact hbefore q (by omega) (by omega) ((doubleNul_part pre post (by omega)).mp hnul')
  rw [nextEntry_of_length hlength', hend', Option.map_some, ← hplen, Nat.add_assoc]

/-- Where the entries start, the first one at `e`. -/
def offsets : ℕ → List (List UInt8) → List ℕ
  | _, [] => []
  | e, raw :: raws => e :: offsets (e + raw.length) raws

/-- The walk comes to every entry, and no check fails. -/
theorem reached_flatten (h : ∀ raw ∈ raws, nextEntry raw 0 = some raw.length) (pre post : Table) :
    reached (nextEntry (pre ++ raws.flatten ++ post)) raws.length pre.length =
        offsets pre.length raws ∧
      passed (nextEntry (pre ++ raws.flatten ++ post)) raws.length pre.length =
        offsets pre.length raws := by
  induction raws generalizing pre with
  | nil => exact ⟨rfl, rfl⟩
  | cons raw raws ih =>
    have hsplit : pre ++ (raw :: raws).flatten ++ post = pre ++ raw ++ raws.flatten ++ post := by
      rw [List.flatten_cons, List.append_assoc pre raw]
    have hnext : nextEntry (pre ++ raw ++ raws.flatten ++ post) pre.length =
        some (pre.length + raw.length) := by
      rw [List.append_assoc (pre ++ raw)]
      exact nextEntry_part (h raw List.mem_cons_self) pre _
    obtain ⟨hreached, hpassed⟩ := ih (fun r hr => h r (List.mem_cons_of_mem _ hr)) (pre ++ raw)
    rw [List.length_append] at hreached hpassed
    rw [hsplit, List.length_cons, reached_succ_of_some hnext, passed_succ_of_some hnext, hreached,
      hpassed]
    exact ⟨rfl, rfl⟩

/-- An offset is where one of the entries starts. -/
theorem mem_offsets (h : e ∈ offsets l raws) :
    ∃ before raw after, raws = before ++ raw :: after ∧ e = l + before.flatten.length := by
  induction raws generalizing l with
  | nil => cases h
  | cons raw raws ih =>
    rcases List.mem_cons.mp h with rfl | h
    · exact ⟨[], raw, raws, rfl, rfl⟩
    · obtain ⟨before, raw', after, rfl, rfl⟩ := ih h
      refine ⟨raw :: before, raw', after, rfl, ?_⟩
      rw [List.flatten_cons, List.length_append, Nat.add_assoc]

/-- The entries read back from their offsets. -/
theorem map_entryBytes (h : ∀ raw ∈ raws, nextEntry raw 0 = some raw.length) (pre post : Table) :
    (offsets pre.length raws).map (entryBytes (pre ++ raws.flatten ++ post)) = raws := by
  induction raws generalizing pre with
  | nil => rfl
  | cons raw raws ih =>
    have hsplit : pre ++ (raw :: raws).flatten ++ post = pre ++ raw ++ raws.flatten ++ post := by
      rw [List.flatten_cons, List.append_assoc pre raw]
    have hbytes : entryBytes (pre ++ raw ++ (raws.flatten ++ post)) pre.length = raw := by
      rw [entryBytes, nextEntry_part (h raw List.mem_cons_self), Option.getD_some,
        Nat.add_sub_cancel_left, List.append_assoc, List.drop_left, List.take_left]
    have hrest := ih (fun r hr => h r (List.mem_cons_of_mem _ hr)) (pre ++ raw)
    rw [List.length_append] at hrest
    rw [hsplit, offsets, List.map_cons, hrest, List.append_assoc (pre ++ raw), hbytes]

/-- **The entries of the table** are those that were put together. -/
theorem entriesOf_flatten (h : ∀ raw ∈ raws, nextEntry raw 0 = some raw.length) :
    entriesOf raws.flatten raws.length = offsets 0 raws ∧
      (entriesOf raws.flatten raws.length).map (entryBytes raws.flatten) = raws := by
  have hpassed := (reached_flatten h [] []).2
  have hmap := map_entryBytes h [] []
  rw [List.nil_append, List.append_nil] at hpassed hmap
  rw [entriesOf, List.length_nil] at *
  rw [hpassed]
  exact ⟨rfl, hmap⟩

/-- An entry with everything that is read of it. -/
theorem part_of_mem_offsets (h : ∀ raw ∈ raws, IsEntry raw) (verbose : ℤ)
    (he : e ∈ offsets 0 raws) :
    ∃ raw ∈ raws, HeaderInside raws.flatten verbose e ∧
      handleOf raws.flatten e = handleOf raw 0 := by
  obtain ⟨before, raw, after, rfl, rfl⟩ := mem_offsets he
  have hmem : raw ∈ before ++ raw :: after := List.mem_append_right _ List.mem_cons_self
  obtain ⟨hnext, hlen⟩ := h raw hmem
  have hsplit : (before ++ raw :: after).flatten = before.flatten ++ raw ++ after.flatten := by
    rw [List.flatten_append, List.flatten_cons, List.append_assoc]
  rw [hsplit, Nat.zero_add]
  have hnext' : (nextEntry (before.flatten ++ raw ++ after.flatten)
      before.flatten.length).isSome = true := by
    rw [nextEntry_part hnext]
    rfl
  refine ⟨raw, hmem, ⟨?_, fun _ => ?_, fun _ => .inl hnext'⟩, ?_⟩
  · rw [List.length_append, List.length_append]
    omega
  · rw [List.length_append, List.length_append]
    omega
  · exact readShort_part _ _ (by omega)

/-- The walk stays inside the table. -/
theorem walkInside_flatten (h : ∀ raw ∈ raws, IsEntry raw) (verbose : ℤ) :
    WalkInside raws.flatten verbose raws.length := by
  have hreached := (reached_flatten (fun raw hraw => (h raw hraw).1) [] []).1
  rw [List.nil_append, List.append_nil, List.length_nil] at hreached
  have hheaders : ∀ e ∈ reached (nextEntry raws.flatten) raws.length 0,
      HeaderInside raws.flatten verbose e := by
    intro e he
    rw [hreached] at he
    obtain ⟨raw, -, hinside, -⟩ := part_of_mem_offsets h verbose he
    exact hinside
  refine ⟨fillHandles_of_headers hheaders, fun type => dmiCollect_of_headers hheaders ?_,
    visited_pairwise _ _ _, fun e next hcheck => lt_of_nextEntry (checkEntry_agrees hcheck).symm⟩
  rintro rfl
  decide

/-- **The table in sysfs.** Whatever the reads of the files return and whatever the memory holds,
    nothing is stored behind the buffer, and the table is made of the files before the first one
    with an error, type after type. If every file is an entry, the walk finds exactly these
    entries and stays inside the table, and the table is opened unless one of them has the
    handle 0xffff. -/
theorem sysfs_table (mem : ℕ → UInt8) (sysfs : DmiType → List (List ReadResult)) :
    ∃ st, loadEntries mem sysfs = some st ∧ st.dmiLength ≤ st.entrieslen ∧
      st.table = (rawEntries sysfs).flatten ∧ st.numentries = (rawEntries sysfs).length ∧
      ((∀ raw ∈ rawEntries sysfs, IsEntry raw) →
        (entriesOf st.table st.numentries).map (entryBytes st.table) = rawEntries sysfs ∧
        ∀ verbose, WalkInside st.table verbose st.numentries ∧
          ((∀ raw ∈ rawEntries sysfs, handleOf raw 0 ≠ some 0xffff) → ∀ qsort,
            (opendmi qsort st.table verbose st.numentries).isSome = true)) := by
  obtain ⟨st, hload, htable, hcount, hroom⟩ := loadEntries_eq mem sysfs
  refine ⟨st, hload, hroom, htable, hcount, fun hentries => ?_⟩
  rw [htable, hcount]
  obtain ⟨hoffsets, hbytes⟩ := entriesOf_flatten fun raw hraw => (hentries raw hraw).1
  refine ⟨hbytes, fun verbose => ?_⟩
  have hwalk := walkInside_flatten hentries verbose
  refine ⟨hwalk, fun hhandles qsort => opendmi_isSome hwalk fun m hm => ?_⟩
  rw [Bool.eq_false_iff]
  intro hover
  obtain ⟨e, he, hlast⟩ := (fillHandles_overrun hm).1.mp hover
  rw [hoffsets] at he
  obtain ⟨raw, hraw, -, hhandle⟩ := part_of_mem_offsets hentries verbose he
  exact hhandles raw hraw (hhandle.symm.trans hlast)

/-- A mapped range, with its handle in another read, and an entry that fails in the middle. -/
def sampleSysfs : DmiType → List (List ReadResult)
  | .memoryArray => [[.data [16, 4, 0x10], .interrupted, .data [0, 0, 0]]]
  | .memoryDevice => [[.data [17, 4], .failed]]
  | .memoryArrayAddr => []
  | .memoryMappedAddr => [[.data [20, 4, 0x20, 0, 65, 0, 0]]]

/-- The two complete entries are found. -/
theorem sysfs_table_sample : ∃ st, loadEntries (fun _ => 0xff) sampleSysfs = some st ∧
    (entriesOf st.table st.numentries).map (entryBytes st.table) =
      [[16, 4, 0x10, 0, 0, 0], [20, 4, 0x20, 0, 65, 0, 0]] ∧
    (opendmi .mergeSort st.table 0 st.numentries).isSome = true := by
  have hraw : rawEntries sampleSysfs = [[16, 4, 0x10, 0, 0, 0], [20, 4, 0x20, 0, 65, 0, 0]] := by
    decide
  obtain ⟨st, hload, -, -, -, hwalk⟩ := sysfs_table (fun _ => 0xff) sampleSysfs
  obtain ⟨hentries, hopen⟩ := hwalk (by rw [hraw]; decide)
  exact ⟨st, hload, hentries.trans hraw, (hopen 0).2 (by rw [hraw]; decide) .mergeSort⟩

end

end Mcelog.Dmi
