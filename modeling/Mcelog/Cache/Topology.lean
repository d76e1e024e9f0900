import Mcelog.Cache.Affected

/-!
# The cache topology

`read_caches` goes over the directories of the CPUs in sysfs, in whatever order `readdir` lists
them, and stores the caches of each CPU in a table that grows with the numbers. It does so once:
after that, `cache_to_cpus` searches the table. `run_yellow_trigger` tells the trigger which CPUs
share the cache that had an error.

* `readCaches_eq`: the table has the directory of each CPU.
* `Holds.findCpus`: the search in the table is one in the files of the CPU.
* `yellow_affected`: the CPUs that are told in any run.
-/

namespace Mcelog.Cache

open Mcelog.Common

/-! ## Files -/

/-- The files of an `index` directory; none where a file cannot be read. -/
structure IndexFiles where
  type : Option (List Char)
  level : Option (List Char)
  sharedCpuMap : Option (List Char)

/-- A directory in `/sys/devices/system/cpu`, with the links of its `cache` if there is one, and
    the directories in there. -/
structure CpuDir where
  name : List Char
  nlink : Option ℕ
  index : ℕ → IndexFiles

/-- `read_field` (sysfs.c:30-62), which returns an empty string where it fails. -/
def readFile (file : Option (List Char)) : List Char := file.elim [] readField

/-- `read_field_num` (sysfs.c:64-76) -/
def readFieldNum (file : Option (List Char)) : UInt32 :=
  let r := sscanf [conversionU] (readFile file)
  if r.ret = 1 then UInt32.ofNat ((r.num? 0).getD 0) else 0

/-- `INSTR`, `DATA` and `UNIFIED` (cache.c:45-50) -/
def typeMap : List (String × UInt32) := [("Instruction", 0), ("Data", 1), ("Unified", 2)]

/-- `read_field_map` (sysfs.c:78-95) for `type_map` -/
def readFieldMap (file : Option (List Char)) : UInt32 :=
  match typeMap.find? fun entry => readFile file = entry.1.toList with
  | some entry => entry.2
  | none => -1

/-! ## The table -/

/-- `struct cache` (cache.c:30-36) -/
structure Cache where
  level : UInt32
  type : UInt32
  cpumap : Option (List UInt32 × UInt32)
  deriving DecidableEq

/-- `caches` and `cachelen` (cache.c:38-39). An array of caches ends before the one of zeros. -/
structure Caches where
  caches : List (Option (List Cache)) := []
  cachelen : UInt32 := 0

/-- `more_cpus` (cache.c:52-62), none where `memset` leaves the memory, as for a negative `old`. -/
def moreCpus (st : Caches) (cpu : UInt32) : Option Caches :=
  let cachelen := if st.cachelen = 0 then 4 else st.cachelen
  let cachelen := if cachelen < cpu then cpu + 1 else cachelen
  let cachelen := cachelen * 2
  if st.cachelen < 0x80000000 ∧ st.cachelen ≤ cachelen then
    some ⟨st.caches ++ List.replicate (cachelen.toNat - st.cachelen.toNat) none, cachelen⟩
  else none

/-- `sscanf(de->d_name, "cpu%u", &cpu)` -/
def cpuNumber (name : List Char) : Option UInt32 :=
  let r := sscanf (literal "cpu" ++ [conversionU]) name
  if r.ret = 1 then (r.num? 0).map UInt32.ofNat else none

/-- `numindex`: the subdirectories, or `MIN_INDEX` (cache.c:132-134). -/
def numIndex (nlink : ℕ) : ℕ := if nlink < 2 then 4 else nlink - 2

/-- `read_cpu_map` (cache.c:99-112) for a file -/
def readCpuMapFile (file : Option (List Char)) : Option (Option (List UInt32 × UInt32)) :=
  match file with
  | none => some none
  | some content => readCpuMap content

/-- The caches of a CPU (cache.c:140-149). -/
def readIndexes (d : CpuDir) (nlink : ℕ) : Option (List Cache) :=
  (List.range (numIndex nlink)).mapM fun i => do
    let cpumap ← readCpuMapFile (d.index i).sharedCpuMap
    return {
      level := readFieldNum (d.index i).level
      type := readFieldMap (d.index i).type
      cpumap }

/-- One directory (cache.c:122-154), none where a store or the assertion goes wrong. -/
def readCpu (st : Caches) (d : CpuDir) : Option Caches :=
  match cpuNumber d.name, d.nlink with
  | some cpu, some nlink => do
    let st ← (if st.cachelen ≤ cpu then moreCpus st cpu else some st)
    if cpu < st.cachelen then
      let indexes ← readIndexes d nlink
      return { st with caches := st.caches.set cpu.toNat (some indexes) }
    else none
  | _, _ => some st

/-- `read_caches` (cache.c:114-157) for a directory that can be opened -/
def readCaches (st : Caches) (dirs : List CpuDir) : Option Caches := dirs.foldlM readCpu st

/-- The loop of `cache_to_cpus` (cache.c:175-182). -/
def searchCaches (level type : UInt32) : List Cache → Option (List UInt32 × UInt32)
  | [] => none
  | c :: cs =>
    match c.cpumap with
    | none => none
    | some cpumap =>
      if c.level = level ∧ (c.type = type ∨ c.type = 2) then some cpumap
      else searchCaches level type cs

/-- The search of `cache_to_cpus` (cache.c:171-184). -/
def findCpus (st : Caches) (cpu : Int32) (level type : UInt32) : Option (List UInt32 × UInt32) :=
  if cpu < 0 ∨ st.cachelen ≤ cpu.toUInt32 then none
  else ((st.caches[cpu.toUInt32.toNat]?).join).bind (searchCaches level type)

/-- `cache_to_cpus` (cache.c:159-185), with the directory if it can be opened: the table
    afterwards, and the mask. `caches` is NULL as long as `cachelen` is 0. -/
def cacheToCpus (st : Caches) (sysfs : Option (List CpuDir)) (cpu : Int32) (level type : UInt32) :
    Option (Caches × Option (List UInt32 × UInt32)) :=
  if st.cachelen = 0 then
    match sysfs with
    | none => some (st, none)
    | some dirs => do
      let st ← readCaches st dirs
      if st.cachelen = 0 then return (st, none) else return (st, findCpus st cpu level type)
  else some (st, findCpus st cpu level type)

/-! ## The trigger -/

/-- A cache error that starts the trigger, with the contents of sysfs at that time. -/
structure YellowCall where
  sysfs : Option (List CpuDir)
  cpu : Int32
  tnum : Int32
  lnum : Int32

/-- The last entry of the environment (yellow.c:95-98). -/
def affectedEntry : Option (List UInt32 × UInt32) → Option (List Char)
  | some (cpumask, cpumasklen) => cpulist "AFFECTED_CPUS=".toList cpumask cpumasklen
  | none => some "AFFECTED_CPUS=unknown".toList

/-- `run_yellow_trigger` (yellow.c:61-110) with a trigger: the table afterwards, and the entry. -/
def affectedCpus (st : Caches) (call : YellowCall) : Option (Caches × List Char) := do
  let (st, found) ← cacheToCpus st call.sysfs call.cpu call.lnum.toUInt32 call.tnum.toUInt32
  let text ← affectedEntry found
  return (st, text)

/-- The entries for one call after the other. -/
def yellowRun : Caches → List YellowCall → Option (List (List Char))
  | _, [] => some []
  | st, call :: calls => do
    let (st, text) ← affectedCpus st call
    let texts ← yellowRun st calls
    return text :: texts

/-! ## What the files say -/

/-- The number of a directory with caches. -/
def CpuDir.number (d : CpuDir) : Option UInt32 := d.nlink.bind fun _ => cpuNumber d.name

/-- The mask of the first cache of this level and type, before the first one without a mask. -/
def sharedMask (level type : UInt32) : List IndexFiles → Option (List Char)
  | [] => none
  | f :: fs =>
    if readFile f.sharedCpuMap = [] then none
    else if readFieldNum f.level = level ∧
        (readFieldMap f.type = type ∨ readFieldMap f.type = 2) then
      some (readFile f.sharedCpuMap)
    else sharedMask level type fs

/-- The files of the caches of a CPU. -/
def CpuDir.indexes (d : CpuDir) : List IndexFiles :=
  (List.range (numIndex (d.nlink.getD 0))).map d.index

/-- The directory of a CPU, the last one if there were several. -/
def dirOf (dirs : List CpuDir) (cpu : UInt32) : Option CpuDir :=
  (dirs.filter fun d => d.number = some cpu).getLast?

/-- The mask of the CPUs that share a cache. -/
def maskOf (dirs : List CpuDir) (cpu : Int32) (level type : UInt32) : Option (List Char) :=
  if cpu < 0 then none
  else (dirOf dirs cpu.toUInt32).bind fun d => sharedMask level type d.indexes

/-- The CPUs of a mask. -/
def maskCpus (mask : List Char) : List ℕ :=
  (List.range (32 * (mask.splitOn ',').length)).filter (maskNumber (mask.splitOn ',')).testBit

/-- What the trigger is told. -/
def affectedText (dirs : List CpuDir) (call : YellowCall) : List Char :=
  match maskOf dirs call.cpu call.lnum.toUInt32 call.tnum.toUInt32 with
  | some mask => "AFFECTED_CPUS=".toList ++ blankSeparated (maskCpus mask)
  | none => "AFFECTED_CPUS=unknown".toList

/-- The directory that counts: the first one that has caches. -/
def firstTopology (dirs : Option (List CpuDir)) (sysfs : Option (List CpuDir)) :
    Option (List CpuDir) :=
  dirs.or (sysfs.filter fun dirs => dirs.any fun d => d.number.isSome)

/-- What the trigger is told, one call after the other. -/
def affectedTexts : Option (List CpuDir) → List YellowCall → List (List Char)
  | _, [] => []
  | dirs, call :: calls =>
    affectedText ((firstTopology dirs call.sysfs).getD []) call ::
      affectedTexts (firstTopology dirs call.sysfs) calls

/-- As the kernel writes it: CPU numbers for which the table can grow, and masks in groups. -/
structure Formatted (dirs : List CpuDir) : Prop where
  numbers : ∀ d ∈ dirs, ∀ cpu ∈ d.number, cpu.toNat < 2 ^ 31 - 1
  masks : ∀ d ∈ dirs, ∀ i, readFile (d.index i).sharedCpuMap = [] ∨
    ∃ groups, Mask groups ∧ readFile (d.index i).sharedCpuMap = maskText groups

/-- No number is listed twice. -/
def DistinctNumbers (dirs : List CpuDir) : Prop :=
  dirs.Pairwise fun d d' => d.number.isSome → d.number ≠ d'.number

/-- The same directories in another order, each number once. -/
def SameDirs (dirs dirs' : List CpuDir) : Prop := DistinctNumbers dirs ∧ dirs.Perm dirs'

/-- The same call, where `readdir` lists the directories in another order. -/
structure Reordered (call call' : YellowCall) : Prop where
  sysfs : Option.Rel SameDirs call.sysfs call'.sysfs
  cpu : call'.cpu = call.cpu
  tnum : call'.tnum = call.tnum
  lnum : call'.lnum = call.lnum

section

variable {st st' : Caches} {dirs dirs' : List CpuDir} {d : CpuDir} {cpu level type : UInt32}
  {groups : List (List Char)} {file : Option (List Char)} {fs : List IndexFiles}

/-! ## The masks -/

/-- The groups are read back from the text of a mask. -/
theorem splitOn_maskText (h : Mask groups) : (maskText groups).splitOn ',' = groups := by
  refine List.splitOn_intercalate ',' (fun g hg hmem => ?_) h.nonempty
  exact absurd (h.digits g hg ',' hmem) (by decide)

/-- The words of the text of a mask, and their bytes. -/
def maskBuffer (mask : List Char) : List UInt32 × UInt32 :=
  (maskWords (mask.splitOn ','), 4 * UInt32.ofNat (mask.splitOn ',').length)

/-- The file of a mask: NULL, or its words. -/
theorem readCpuMapFile_eq (h : readFile file = [] ∨
    ∃ groups, Mask groups ∧ readFile file = maskText groups) :
    readCpuMapFile file =
      some (if readFile file = [] then none else some (maskBuffer (readFile file))) := by
  cases file with
  | none => rfl
  | some content =>
    show readCpuMap content = _
    rcases h with hnil | ⟨groups, hmask, htext⟩
    · have hfield : readField content = [] := hnil
      rw [if_pos hnil, readCpuMap, hfield]
      rfl
    · have hfield : readField content = maskText groups := htext
      have hne : maskText groups ≠ [] := by
        have hlong := length_maskText hmask
        have hpos := List.length_pos_of_ne_nil hmask.nonempty
        exact List.ne_nil_of_length_pos (by omega)
      rw [readCpuMap_groups hmask hfield, htext, if_neg hne, maskBuffer, splitOn_maskText hmask]

/-- What `read_caches` stores for an index. -/
def cacheOf (f : IndexFiles) : Cache where
  level := readFieldNum f.level
  type := readFieldMap f.type
  cpumap :=
    if readFile f.sharedCpuMap = [] then none else some (maskBuffer (readFile f.sharedCpuMap))

/-- The caches of a CPU are read without an error. -/
theorem readIndexes_eq (h : Formatted dirs) (hd : d ∈ dirs) {nlink : ℕ}
    (hnlink : d.nlink = some nlink) : readIndexes d nlink = some (d.indexes.map cacheOf) := by
  have hread : ∀ i, ((readCpuMapFile (d.index i).sharedCpuMap).bind fun cpumap =>
      some { level := readFieldNum (d.index i).level, type := readFieldMap (d.index i).type,
             cpumap : Cache }) = pure (cacheOf (d.index i)) := by
    intro i
    rw [readCpuMapFile_eq (h.masks d hd i)]
    rfl
  unfold readIndexes CpuDir.indexes
  rw [hnlink, Option.getD_some, List.map_map]
  have hmap := List.mapM_pure (m := Option) (l := List.range (numIndex nlink))
    (f := fun i => cacheOf (d.index i))
  rw [← funext hread] at hmap
  exact hmap

/-- The search goes over the files. -/
theorem searchCaches_eq (level type : UInt32) (fs : List IndexFiles) :
    searchCaches level type (fs.map cacheOf) = (sharedMask level type fs).map maskBuffer := by
  induction fs with
  | nil => rfl
  | cons f fs ih =>
    rw [List.map_cons, searchCaches, sharedMask]
    by_cases hnil : readFile f.sharedCpuMap = []
    · have hnone : (cacheOf f).cpumap = none := if_pos hnil
      rw [hnone, if_pos hnil]
      rfl
    · have hsome : (cacheOf f).cpumap = some (maskBuffer (readFile f.sharedCpuMap)) := if_neg hnil
      rw [hsome, if_neg hnil]
      by_cases hmatch : readFieldNum f.level = level ∧
          (readFieldMap f.type = type ∨ readFieldMap f.type = 2)
      · rw [if_pos hmatch]
        exact if_pos hmatch
      · rw [if_neg hmatch, ← ih]
        exact if_neg hmatch

/-- A mask that is found is one of the files. -/
theorem exists_of_sharedMask {mask : List Char} (h : sharedMask level type fs = some mask) :
    mask ≠ [] ∧ ∃ f ∈ fs, readFile f.sharedCpuMap = mask := by
  induction fs with
  | nil => cases h
  | cons f fs ih =>
    rw [sharedMask] at h
    split_ifs at h with hnil hmatch
    · obtain rfl := Option.some.inj h
      exact ⟨hnil, f, List.mem_cons_self, rfl⟩
    · obtain ⟨hne, f', hf', htext⟩ := ih h
      exact ⟨hne, f', List.mem_cons_of_mem _ hf', htext⟩

/-! ## The table -/

/-- The table grows beyond the number, and keeps what it has. -/
theorem moreCpus_eq (hle : st.cachelen ≤ cpu) (hcpu : cpu.toNat < 2 ^ 31 - 1) :
    ∃ n : UInt32, moreCpus st cpu =
        some ⟨st.caches ++ List.replicate (n.toNat - st.cachelen.toNat) none, n⟩ ∧
      cpu < n ∧ st.cachelen ≤ n := by
  have hbound : ∀ n : UInt32, n.toNat < 2 ^ 31 → (n * 2).toNat = n.toNat * 2 := by
    intro n hn
    rw [UInt32.toNat_mul]
    exact Nat.mod_eq_of_lt (by show n.toNat * 2 < 2 ^ 32; omega)
  have hsucc : (cpu + 1).toNat = cpu.toNat + 1 := by
    rw [UInt32.toNat_add]
    exact Nat.mod_eq_of_lt (by show cpu.toNat + 1 < 2 ^ 32; omega)
  have hzero : st.cachelen = 0 ↔ st.cachelen.toNat = 0 := by
    rw [← UInt32.toNat_inj]
    rfl
  have hfour : (4 : UInt32).toNat = 4 := rfl
  rw [UInt32.le_iff_toNat_le] at hle
  unfold moreCpus
  dsimp only
  generalize hn : (if (if st.cachelen = 0 then 4 else st.cachelen) < cpu then cpu + 1
    else if st.cachelen = 0 then 4 else st.cachelen) = n
  have hlarge : cpu.toNat < n.toNat * 2 ∧ st.cachelen.toNat ≤ n.toNat * 2 ∧ n.toNat < 2 ^ 31 := by
    rw [← hn]
    simp only [UInt32.lt_iff_toNat_lt]
    split_ifs with hz hlt hlt <;> simp only [hzero] at hz <;> omega
  have hgrown := hbound n hlarge.2.2
  have hpow : (0x80000000 : UInt32).toNat = 2 ^ 31 := rfl
  refine ⟨n * 2, if_pos (And.intro ?_ ?_), ?_, ?_⟩
  · rw [UInt32.lt_iff_toNat_lt, hpow]
    omega
  · rw [UInt32.le_iff_toNat_le]
    omega
  · rw [UInt32.lt_iff_toNat_lt]
    omega
  · rw [UInt32.le_iff_toNat_le]
    omega

/-- The table has the caches of these directories. -/
structure Holds (st : Caches) (dirs : List CpuDir) : Prop where
  length : st.caches.length = st.cachelen.toNat
  caches : ∀ cpu : UInt32, (st.caches[cpu.toNat]?).join =
    (dirOf dirs cpu).map fun d => d.indexes.map cacheOf
  room : ∀ d ∈ dirs, ∀ cpu ∈ d.number, cpu < st.cachelen
  empty : (dirs.any fun d => d.number.isSome) = false → st = {}

theorem holds_nil : Holds {} [] where
  length := rfl
  caches _ := rfl
  room _ h := absurd h List.not_mem_nil
  empty _ := rfl

theorem dirOf_concat (dirs : List CpuDir) (d : CpuDir) (cpu : UInt32) :
    dirOf (dirs ++ [d]) cpu = if d.number = some cpu then some d else dirOf dirs cpu := by
  unfold dirOf
  rw [List.filter_append]
  split_ifs with h
  · rw [List.filter_cons_of_pos (by simpa using h), List.filter_nil, List.getLast?_concat]
  · rw [List.filter_cons_of_neg (by simpa using h), List.filter_nil, List.append_nil]

/-- A directory without a number or without caches. -/
theorem readCpu_of_none (h : d.number = none) (st : Caches) : readCpu st d = some st := by
  unfold readCpu
  unfold CpuDir.number at h
  cases hnlink : d.nlink with
  | none => cases cpuNumber d.name <;> rfl
  | some nlink =>
    rw [hnlink, Option.bind_some] at h
    rw [h]

/-- There is room for the number. -/
theorem room_of_number (hlen : st.caches.length = st.cachelen.toNat)
    (hcpu : cpu.toNat < 2 ^ 31 - 1) :
    ∃ st' : Caches, (if st.cachelen ≤ cpu then moreCpus st cpu else some st) = some st' ∧
      st'.caches.length = st'.cachelen.toNat ∧ cpu < st'.cachelen ∧ st.cachelen ≤ st'.cachelen ∧
      ∀ i : ℕ, (st'.caches[i]?).join = (st.caches[i]?).join := by
  by_cases hle : st.cachelen ≤ cpu
  · obtain ⟨n, hmore, hlt, hgrown⟩ := moreCpus_eq hle hcpu
    rw [if_pos hle, hmore]
    refine ⟨_, rfl, ?_, hlt, hgrown, fun i => ?_⟩
    · rw [UInt32.le_iff_toNat_le] at hgrown
      show _ = n.toNat
      rw [List.length_append, List.length_replicate, hlen]
      omega
    · rw [List.getElem?_append]
      split_ifs with hi
      · rfl
      · rw [List.getElem?_eq_none (Nat.not_lt.mp hi), List.getElem?_replicate]
        split_ifs <;> rfl
  · rw [if_neg hle]
    exact ⟨st, rfl, hlen, by simpa using hle, UInt32.le_refl _, fun i => rfl⟩

/-- One directory. -/
theorem readCpu_holds (h : Holds st dirs) {all : List CpuDir} (hall : Formatted all)
    (hd : d ∈ all) : ∃ st', readCpu st d = some st' ∧ Holds st' (dirs ++ [d]) := by
  cases hnumber : d.number with
  | none =>
    refine ⟨st, readCpu_of_none hnumber st, h.length, fun cpu => ?_, ?_, ?_⟩
    · rw [dirOf_concat, if_neg (by rw [hnumber]; exact Option.some_ne_none cpu |>.symm)]
      exact h.caches cpu
    · intro d' hd' cpu hcpu
      rcases List.mem_append.mp hd' with hd' | hd'
      · exact h.room d' hd' cpu hcpu
      · obtain rfl := List.mem_singleton.mp hd'
        rw [hnumber] at hcpu
        cases hcpu
    · intro hnone
      rw [List.any_append, Bool.or_eq_false_iff] at hnone
      exact h.empty hnone.1
  | some cpu =>
    obtain ⟨nlink, hnlink, hname⟩ := Option.bind_eq_some_iff.mp hnumber
    obtain ⟨st₁, hroom, hlen, hlt, hgrown, hsame⟩ :=
      room_of_number h.length (hall.numbers d hd cpu hnumber)
    refine ⟨{ st₁ with caches := st₁.caches.set cpu.toNat (some (d.indexes.map cacheOf)) },
      ?_, ?_, fun cpu' => ?_, ?_, fun hnone => ?_⟩
    · unfold readCpu
      rw [hname, hnlink]
      dsimp only
      rw [hroom, Option.bind_eq_bind, Option.bind_some, if_pos hlt, readIndexes_eq hall hd hnlink]
      rfl
    · rw [List.length_set]
      exact hlen
    · rw [dirOf_concat, List.getElem?_set, hnumber]
      rw [UInt32.lt_iff_toNat_lt, ← hlen] at hlt
      by_cases heq : cpu = cpu'
      · subst heq
        rw [if_pos rfl, if_pos rfl, if_pos hlt]
        rfl
      · rw [if_neg fun hnat => heq (UInt32.toNat_inj.mp hnat), if_neg fun hsome =>
          heq (Option.some.inj hsome), hsame]
        exact h.caches cpu'
    · intro d' hd' cpu' hcpu'
      rcases List.mem_append.mp hd' with hd' | hd'
      · exact UInt32.lt_of_lt_of_le (h.room d' hd' cpu' hcpu') hgrown
      · obtain rfl := List.mem_singleton.mp hd'
        rw [hnumber] at hcpu'
        obtain rfl := Option.some.inj hcpu'
        exact hlt
    · rw [List.any_append, Bool.or_eq_false_iff] at hnone
      have hsome := hnone.2
      rw [List.any_cons, hnumber] at hsome
      cases hsome

/-- All directories, in the order of the listing. -/
theorem readCaches_eq (h : Formatted dirs) :
    ∃ st, readCaches {} dirs = some st ∧ Holds st dirs := by
  have hall : ∀ (after before : List CpuDir) st, before ++ after = dirs → Holds st before →
      ∃ st', after.foldlM readCpu st = some st' ∧ Holds st' dirs := by
    intro after
    induction after with
    | nil =>
      intro before st hsplit hst
      rw [List.append_nil] at hsplit
      exact ⟨st, rfl, hsplit ▸ hst⟩
    | cons d after ih =>
      intro before st hsplit hst
      obtain ⟨st₁, hstep, h₁⟩ := readCpu_holds hst h (d := d) (by
        rw [← hsplit]
        exact List.mem_append_right _ List.mem_cons_self)
      obtain ⟨st', hrest, h'⟩ := ih (before ++ [d]) st₁ (by rw [← hsplit]; simp) h₁
      exact ⟨st', by rw [List.foldlM_cons, hstep]; exact hrest, h'⟩
  exact hall dirs [] {} rfl holds_nil

/-! ## The search -/

theorem Holds.cachelen_eq_zero (h : Holds st dirs) :
    st.cachelen = 0 ↔ (dirs.any fun d => d.number.isSome) = false := by
  constructor
  · intro hzero
    rw [List.any_eq_false]
    intro d hd hsome
    obtain ⟨cpu, hcpu⟩ := Option.isSome_iff_exists.mp hsome
    have hroom := h.room d hd cpu hcpu
    rw [hzero] at hroom
    exact UInt32.not_lt_zero hroom
  · intro hnone
    rw [h.empty hnone]

/-- The search in the table is one in the files of the CPU. -/
theorem Holds.findCpus (h : Holds st dirs) (cpu : Int32) (level type : UInt32) :
    findCpus st cpu level type = (maskOf dirs cpu level type).map maskBuffer := by
  unfold Cache.findCpus maskOf
  by_cases hneg : cpu < 0
  · rw [if_pos (Or.inl hneg), if_pos hneg]
    rfl
  · have hcaches := h.caches cpu.toUInt32
    rw [if_neg hneg]
    by_cases hle : st.cachelen ≤ cpu.toUInt32
    · have hbehind : st.caches[cpu.toUInt32.toNat]? = none := by
        rw [List.getElem?_eq_none_iff, h.length]
        exact UInt32.le_iff_toNat_le.mp hle
      rw [hbehind] at hcaches
      have hdir : dirOf dirs cpu.toUInt32 = none := Option.map_eq_none_iff.mp hcaches.symm
      rw [if_pos (Or.inr hle), hdir]
      rfl
    · rw [if_neg (by rintro (hneg' | hle'); exacts [hneg hneg', hle hle']), hcaches]
      cases dirOf dirs cpu.toUInt32 with
      | none => rfl
      | some d =>
        rw [Option.map_some, Option.bind_some, Option.bind_some]
        exact searchCaches_eq level type d.indexes

/-- The mask that is found is one of the kernel. -/
theorem Formatted.mask (h : Formatted dirs) {cpu : Int32} {mask : List Char}
    (hmask : maskOf dirs cpu level type = some mask) :
    ∃ groups, Mask groups ∧ groups.length < 2 ^ 27 ∧ mask = maskText groups := by
  unfold maskOf at hmask
  split_ifs at hmask with hneg
  obtain ⟨d, hdir, hshared⟩ := Option.bind_eq_some_iff.mp hmask
  have hd : d ∈ dirs := List.mem_of_mem_filter (List.mem_of_getLast? hdir)
  obtain ⟨hne, f, hf, htext⟩ := exists_of_sharedMask hshared
  obtain ⟨i, -, rfl⟩ := List.mem_map.mp hf
  rcases h.masks d hd i with hnil | ⟨groups, hgroups, hfile⟩
  · rw [htext] at hnil
    exact absurd hnil hne
  · refine ⟨groups, hgroups, ?_, by rw [← htext, hfile]⟩
    cases hcontent : (d.index i).sharedCpuMap with
    | none =>
      rw [hcontent] at htext
      exact absurd htext.symm hne
    | some content =>
      rw [hcontent] at hfile
      have hfew := length_groups_of_readField hgroups hfile
      omega

/-- What the trigger is told, from a table that is complete. -/
theorem affectedText_eq (h : Formatted dirs) (hst : Holds st dirs) (call : YellowCall) :
    affectedEntry (findCpus st call.cpu call.lnum.toUInt32 call.tnum.toUInt32) =
      some (affectedText dirs call) := by
  unfold affectedText
  rw [hst.findCpus]
  cases hmask : maskOf dirs call.cpu call.lnum.toUInt32 call.tnum.toUInt32 with
  | none => rfl
  | some mask =>
    obtain ⟨groups, hgroups, hfew, rfl⟩ := h.mask hmask
    dsimp only
    rw [Option.map_some, maskBuffer, maskCpus, splitOn_maskText hgroups]
    exact cpulist_eq hgroups hfew _

/-! ## Runs -/

/-- The table before and after a call: empty, or that of a listing that has caches. -/
def TableOf (st : Caches) : Option (List CpuDir) → Prop
  | none => st = {}
  | some dirs => Formatted dirs ∧ Holds st dirs ∧ st.cachelen ≠ 0

/-- The first time, the table is built. -/
theorem cacheToCpus_of_readCaches (hread : readCaches {} dirs = some st) (cpu : Int32)
    (level type : UInt32) :
    cacheToCpus {} (some dirs) cpu level type =
      some (st, if st.cachelen = 0 then none else findCpus st cpu level type) := by
  unfold cacheToCpus
  rw [if_pos rfl]
  dsimp only
  rw [hread, Option.bind_eq_bind, Option.bind_some]
  split_ifs <;> rfl

/-- Later, the table is there. -/
theorem cacheToCpus_of_table (hlen : st.cachelen ≠ 0) (sysfs : Option (List CpuDir))
    (cpu : Int32) (level type : UInt32) :
    cacheToCpus st sysfs cpu level type = some (st, findCpus st cpu level type) := if_neg hlen

/-- One call. -/
theorem affectedCpus_eq {topology : Option (List CpuDir)} {call : YellowCall}
    (hst : TableOf st topology) (hcall : ∀ dirs ∈ call.sysfs, Formatted dirs) :
    ∃ st', affectedCpus st call =
        some (st', affectedText ((firstTopology topology call.sysfs).getD []) call) ∧
      TableOf st' (firstTopology topology call.sysfs) := by
  have hunknown : affectedText [] call = "AFFECTED_CPUS=unknown".toList := by
    unfold affectedText maskOf
    split_ifs <;> rfl
  cases topology with
  | some dirs =>
    obtain ⟨hdirs, hholds, hlen⟩ := hst
    refine ⟨st, ?_, hdirs, hholds, hlen⟩
    rw [affectedCpus, cacheToCpus_of_table hlen, Option.bind_eq_bind, Option.bind_some]
    dsimp only
    rw [affectedText_eq hdirs hholds]
    rfl
  | none =>
    obtain rfl : st = {} := hst
    cases hsysfs : call.sysfs with
    | none =>
      refine ⟨{}, ?_, rfl⟩
      unfold affectedCpus cacheToCpus
      rw [hsysfs]
      exact congrArg (fun text => some (({} : Caches), text)) hunknown.symm
    | some dirs =>
      have hdirs := hcall dirs hsysfs
      obtain ⟨st', hread, hholds⟩ := readCaches_eq hdirs
      have hzero := hholds.cachelen_eq_zero
      rw [affectedCpus, hsysfs, cacheToCpus_of_readCaches hread, Option.bind_eq_bind,
        Option.bind_some]
      dsimp only
      cases hany : dirs.any fun d => d.number.isSome with
      | false =>
        obtain rfl := hholds.empty hany
        have hfirst : firstTopology none (some dirs) = none := by
          rw [firstTopology, Option.none_or, Option.filter_some, hany]
          rfl
        rw [hfirst]
        exact ⟨{}, congrArg (fun text => some (({} : Caches), text)) hunknown.symm, rfl⟩
      | true =>
        have hlen : st'.cachelen ≠ 0 := fun h => by
          rw [hzero.mp h] at hany
          cases hany
        have hfirst : firstTopology none (some dirs) = some dirs := by
          rw [firstTopology, Option.none_or, Option.filter_some, hany]
          rfl
        rw [hfirst, if_neg hlen, affectedText_eq hdirs hholds]
        exact ⟨st', rfl, hdirs, hholds, hlen⟩

theorem yellowRun_eq {topology : Option (List CpuDir)} {calls : List YellowCall}
    (hst : TableOf st topology) (h : ∀ call ∈ calls, ∀ dirs ∈ call.sysfs, Formatted dirs) :
    yellowRun st calls = some (affectedTexts topology calls) := by
  induction calls generalizing st topology with
  | nil => rfl
  | cons call calls ih =>
    obtain ⟨st', hstep, hst'⟩ := affectedCpus_eq hst (h call List.mem_cons_self)
    rw [yellowRun, hstep, Option.bind_eq_bind, Option.bind_some]
    dsimp only
    rw [ih hst' fun c hc => h c (List.mem_cons_of_mem _ hc)]
    rfl

/-! ## The order of the listing -/

/-- One directory at most has the number. -/
theorem filter_number_length (h : DistinctNumbers dirs) (cpu : UInt32) :
    (dirs.filter fun d => d.number = some cpu).length ≤ 1 := by
  have hdistinct := List.Pairwise.filter (fun d => d.number = some cpu) h
  have hnumber : ∀ d ∈ dirs.filter fun d => d.number = some cpu, d.number = some cpu := by
    intro d hd
    simpa using (List.mem_filter.mp hd).2
  generalize (dirs.filter fun d => d.number = some cpu) = matching at hdistinct hnumber
  match matching with
  | [] => exact Nat.zero_le 1
  | [_] => exact le_rfl
  | d :: d' :: rest =>
    have hd := hnumber d List.mem_cons_self
    have hd' := hnumber d' (List.mem_cons_of_mem _ List.mem_cons_self)
    refine absurd (hd.trans hd'.symm) (List.rel_of_pairwise_cons hdistinct List.mem_cons_self ?_)
    rw [hd]
    rfl

theorem dirOf_perm (h : DistinctNumbers dirs) (hperm : dirs.Perm dirs') (cpu : UInt32) :
    dirOf dirs' cpu = dirOf dirs cpu := by
  have hfilter := hperm.filter fun d => d.number = some cpu
  have hlen := filter_number_length h cpu
  unfold dirOf
  generalize (dirs.filter fun d => d.number = some cpu) = matching at hfilter hlen
  match matching, hlen with
  | [], _ => rw [hfilter.nil_eq.symm]
  | [d], _ => rw [List.singleton_perm.mp hfilter]

theorem Formatted.perm (h : Formatted dirs) (hperm : dirs.Perm dirs') : Formatted dirs' where
  numbers d hd := h.numbers d (hperm.mem_iff.mpr hd)
  masks d hd := h.masks d (hperm.mem_iff.mpr hd)

variable {call call' : YellowCall} {calls calls' : List YellowCall}
  {topology topology' : Option (List CpuDir)}

theorem affectedText_reordered (hcall : Reordered call call')
    (h : Option.Rel SameDirs topology topology') :
    affectedText (topology'.getD []) call' = affectedText (topology.getD []) call := by
  unfold affectedText maskOf
  rw [hcall.cpu, hcall.tnum, hcall.lnum]
  cases h with
  | none => rfl
  | some hsame =>
    rw [Option.getD_some, Option.getD_some, dirOf_perm hsame.1 hsame.2]

theorem firstTopology_reordered {sysfs sysfs' : Option (List CpuDir)}
    (h : Option.Rel SameDirs topology topology') (hsysfs : Option.Rel SameDirs sysfs sysfs') :
    Option.Rel SameDirs (firstTopology topology sysfs) (firstTopology topology' sysfs') := by
  cases h with
  | some hsame => exact .some hsame
  | none =>
    cases hsysfs with
    | none => exact .none
    | @some dirs dirs' hsame =>
      unfold firstTopology
      rw [Option.none_or, Option.none_or, Option.filter_some, Option.filter_some,
        ← hsame.2.any_eq]
      split_ifs
      · exact .some hsame
      · exact .none

theorem affectedTexts_reordered (h : Option.Rel SameDirs topology topology')
    (hcalls : List.Forall₂ Reordered calls calls') :
    affectedTexts topology' calls' = affectedTexts topology calls := by
  induction hcalls generalizing topology topology' with
  | nil => rfl
  | cons hcall hcalls ih =>
    have hfirst := firstTopology_reordered h hcall.sysfs
    rw [affectedTexts, affectedTexts, affectedText_reordered hcall hfirst, ih hfirst]

theorem formatted_reordered (hcalls : List.Forall₂ Reordered calls calls')
    (h : ∀ call ∈ calls, ∀ dirs ∈ call.sysfs, Formatted dirs) :
    ∀ call ∈ calls', ∀ dirs ∈ call.sysfs, Formatted dirs := by
  induction hcalls with
  | nil => exact fun call hcall => absurd hcall List.not_mem_nil
  | @cons call call' calls calls' hcall hcalls ih =>
    intro c hc dirs' hdirs'
    rcases List.mem_cons.mp hc with rfl | hc
    · have hsysfs := hcall.sysfs
      rw [hdirs'] at hsysfs
      cases hdirs : call.sysfs with
      | none =>
        rw [hdirs] at hsysfs
        cases hsysfs
      | some dirs =>
        rw [hdirs] at hsysfs
        cases hsysfs with
        | some hsame => exact (h call List.mem_cons_self dirs hdirs).perm hsame.2
    · exact ih (fun c' hc' => h c' (List.mem_cons_of_mem _ hc')) c hc dirs' hdirs'

/-- **The CPUs that the trigger is told.** In any run of calls, each with what sysfs has at that
    time, no store goes wrong. The first listing with caches counts for the rest of the run. A
    call gets the CPUs of the mask in the files of its CPU, or `unknown`, and the order in
    which `readdir` lists the directories makes no difference. -/
theorem yellow_affected (calls : List YellowCall)
    (h : ∀ call ∈ calls, ∀ dirs ∈ call.sysfs, Formatted dirs) :
    yellowRun {} calls = some (affectedTexts none calls) ∧
      ∀ calls', List.Forall₂ Reordered calls calls' → yellowRun {} calls' = yellowRun {} calls := by
  have hempty : TableOf {} none := rfl
  have hrun := yellowRun_eq hempty h
  refine ⟨hrun, fun calls' hcalls => ?_⟩
  rw [hrun, yellowRun_eq hempty (formatted_reordered hcalls h),
    affectedTexts_reordered .none hcalls]

/-- A listing where CPU 37 shares its cache with CPU 5. -/
def sampleListing : List CpuDir :=
  let index : ℕ → IndexFiles := fun _ =>
    ⟨some "Unified\n".toList, some "3\n".toList, some "20,00000020\n".toList⟩
  [⟨"cpufreq".toList, none, index⟩, ⟨"cpu37".toList, some 3, index⟩]

theorem yellow_affected_sample :
    yellowRun {} [⟨none, 37, 0, 3⟩, ⟨some sampleListing, 37, 1, 3⟩, ⟨none, 5, 1, 3⟩] =
      some ["AFFECTED_CPUS=unknown".toList, "AFFECTED_CPUS=5 37".toList,
        "AFFECTED_CPUS=unknown".toList] := by
  have hmask : Mask ["20".toList, "00000020".toList] := ⟨by simp, by decide, by decide⟩
  have hfile : readFile (some "20,00000020\n".toList) =
    maskText ["20".toList, "00000020".toList] := by decide
  refine (yellow_affected _ fun call hcall dirs hdirs => ?_).1.trans (by decide)
  obtain rfl : sampleListing = dirs := by
    fin_cases hcall <;> cases hdirs
    rfl
  constructor
  · intro d hd cpu hcpu
    have hnumbers : sampleListing.map CpuDir.number = [none, some 37] := by decide
    have hnumber : some cpu ∈ sampleListing.map CpuDir.number :=
      List.mem_map.mpr ⟨d, hd, hcpu⟩
    rw [hnumbers] at hnumber
    obtain rfl : cpu = 37 := by simpa using hnumber
    show 37 < 2 ^ 31 - 1
    norm_num
  · intro d hd i
    refine .inr ⟨_, hmask, ?_⟩
    fin_cases hd <;> exact hfile

end

end Mcelog.Cache
