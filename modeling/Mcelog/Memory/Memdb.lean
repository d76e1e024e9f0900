import Mathlib.Data.Fin.Basic
import Mcelog.Bucket.Model
import Mcelog.Machine.Mce

/-!
# The DIMM database

Model of `memdb.c`: the hash table of `struct memdimm`, `get_memdimm`,
`memdb_trigger` and `memory_error`. C `int` is `Int32`, `unsigned` is `UInt32`.

An entry is addressed by its key instead of its address: `get_memdimm` returns
the first entry of the chain with the wanted socket, channel and DIMM, and the
functions here update that entry. The arguments of a trigger run are kept as
the values that its environment strings print. The one-time warning about
records without a socket id, and the `memdev` pointer that only `prefill_memdb`
reads, are left out.
-/

namespace Mcelog.Memory

open Mcelog.Bucket Mcelog.Machine

/-! ## Data -/

/-- `struct err_type` (memdb.h:4-7). -/
structure ErrType where
  bucket : LeakyBucket
  count : UInt32
  deriving DecidableEq, Repr

/-- The three numbers that identify an entry; `-1` is "unknown". -/
structure DimmKey where
  socketid : Int32
  channel : Int32
  dimm : Int32
  deriving DecidableEq, Repr

/-- `struct memdimm` (memdb.c:35-45). -/
structure Memdimm where
  key : DimmKey
  ce : ErrType
  uc : ErrType
  name : Option String := none
  location : Option String := none
  deriving DecidableEq, Repr

/-- `struct err_triggers` (memdb.c:47-51). -/
structure ErrTriggers where
  ceBucketConf : BucketConf
  ucBucketConf : BucketConf
  type : String
  deriving DecidableEq, Repr

/-- The settings of the database: `dimms`, `sockets`, `memdb_enabled` and
    `sockdb_enabled` (memdb.c:58-62). -/
structure MemdbConf where
  dimms : ErrTriggers
  sockets : ErrTriggers
  memdbEnabled : Bool
  sockdbEnabled : Bool
  deriving DecidableEq, Repr

/-- `md_dimms` and `md_numdimms` (memdb.c:53-56), `SHASH = 17`. -/
structure Memdb where
  mdDimms : Fin 17 → List Memdimm
  mdNumdimms : ℕ

/-- The empty database. -/
def Memdb.empty : Memdb := { mdDimms := fun _ => [], mdNumdimms := 0 }

/-! ## Lookup -/

/-- `dimmhash` (memdb.c:69-77). -/
def dimmhash (socket dimm ch : UInt32) : Fin 17 :=
  let step (hash x : UInt32) : UInt32 := (hash ^^^ (x &&& 0xff)) * 0x01000193
  let hash := step (step (step (step 2166136261 socket) (socket >>> 8)) dimm) ch
  ⟨hash.toNat % 17, Nat.mod_lt _ (by decide)⟩

/-- The chain of a key. -/
def DimmKey.hash (k : DimmKey) : Fin 17 :=
  dimmhash k.socketid.toUInt32 k.dimm.toUInt32 k.channel.toUInt32

/-- `get_memdimm(socketid, channel, dimm, 0)` (memdb.c:80-93). -/
def Memdb.find (db : Memdb) (k : DimmKey) : Option Memdimm :=
  (db.mdDimms k.hash).find? (fun md => md.key = k)

/-- The entry that `get_memdimm` allocates at time `now` (memdb.c:95-103). -/
def newMemdimm (k : DimmKey) (now : ℤ) : Memdimm :=
  { key := k, ce := { bucket := bucketInit now, count := 0 },
    uc := { bucket := bucketInit now, count := 0 } }

/-- `get_memdimm(socketid, channel, dimm, 1)` (memdb.c:80-105) at time `now`: the
    database afterwards and the entry. -/
def getMemdimm (db : Memdb) (k : DimmKey) (now : ℤ) : Memdb × Memdimm :=
  match db.find k with
  | some md => (db, md)
  | none =>
    let md := newMemdimm k now
    ({ mdDimms := Function.update db.mdDimms k.hash (md :: db.mdDimms k.hash)
       mdNumdimms := db.mdNumdimms + 1 }, md)

/-- Replace the first entry with the key of `md` in a chain. -/
def setInChain (md : Memdimm) : List Memdimm → List Memdimm
  | [] => []
  | md' :: rest => if md'.key = md.key then md :: rest else md' :: setInChain md rest

/-- Store the entry `md` that `get_memdimm` returned. -/
def Memdb.set (db : Memdb) (md : Memdimm) : Memdb :=
  let chain := setInChain md (db.mdDimms md.key.hash)
  { db with mdDimms := Function.update db.mdDimms md.key.hash chain }

/-! ## Triggers -/

/-- One call of `memdb_trigger` (memdb.c:134-188): what it logs and what it puts
    into the environment of the trigger. -/
structure TriggerRun where
  message : String
  threshold : String
  key : DimmKey
  name : Option String
  location : Option String
  totalcount : UInt32
  cecount : UInt32
  uccount : UInt32
  lastevent : ℤ
  thresholdCount : UInt32
  conf : BucketConf
  args : List String
  sync : Bool
  reporter : String
  deriving DecidableEq, Repr

/-- `memdb_trigger` (memdb.c:134-188). -/
def memdbTrigger (msg : String) (md : Memdimm) (t : ℤ) (et : ErrType) (bc : BucketConf)
    (args : List String) (sync : Bool) (reporter : String) : TriggerRun :=
  { message := msg ++ ": " ++ bucketOutput bc et.bucket
    threshold := bucketOutput bc et.bucket
    key := md.key
    name := md.name
    location := md.location
    totalcount := et.count
    cecount := md.ce.count
    uccount := md.uc.count
    lastevent := t
    thresholdCount := et.bucket.count + et.bucket.excess
    conf := bc
    args := args
    sync := sync
    reporter := reporter }

/-! ## Accounting -/

/-- `m->time` as `time_t`. -/
def timeT (m : Mce) : ℤ := m.time.toInt64.toInt

/-- `m->status & MCI_STATUS_UC` -/
def isUc (m : Mce) : Bool := m.status &&& mciStatusUc != 0

/-- `account_over` (memdb.c:194-208). -/
def accountOver (t : ErrTriggers) (md : Memdimm) (m : Mce) (corrErrCnt : UInt32)
    (reporter : String) : Memdimm × List TriggerRun :=
  if corrErrCnt ≠ 0 ∧ corrErrCnt - 1 > 0 then
    let cnt := corrErrCnt - 1
    let (bucket, overflow) := bucketAccount t.ceBucketConf md.ce.bucket cnt (timeT m) 1
    let md := { md with ce := { bucket := bucket, count := md.ce.count + cnt } }
    let msg := "Fallback " ++ t.type ++ " memory error count " ++ toString cnt.toInt32 ++
      " exceeded threshold"
    (md, if overflow then [memdbTrigger msg md 0 md.ce t.ceBucketConf [] false reporter] else [])
  else (md, [])

/-- `account_memdb` (memdb.c:210-229). -/
def accountMemdb (t : ErrTriggers) (md : Memdimm) (m : Mce) (reporter : String) :
    Memdimm × List TriggerRun :=
  let msg := (if isUc m then "Un" else "") ++ "corrected " ++ t.type ++
    " memory error count exceeded threshold"
  if isUc m then
    let (bucket, overflow) := bucketAccount t.ucBucketConf md.uc.bucket 1 (timeT m) 1
    let md := { md with uc := { bucket := bucket, count := md.uc.count + 1 } }
    (md, if overflow then
        [memdbTrigger msg md (timeT m) md.uc t.ucBucketConf [] false reporter] else [])
  else
    let (bucket, overflow) := bucketAccount t.ceBucketConf md.ce.bucket 1 (timeT m) 1
    let md := { md with ce := { bucket := bucket, count := md.ce.count + 1 } }
    (md, if overflow then
        [memdbTrigger msg md (timeT m) md.ce t.ceBucketConf [] false reporter] else [])

/-- The error is accounted to its DIMM or channel (memdb.c:250-253). -/
def accountDimm (c : MemdbConf) (db : Memdb) (now : ℤ) (m : Mce) (ch dimm : Int32) :
    Memdb × List TriggerRun :=
  let (db, md) := getMemdimm db ⟨m.socketid.toInt32, ch, dimm⟩ now
  let (md, runs) := accountMemdb c.dimms md m "memdb"
  (db.set md, runs)

/-- The error is accounted to its socket (memdb.c:255-259). -/
def accountSocket (c : MemdbConf) (db : Memdb) (now : ℤ) (m : Mce) (corrErrCnt : UInt32) :
    Memdb × List TriggerRun :=
  let (db, md) := getMemdimm db ⟨m.socketid.toInt32, -1, -1⟩ now
  let (md, overRuns) := accountOver c.sockets md m corrErrCnt "sockdb_fallback"
  let (md, memdbRuns) := accountMemdb c.sockets md m "sockdb_memdb"
  (db.set md, overRuns ++ memdbRuns)

/-- `memory_error` (memdb.c:236-260) at time `now`. -/
def memoryError (c : MemdbConf) (db : Memdb) (now : ℤ) (m : Mce) (ch dimm : Int32)
    (corrErrCnt : UInt32) (recordlen : ℕ) : Memdb × List TriggerRun :=
  if recordlen < endofSocketid then (db, [])
  else
    let (db, runs) :=
      if c.memdbEnabled ∧ (ch ≠ -1 ∨ dimm ≠ -1) then accountDimm c db now m ch dimm else (db, [])
    if c.sockdbEnabled then
      let (db, socketRuns) := accountSocket c db now m corrErrCnt
      (db, runs ++ socketRuns)
    else (db, runs)

/-! ## The database as a map -/

section Map

variable {db : Memdb} {k k' : DimmKey} {md : Memdimm}

@[simp] theorem getMemdimm_key (db : Memdb) (k : DimmKey) (now : ℤ) :
    (getMemdimm db k now).2.key = k := by
  unfold getMemdimm
  split
  · rename_i md hfind
    have hkey := List.find?_some hfind
    exact of_decide_eq_true hkey
  · rfl

/-- After `get_memdimm` the key has the returned entry; the others are as before. -/
theorem find_getMemdimm (db : Memdb) (k : DimmKey) (now : ℤ) (k' : DimmKey) :
    (getMemdimm db k now).1.find k' =
      if k' = k then some (getMemdimm db k now).2 else db.find k' := by
  unfold getMemdimm
  split
  · rename_i md hfind
    split_ifs with hk
    · rw [hk, hfind]
    · rfl
  · split_ifs with hk
    · rw [hk]
      simp [Memdb.find, newMemdimm]
    · by_cases hhash : k'.hash = k.hash
      · have hne : k ≠ k' := fun h => hk h.symm
        simp [Memdb.find, hhash, newMemdimm, hne]
      · simp [Memdb.find, hhash]

theorem find?_setInChain_self {chain : List Memdimm} (md : Memdimm)
    (h : (chain.find? fun x => x.key = md.key) ≠ none) :
    (setInChain md chain).find? (fun x => x.key = md.key) = some md := by
  induction chain with
  | nil => exact absurd rfl h
  | cons x rest ih =>
    rw [setInChain]
    by_cases hx : x.key = md.key
    · rw [if_pos hx]
      simp
    · rw [if_neg hx, List.find?_cons_of_neg (by simpa using hx)]
      rw [List.find?_cons_of_neg (by simpa using hx)] at h
      exact ih h

theorem find?_setInChain_of_ne (chain : List Memdimm) (h : k' ≠ md.key) :
    (setInChain md chain).find? (fun x => x.key = k') = chain.find? (fun x => x.key = k') := by
  induction chain with
  | nil => rfl
  | cons x rest ih =>
    rw [setInChain]
    by_cases hx : x.key = md.key
    · have hmd : md.key ≠ k' := fun he => h he.symm
      have hx' : x.key ≠ k' := fun he => h (he ▸ hx)
      rw [if_pos hx, List.find?_cons_of_neg (by simpa using hmd),
        List.find?_cons_of_neg (by simpa using hx')]
    · rw [if_neg hx, List.find?_cons, List.find?_cons, ih]

/-- Storing an entry of the database changes the entry of its key. -/
theorem find_set (h : db.find md.key ≠ none) (k' : DimmKey) :
    (db.set md).find k' = if k' = md.key then some md else db.find k' := by
  split_ifs with hk
  · rw [hk]
    simpa [Memdb.find, Memdb.set] using find?_setInChain_self md h
  · by_cases hhash : k'.hash = md.key.hash
    · have := find?_setInChain_of_ne (db.mdDimms md.key.hash) hk
      simpa [Memdb.find, Memdb.set, hhash] using this
    · simp [Memdb.find, Memdb.set, hhash]

end Map

end Mcelog.Memory
