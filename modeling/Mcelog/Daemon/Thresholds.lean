import Mcelog.Daemon.Setup
import Mcelog.Memory.Totals
import Mcelog.Memory.Dump

/-!
# The thresholds of a bucket

An entry of the DIMM database does not say which `struct bucket_conf` its buckets belong
to: every caller of `bucket_age`, `__bucket_account` and `bucket_output` chooses one again.
This module lists the calls of `memory_error`, `dump_memory_errors` and `prefill_memdb` on
the buckets of the entries, with the thresholds they pass.

* `replay_accountOver`, `replay_accountMemdb`, `replay_dumpDimm`: the calls are all that
  happens to the buckets.
* `thresholds_iff`: the entry of a socket is handled with the thresholds of the sockets,
  and every other one with those of the DIMMs, in exactly the runs in which no dump prints
  the entry of a socket.
-/

namespace Mcelog.Daemon

open Mcelog.Bucket Mcelog.Common Mcelog.Machine Mcelog.Memory

/-! ## Calls on a bucket -/

/-- `dimms` and `sockets` (memdb.c:58-60) -/
inductive Thresholds
  | dimms
  | sockets
  deriving DecidableEq, Repr

def Thresholds.triggers (c : MemdbConf) : Thresholds → ErrTriggers
  | .dimms => c.dimms
  | .sockets => c.sockets

/-- The two buckets of an entry. -/
inductive ErrKind
  | ce
  | uc
  deriving DecidableEq, Repr

def ErrKind.errType (md : Memdimm) : ErrKind → ErrType
  | .ce => md.ce
  | .uc => md.uc

def ErrKind.bucketConf (t : ErrTriggers) : ErrKind → BucketConf
  | .ce => t.ceBucketConf
  | .uc => t.ucBucketConf

/-- A function of `leaky-bucket.c`. -/
inductive BucketCall
  /-- `bucket_age` -/
  | age (now : ℤ)
  /-- `__bucket_account` -/
  | account (inc : UInt32) (t : ℤ)
  /-- `bucket_output` -/
  | output
  deriving DecidableEq, Repr

/-- A call on a bucket of the entry `key`, with the `struct bucket_conf` of `thresholds`. -/
structure Use where
  key : DimmKey
  kind : ErrKind
  call : BucketCall
  thresholds : Thresholds
  deriving DecidableEq, Repr

/-- The calls of `account_over` (memdb.c:194-208) -/
def accountOverUses (c : MemdbConf) (t : Thresholds) (md : Memdimm) (m : Mce)
    (corrErrCnt : UInt32) : List Use :=
  if corrErrCnt ≠ 0 ∧ corrErrCnt - 1 > 0 then
    let account := BucketCall.account (corrErrCnt - 1) (timeT m)
    ⟨md.key, .ce, account, t⟩ ::
      if (bucketAccount (t.triggers c).ceBucketConf md.ce.bucket (corrErrCnt - 1) (timeT m) 1).2
      then [⟨md.key, .ce, .output, t⟩] else []
  else []

/-- The calls of `account_memdb` (memdb.c:210-229) -/
def accountMemdbUses (c : MemdbConf) (t : Thresholds) (md : Memdimm) (m : Mce) : List Use :=
  let kind := if isUc m then ErrKind.uc else .ce
  ⟨md.key, kind, .account 1 (timeT m), t⟩ ::
    if (bucketAccount (kind.bucketConf (t.triggers c)) (kind.errType md).bucket 1 (timeT m) 1).2
    then [⟨md.key, kind, .output, t⟩] else []

/-- The calls of `memory_error` (memdb.c:236-260) -/
def memoryErrorUses (c : MemdbConf) (db : Memdb) (e : MemoryCall) : List Use :=
  let socketUses (db : Memdb) : List Use :=
    let md := (getMemdimm db (socketKey e.socket) e.now).2
    let md' := (accountOver c.sockets md e.m e.corrErrCnt "sockdb_fallback").1
    accountOverUses c .sockets md e.m e.corrErrCnt ++ accountMemdbUses c .sockets md' e.m
  if e.recordlen < endofSocketid then []
  else
    (if c.memdbEnabled ∧ (e.ch ≠ -1 ∨ e.dimm ≠ -1) then
      accountMemdbUses c .dimms (getMemdimm db e.key e.now).2 e.m else []) ++
    if c.sockdbEnabled then
      socketUses (if c.memdbEnabled ∧ (e.ch ≠ -1 ∨ e.dimm ≠ -1) then
        (accountDimm c db e.now e.m e.ch e.dimm).1 else db)
    else []

/-- The calls of `dump_errtype` (memdb.c:275-293) -/
def dumpErrtypeUses (c : MemdbConf) (t : Thresholds) (kind : ErrKind) (md : Memdimm)
    (flags : PrintFlags) (now : ℤ) : List Use :=
  let bc := kind.bucketConf (t.triggers c)
  ⟨md.key, kind, .age now, t⟩ ::
    if bc.capacity ≠ 0 ∧
        ((bucketAge bc (kind.errType md).bucket now 1).count ≠ 0 ∨ flags.all) then
      [⟨md.key, kind, .output, t⟩] else []

/-- The calls of `dump_dimm` (memdb.c:310-334): whatever the entry is, it passes the
    thresholds of the DIMMs. -/
def dumpDimmUses (c : MemdbConf) (flags : PrintFlags) (now : ℤ) (md : Memdimm) : List Use :=
  if md.isDumped flags then
    dumpErrtypeUses c .dimms .ce md flags now ++ dumpErrtypeUses c .dimms .uc md flags now
  else []

/-! ## Replaying the calls -/

/-- What a call makes of the bucket. -/
def Use.apply (c : MemdbConf) (b : LeakyBucket) (u : Use) : LeakyBucket :=
  let bc := u.kind.bucketConf (u.thresholds.triggers c)
  match u.call with
  | .age now => bucketAge bc b now 1
  | .account inc t => (bucketAccount bc b inc t 1).1
  | .output => b

/-- What the calls make of the bucket of this kind. -/
def replay (c : MemdbConf) (kind : ErrKind) (uses : List Use) (b : LeakyBucket) : LeakyBucket :=
  (uses.filter fun u => u.kind = kind).foldl (Use.apply c) b

section Replay

variable (c : MemdbConf) (t : Thresholds) (kind : ErrKind) (md : Memdimm) (m : Mce)

theorem replay_append (uses uses' : List Use) (b : LeakyBucket) :
    replay c kind (uses ++ uses') b = replay c kind uses' (replay c kind uses b) := by
  rw [replay, List.filter_append, List.foldl_append, replay, replay]

theorem replay_accountOver (corrErrCnt : UInt32) (reporter : String) :
    (kind.errType (accountOver (t.triggers c) md m corrErrCnt reporter).1).bucket =
      replay c kind (accountOverUses c t md m corrErrCnt) (kind.errType md).bucket := by
  unfold accountOver accountOverUses
  by_cases hcnt : corrErrCnt ≠ 0 ∧ corrErrCnt - 1 > 0
  · rw [if_pos hcnt, if_pos hcnt]
    dsimp only
    cases kind with
    | ce => split_ifs <;> rfl
    | uc => split_ifs <;> rfl
  · rw [if_neg hcnt, if_neg hcnt]
    rfl

theorem replay_accountMemdb (reporter : String) :
    (kind.errType (accountMemdb (t.triggers c) md m reporter).1).bucket =
      replay c kind (accountMemdbUses c t md m) (kind.errType md).bucket := by
  unfold accountMemdb accountMemdbUses
  dsimp only
  cases isUc m with
  | true =>
    simp only [if_true]
    cases kind with
    | ce => split_ifs <;> rfl
    | uc => split_ifs <;> rfl
  | false =>
    simp only [Bool.false_eq_true, if_false]
    cases kind with
    | ce => split_ifs <;> rfl
    | uc => split_ifs <;> rfl

theorem replay_dumpErrtype (kind' : ErrKind) (flags : PrintFlags) (now : ℤ) (b : LeakyBucket) :
    replay c kind (dumpErrtypeUses c t kind' md flags now) b =
      if kind' = kind then bucketAge (kind'.bucketConf (t.triggers c)) b now 1 else b := by
  unfold dumpErrtypeUses replay
  dsimp only
  by_cases hkind : kind' = kind
  · split_ifs <;> simp [Use.apply, hkind]
  · split_ifs <;> simp [hkind]

theorem replay_dumpDimm (flags : PrintFlags) (now : ℤ) :
    (kind.errType (dumpDimm c flags now md).1).bucket =
      replay c kind (dumpDimmUses c flags now md) (kind.errType md).bucket := by
  unfold dumpDimm dumpDimmUses
  by_cases hdump : md.isDumped flags = true
  · rw [if_pos hdump, if_pos hdump, replay_append, replay_dumpErrtype, replay_dumpErrtype]
    cases kind with
    | ce => rfl
    | uc => rfl
  · rw [if_neg hdump, if_neg hdump]
    rfl

end Replay

/-! ## Runs -/

/-- An operation on the database. -/
inductive MemdbOp
  | error (e : MemoryCall)
  | dump (flags : PrintFlags) (now : ℤ)
  /-- one DIMM of `prefill_memdb` -/
  | prefill (now : ℤ) (d : DmiDimm)

/-- One operation, and its calls on the buckets. `prefill_memdb` initialises the buckets of
    new entries and calls nothing on them. -/
def memdbStep (c : MemdbConf) (db : Memdb) : MemdbOp → Memdb × List Use
  | .error e => ((memoryStep c db e).1, memoryErrorUses c db e)
  | .dump flags now =>
    ((dumpMemoryErrors c db flags now).1, db.sorted.flatMap (dumpDimmUses c flags now))
  | .prefill now d => (prefillDimm now db d, [])

/-- The thresholds of an entry: those of the sockets if it is the entry of a whole socket. -/
def thresholdsOf (k : DimmKey) : Thresholds :=
  if k = socketKey k.socketid then .sockets else .dimms

/-- Every call passes the thresholds of its entry. -/
def Consistent (uses : List Use) : Prop := ∀ u ∈ uses, u.thresholds = thresholdsOf u.key

/-- A dump does not print the entry of a whole socket. -/
def NoSocketDumped (db : Memdb) : MemdbOp → Prop
  | .dump flags _ => ∀ i, ∀ md ∈ db.mdDimms i, md.isDumped flags = true →
      md.key ≠ socketKey md.key.socketid
  | .error _ | .prefill _ _ => True

/-! ## The calls of one operation -/

theorem Consistent.append {uses uses' : List Use} (h : Consistent uses) (h' : Consistent uses') :
    Consistent (uses ++ uses') := by
  intro u hu
  obtain hu | hu := List.mem_append.mp hu
  · exact h u hu
  · exact h' u hu

section Calls

variable {c : MemdbConf} {t : Thresholds} {md : Memdimm}

theorem consistent_accountOver (h : thresholdsOf md.key = t) (m : Mce) (corrErrCnt : UInt32) :
    Consistent (accountOverUses c t md m corrErrCnt) := by
  unfold accountOverUses Consistent
  split_ifs <;> simp [h]

theorem consistent_accountMemdb (h : thresholdsOf md.key = t) (m : Mce) :
    Consistent (accountMemdbUses c t md m) := by
  unfold accountMemdbUses Consistent
  dsimp only
  split_ifs <;> simp [h]

theorem consistent_dumpErrtype (h : thresholdsOf md.key = t) (kind : ErrKind)
    (flags : PrintFlags) (now : ℤ) : Consistent (dumpErrtypeUses c t kind md flags now) := by
  unfold dumpErrtypeUses Consistent
  dsimp only
  split_ifs <;> simp [h]

/-- `memory_error` chooses the thresholds by the entry. -/
theorem consistent_memoryError (db : Memdb) (e : MemoryCall) :
    Consistent (memoryErrorUses c db e) := by
  have hsocket : ∀ s, thresholdsOf (socketKey s) = .sockets := fun s => if_pos rfl
  have hdimm : (e.ch ≠ -1 ∨ e.dimm ≠ -1) → thresholdsOf e.key = .dimms := by
    intro hd
    refine if_neg ?_
    rw [MemoryCall.key, socketKey, DimmKey.mk.injEq]
    rintro ⟨-, hch, hdimm⟩
    exact hd.elim (fun hne => hne hch) (fun hne => hne hdimm)
  unfold memoryErrorUses
  split_ifs with hlen hd hsock hsock
  · intro u hu
    cases hu
  · refine (consistent_accountMemdb ?_ _).append
      ((consistent_accountOver ?_ _ _).append (consistent_accountMemdb ?_ _))
    · rw [getMemdimm_key]
      exact hdimm hd.2
    · rw [getMemdimm_key]
      exact hsocket _
    · rw [(accountOver_spec _ _ _ _ _).1, getMemdimm_key]
      exact hsocket _
  · refine (consistent_accountMemdb ?_ _).append fun u hu => by cases hu
    rw [getMemdimm_key]
    exact hdimm hd.2
  · refine (consistent_accountOver ?_ _ _).append (consistent_accountMemdb ?_ _)
    · rw [getMemdimm_key]
      exact hsocket _
    · rw [(accountOver_spec _ _ _ _ _).1, getMemdimm_key]
      exact hsocket _
  · intro u hu
    cases hu

/-- The dump of an entry is consistent unless the entry is that of a socket. -/
theorem consistent_dumpDimm_iff (flags : PrintFlags) (now : ℤ) :
    Consistent (dumpDimmUses c flags now md) ↔
      (md.isDumped flags = true → md.key ≠ socketKey md.key.socketid) := by
  have hof : thresholdsOf md.key = .dimms ↔ md.key ≠ socketKey md.key.socketid := by
    unfold thresholdsOf
    split_ifs with hkey
    · exact iff_of_false (by decide) (not_not.mpr hkey)
    · exact iff_of_true rfl hkey
  unfold dumpDimmUses
  by_cases hdump : md.isDumped flags = true
  · rw [if_pos hdump, ← hof]
    constructor
    · intro h _
      exact (h ⟨md.key, .ce, .age now, .dimms⟩ (by simp [dumpErrtypeUses])).symm
    · intro h
      exact (consistent_dumpErrtype (h hdump) .ce _ _).append
        (consistent_dumpErrtype (h hdump) .uc _ _)
  · rw [if_neg hdump]
    exact iff_of_true (fun u hu => by cases hu) fun h => absurd h hdump

end Calls

/-- **The thresholds of a bucket.** In every run of `memory_error`, `dump_memory_errors` and
    `prefill_memdb` from any database: all calls on the buckets of an entry pass the
    thresholds of the sockets for the entry of a socket and those of the DIMMs for every
    other entry, if and only if no dump of the run prints the entry of a socket. -/
theorem thresholds_iff (c : MemdbConf) (db : Memdb) (ops : List MemdbOp) :
    (∀ uses ∈ runOut (memdbStep c) db ops, Consistent uses) ↔
      Meets (memdbStep c) NoSocketDumped db ops := by
  refine forall_runOut_iff_meets ?_ db ops
  intro db op
  cases op with
  | error e => exact iff_of_true (consistent_memoryError db e) trivial
  | prefill now d => exact iff_of_true (fun u hu => by cases hu) trivial
  | dump flags now =>
    have hmem : ∀ md, md ∈ db.sorted ↔ ∃ i, md ∈ db.mdDimms i := by
      intro md
      simp [Memdb.sorted]
    have hall : Consistent (db.sorted.flatMap (dumpDimmUses c flags now)) ↔
        ∀ md ∈ db.sorted, Consistent (dumpDimmUses c flags now md) := by
      simp only [Consistent, List.mem_flatMap]
      exact ⟨fun h md hmd u hu => h u ⟨md, hmd, hu⟩, fun h u ⟨md, hmd, hu⟩ => h md hmd u hu⟩
    show Consistent (db.sorted.flatMap (dumpDimmUses c flags now)) ↔ _
    rw [hall]
    constructor
    · exact fun h i md hmd => (consistent_dumpDimm_iff flags now).mp (h md ((hmem md).mpr ⟨i, hmd⟩))
    · intro h md hmd
      obtain ⟨i, hi⟩ := (hmem md).mp hmd
      exact (consistent_dumpDimm_iff flags now).mpr (h i md hi)

/-! ## The dump of a socket -/

/-- A day for the errors of a DIMM, a minute for those of a socket. -/
def dayAndMinute : MemdbConf :=
  let off : BucketConf := { capacity := 0, agetime := 0, tunit := 's' }
  { dimms := ⟨{ capacity := 10, agetime := 86400, tunit := 'd' }, off, "DIMM"⟩
    sockets := ⟨{ capacity := 100, agetime := 60, tunit := 'm' }, off, "Socket"⟩
    memdbEnabled := true, sockdbEnabled := true }

/-- A corrected error of an unknown DIMM of socket 0. -/
def unknownDimmError : MemoryCall :=
  { m := {}, ch := -1, dimm := -1, corrErrCnt := 1, recordlen := 128, now := 0 }

/-- The dump after the error ages and prints the bucket of the socket with the thresholds of
    the DIMMs: it says one error in a day. -/
theorem socket_dumped_as_dimm :
    ¬ ∀ uses ∈ runOut (memdbStep dayAndMinute) .empty [.error unknownDimmError, .dump {} 120],
      Consistent uses := by
  intro h
  let db := (memoryStep dayAndMinute .empty unknownDimmError).1
  let entry : Memdimm :=
    { key := socketKey 0, ce := ⟨⟨1, 0, 0⟩, 1⟩, uc := ⟨⟨0, 0, 0⟩, 0⟩ }
  have hentry : entry ∈ db.mdDimms (socketKey 0).hash := by decide
  have hsorted : entry ∈ db.sorted := by
    rw [Memdb.sorted, List.mem_mergeSort, List.mem_flatMap]
    exact ⟨_, List.mem_finRange _, hentry⟩
  have huse : (⟨socketKey 0, .ce, .output, .dimms⟩ : Use) ∈
      dumpDimmUses dayAndMinute {} 120 entry := by decide
  have hsame := h _ (List.mem_cons_of_mem _ List.mem_cons_self) _
    (List.mem_flatMap.mpr ⟨entry, hsorted, huse⟩)
  exact absurd hsame (by decide)

end Mcelog.Daemon
