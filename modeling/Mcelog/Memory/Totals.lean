import Mcelog.Common.Run
import Mcelog.Memory.Memdb

/-!
# Error totals of the DIMM database

How `memory_error` changes the totals `ce.count` and `uc.count` of the entries.
One record changes up to two entries, its DIMM's and its socket's, and an entry
without errors may be created on the way. The totals are `unsigned`, so all sums
are modulo `2^32`.

* `ceTotal_memoryStep`, `ucTotal_memoryStep`: what one call adds to an entry.
* `totals_conserved`: after a run every entry has gained exactly the records
  reported for it.
-/

namespace Mcelog.Memory

open Mcelog.Bucket Mcelog.Common Mcelog.Machine

/-! ## Runs -/

/-- The arguments of a `memory_error` call, and the wall clock. -/
structure MemoryCall where
  m : Mce
  ch : Int32
  dimm : Int32
  corrErrCnt : UInt32
  recordlen : ℕ
  now : ℤ
  deriving DecidableEq, Repr

/-- One `memory_error` call in a run. -/
def memoryStep (c : MemdbConf) (db : Memdb) (e : MemoryCall) : Memdb × List TriggerRun :=
  memoryError c db e.now e.m e.ch e.dimm e.corrErrCnt e.recordlen

namespace MemoryCall

/-- The record is long enough to have a socket id. -/
def Covered (e : MemoryCall) : Prop := endofSocketid ≤ e.recordlen

instance (e : MemoryCall) : Decidable e.Covered :=
  inferInstanceAs (Decidable (endofSocketid ≤ e.recordlen))

/-- The DIMM or channel that the record is reported for. -/
def key (e : MemoryCall) : DimmKey := ⟨e.m.socketid.toInt32, e.ch, e.dimm⟩

/-- The socket of the record. -/
def socket (e : MemoryCall) : Int32 := e.m.socketid.toInt32

/-- The errors that the record says were lost: `max(corr_err_cnt, 1) - 1`. -/
def lost (e : MemoryCall) : ℕ := max e.corrErrCnt.toNat 1 - 1

end MemoryCall

/-- The entry of a whole socket. -/
def socketKey (socketid : Int32) : DimmKey := ⟨socketid, -1, -1⟩

/-- `ce.count` of an entry, 0 if there is none. -/
def Memdb.ceTotal (db : Memdb) (k : DimmKey) : UInt32 :=
  ((db.find k).map fun md => md.ce.count).getD 0

/-- `uc.count` of an entry, 0 if there is none. -/
def Memdb.ucTotal (db : Memdb) (k : DimmKey) : UInt32 :=
  ((db.find k).map fun md => md.uc.count).getD 0

/-! ## One entry -/

section Entry

variable {db : Memdb} {md : Memdimm} {k : DimmKey} {now : ℤ}

theorem getMemdimm_ce (db : Memdb) (k : DimmKey) (now : ℤ) :
    (getMemdimm db k now).2.ce.count = db.ceTotal k := by
  unfold getMemdimm Memdb.ceTotal
  cases hfind : db.find k with
  | some md => rfl
  | none => rfl

theorem getMemdimm_uc (db : Memdb) (k : DimmKey) (now : ℤ) :
    (getMemdimm db k now).2.uc.count = db.ucTotal k := by
  unfold getMemdimm Memdb.ucTotal
  cases hfind : db.find k with
  | some md => rfl
  | none => rfl

/-- An entry is looked up, changed and stored: the other ones stay. -/
theorem find_set_getMemdimm (hkey : md.key = k) (k' : DimmKey) :
    ((getMemdimm db k now).1.set md).find k' = if k' = k then some md else db.find k' := by
  have hfind : (getMemdimm db k now).1.find md.key = some (getMemdimm db k now).2 := by
    rw [find_getMemdimm, if_pos hkey]
  rw [find_set (by rw [hfind]; exact Option.some_ne_none _), hkey, find_getMemdimm]
  split_ifs
  · rfl
  · rfl

theorem ceTotal_set_getMemdimm {n : UInt32} (hkey : md.key = k)
    (hce : md.ce.count = (getMemdimm db k now).2.ce.count + n) (k' : DimmKey) :
    ((getMemdimm db k now).1.set md).ceTotal k' = db.ceTotal k' + if k' = k then n else 0 := by
  rw [Memdb.ceTotal, find_set_getMemdimm hkey]
  split_ifs with hk
  · rw [hk, ← getMemdimm_ce db k now, ← hce]
    rfl
  · rw [UInt32.add_zero]
    rfl

theorem ucTotal_set_getMemdimm {n : UInt32} (hkey : md.key = k)
    (huc : md.uc.count = (getMemdimm db k now).2.uc.count + n) (k' : DimmKey) :
    ((getMemdimm db k now).1.set md).ucTotal k' = db.ucTotal k' + if k' = k then n else 0 := by
  rw [Memdb.ucTotal, find_set_getMemdimm hkey]
  split_ifs with hk
  · rw [hk, ← getMemdimm_uc db k now, ← huc]
    rfl
  · rw [UInt32.add_zero]
    rfl

theorem accountMemdb_spec (t : ErrTriggers) (md : Memdimm) (m : Mce) (reporter : String) :
    (accountMemdb t md m reporter).1.key = md.key ∧
      (accountMemdb t md m reporter).1.ce.count = md.ce.count + (if isUc m then 0 else 1) ∧
      (accountMemdb t md m reporter).1.uc.count = md.uc.count + (if isUc m then 1 else 0) := by
  unfold accountMemdb
  cases h : isUc m with
  | true => simp
  | false => simp

theorem ofNat_lost (cnt : UInt32) :
    UInt32.ofNat (max cnt.toNat 1 - 1) = if cnt ≠ 0 ∧ cnt - 1 > 0 then cnt - 1 else 0 := by
  rw [← UInt32.toNat_inj]
  have hlt := cnt.toNat_lt
  by_cases hzero : cnt = 0
  · simp [hzero]
  · have hpos : 1 ≤ cnt.toNat := by
      rw [Nat.one_le_iff_ne_zero]
      exact fun h => hzero (UInt32.toNat_inj.mp h)
    have hsub : (cnt - 1).toNat = cnt.toNat - 1 :=
      UInt32.toNat_sub_of_le _ _ (by simpa [UInt32.le_iff_toNat_le] using hpos)
    rw [max_eq_left hpos, UInt32.toNat_ofNat_of_lt' (by simp only [UInt32.size]; omega)]
    split_ifs with h
    · exact hsub.symm
    · have hle : ¬ 0 < (cnt - 1).toNat := fun hgt => h ⟨hzero, hgt⟩
      rw [UInt32.toNat_zero]
      omega

theorem accountOver_spec (t : ErrTriggers) (md : Memdimm) (m : Mce) (cnt : UInt32)
    (reporter : String) : (accountOver t md m cnt reporter).1.key = md.key ∧
      (accountOver t md m cnt reporter).1.ce.count =
        md.ce.count + UInt32.ofNat (max cnt.toNat 1 - 1) ∧
      (accountOver t md m cnt reporter).1.uc = md.uc := by
  rw [ofNat_lost]
  unfold accountOver
  split_ifs with h
  · exact ⟨rfl, rfl, rfl⟩
  · exact ⟨rfl, (UInt32.add_zero _).symm, rfl⟩

end Entry

/-! ## One call -/

section Call

variable (c : MemdbConf) (db : Memdb) (now : ℤ) (m : Mce) (ch dimm : Int32) (cnt : UInt32)
  (k : DimmKey)

theorem totals_accountDimm :
    (accountDimm c db now m ch dimm).1.ceTotal k = db.ceTotal k +
      (if k = ⟨m.socketid.toInt32, ch, dimm⟩ then if isUc m then 0 else 1 else 0) ∧
    (accountDimm c db now m ch dimm).1.ucTotal k = db.ucTotal k +
      (if k = ⟨m.socketid.toInt32, ch, dimm⟩ then if isUc m then 1 else 0 else 0) := by
  obtain ⟨hkey, hce, huc⟩ := accountMemdb_spec c.dimms
    (getMemdimm db ⟨m.socketid.toInt32, ch, dimm⟩ now).2 m "memdb"
  have hkey' := hkey.trans (getMemdimm_key ..)
  exact ⟨ceTotal_set_getMemdimm hkey' hce k, ucTotal_set_getMemdimm hkey' huc k⟩

theorem totals_accountSocket :
    (accountSocket c db now m cnt).1.ceTotal k = db.ceTotal k +
      (if k = socketKey m.socketid.toInt32 then
        UInt32.ofNat (max cnt.toNat 1 - 1) + (if isUc m then 0 else 1) else 0) ∧
    (accountSocket c db now m cnt).1.ucTotal k = db.ucTotal k +
      (if k = socketKey m.socketid.toInt32 then if isUc m then 1 else 0 else 0) := by
  obtain ⟨hkey₁, hce₁, huc₁⟩ := accountOver_spec c.sockets
    (getMemdimm db ⟨m.socketid.toInt32, -1, -1⟩ now).2 m cnt "sockdb_fallback"
  obtain ⟨hkey₂, hce₂, huc₂⟩ := accountMemdb_spec c.sockets (accountOver c.sockets
    (getMemdimm db ⟨m.socketid.toInt32, -1, -1⟩ now).2 m cnt "sockdb_fallback").1 m
    "sockdb_memdb"
  have hkey := (hkey₂.trans hkey₁).trans (getMemdimm_key ..)
  rw [hce₁, UInt32.add_assoc] at hce₂
  rw [huc₁] at huc₂
  exact ⟨ceTotal_set_getMemdimm hkey hce₂ k, ucTotal_set_getMemdimm hkey huc₂ k⟩

end Call

/-- What a call adds to `ce.count` of the entry `k`, with both trackings on. -/
def MemoryCall.ceGain (e : MemoryCall) (k : DimmKey) : ℕ :=
  if ¬ e.Covered then 0
  else if k = socketKey k.socketid then
    if k.socketid = e.socket then e.lost + (if isUc e.m then 0 else 1) else 0
  else if k = e.key then if isUc e.m then 0 else 1
  else 0

/-- What a call adds to `uc.count` of the entry `k`, with both trackings on. -/
def MemoryCall.ucGain (e : MemoryCall) (k : DimmKey) : ℕ :=
  if ¬ e.Covered then 0
  else if k = socketKey k.socketid then
    if k.socketid = e.socket then if isUc e.m then 1 else 0 else 0
  else if k = e.key then if isUc e.m then 1 else 0
  else 0

section Step

variable {c : MemdbConf} {db : Memdb} {e : MemoryCall}

/-- A record without a socket id changes nothing. -/
theorem memoryStep_of_not_covered (h : ¬ e.Covered) : memoryStep c db e = (db, []) := by
  rw [memoryStep, memoryError, if_pos (not_le.mp h)]

/-- The part of a call that accounts to the DIMM or channel of the record; there is
    none if the record names only its socket. -/
def accountOwn (c : MemdbConf) (db : Memdb) (e : MemoryCall) : Memdb × List TriggerRun :=
  if e.key = socketKey e.socket then (db, []) else accountDimm c db e.now e.m e.ch e.dimm

theorem memoryStep_of_covered (hmemdb : c.memdbEnabled = true) (hsockdb : c.sockdbEnabled = true)
    (h : e.Covered) : (memoryStep c db e).1 =
      (accountSocket c (accountOwn c db e).1 e.now e.m e.corrErrCnt).1 := by
  have hkey : e.key = socketKey e.socket ↔ ¬ (e.ch ≠ -1 ∨ e.dimm ≠ -1) := by
    rw [MemoryCall.key, socketKey, MemoryCall.socket, DimmKey.mk.injEq, not_or, not_not, not_not]
    exact and_iff_right rfl
  have hlen : ¬ e.recordlen < endofSocketid := not_lt.mpr h
  rw [memoryStep, memoryError, accountOwn, if_neg hlen]
  by_cases hd : e.ch ≠ -1 ∨ e.dimm ≠ -1
  · have hand : c.memdbEnabled = true ∧ (e.ch ≠ -1 ∨ e.dimm ≠ -1) := ⟨hmemdb, hd⟩
    rw [if_neg (fun heq => hkey.mp heq hd), if_pos hand]
    generalize accountDimm c db e.now e.m e.ch e.dimm = p
    obtain ⟨db', runs⟩ := p
    simp only [hsockdb, if_true]
  · rw [if_pos (hkey.mpr hd), if_neg (fun hand => hd hand.2)]
    simp only [hsockdb, if_true]

/-- The entry of a DIMM or a channel before its socket is accounted. -/
theorem totals_accountOwn (db : Memdb) (e : MemoryCall) (k : DimmKey) :
    let own := k = e.key ∧ k ≠ socketKey k.socketid
    (accountOwn c db e).1.ceTotal k =
      db.ceTotal k + (if own then if isUc e.m then 0 else 1 else 0) ∧
    (accountOwn c db e).1.ucTotal k =
      db.ucTotal k + (if own then if isUc e.m then 1 else 0 else 0) := by
  dsimp only
  rw [accountOwn]
  by_cases hsocket : e.key = socketKey e.socket
  · have hown : ¬ (k = e.key ∧ k ≠ socketKey k.socketid) := by
      rintro ⟨rfl, hne⟩
      exact hne hsocket
    rw [if_pos hsocket, if_neg hown, if_neg hown]
    exact ⟨(UInt32.add_zero _).symm, (UInt32.add_zero _).symm⟩
  · obtain ⟨hce, huc⟩ := totals_accountDimm c db e.now e.m e.ch e.dimm k
    have hown : (k = e.key ∧ k ≠ socketKey k.socketid) ↔
        k = ⟨e.m.socketid.toInt32, e.ch, e.dimm⟩ := by
      refine ⟨And.left, fun hk => ⟨hk, fun heq => hsocket ?_⟩⟩
      rw [hk] at heq
      exact heq
    rw [if_neg hsocket, hce, huc]
    simp only [hown, and_self]

/-- **One call.** It adds to each entry what it reports for it. -/
theorem totals_memoryStep (hmemdb : c.memdbEnabled = true) (hsockdb : c.sockdbEnabled = true)
    (db : Memdb) (e : MemoryCall) (k : DimmKey) :
    (memoryStep c db e).1.ceTotal k = db.ceTotal k + UInt32.ofNat (e.ceGain k) ∧
    (memoryStep c db e).1.ucTotal k = db.ucTotal k + UInt32.ofNat (e.ucGain k) := by
  unfold MemoryCall.ceGain MemoryCall.ucGain
  by_cases h : e.Covered
  · obtain ⟨hce, huc⟩ := totals_accountOwn (c := c) db e k
    obtain ⟨hce', huc'⟩ := totals_accountSocket c (accountOwn c db e).1 e.now e.m e.corrErrCnt k
    rw [memoryStep_of_covered hmemdb hsockdb h, hce', huc', hce, huc, if_neg (not_not.mpr h),
      if_neg (not_not.mpr h)]
    by_cases hk : k = socketKey k.socketid
    · have hsame : k = socketKey e.m.socketid.toInt32 ↔ k.socketid = e.socket := by
        constructor
        · intro heq
          rw [heq]
          rfl
        · intro heq
          rw [hk, heq]
          rfl
      simp only [hk.symm, ne_eq, not_true_eq_false, and_false, if_false, UInt32.add_zero, if_true,
        hsame]
      by_cases hsocket : k.socketid = e.socket
      · simp only [hsocket, if_true, UInt32.ofNat_add, MemoryCall.lost]
        cases isUc e.m <;> exact ⟨rfl, rfl⟩
      · simp only [hsocket, if_false]
        exact ⟨rfl, rfl⟩
    · have hother : k ≠ socketKey e.m.socketid.toInt32 := by
        intro heq
        apply hk
        rw [heq]
        rfl
      simp only [hk, hother, ne_eq, not_false_eq_true, and_true, if_false, UInt32.add_zero]
      by_cases hown : k = e.key
      · simp only [hown, if_true]
        cases isUc e.m <;> exact ⟨rfl, rfl⟩
      · simp only [hown, if_false]
        exact ⟨rfl, rfl⟩
  · rw [memoryStep_of_not_covered h, if_pos h, if_pos h]
    exact ⟨(UInt32.add_zero _).symm, (UInt32.add_zero _).symm⟩

end Step

/-! ## Whole runs -/

section Runs

variable {c : MemdbConf}

theorem totals_run (hmemdb : c.memdbEnabled = true) (hsockdb : c.sockdbEnabled = true)
    (db : Memdb) (es : List MemoryCall) (k : DimmKey) :
    (runState (memoryStep c) db es).ceTotal k =
      db.ceTotal k + UInt32.ofNat (es.map fun e => e.ceGain k).sum ∧
    (runState (memoryStep c) db es).ucTotal k =
      db.ucTotal k + UInt32.ofNat (es.map fun e => e.ucGain k).sum := by
  induction es generalizing db with
  | nil => exact ⟨(UInt32.add_zero _).symm, (UInt32.add_zero _).symm⟩
  | cons e es ih =>
    obtain ⟨hce, huc⟩ := ih (memoryStep c db e).1
    obtain ⟨hce', huc'⟩ := totals_memoryStep hmemdb hsockdb db e k
    rw [runState_cons, hce, huc, hce', huc', List.map_cons, List.map_cons, List.sum_cons,
      List.sum_cons, UInt32.ofNat_add, UInt32.ofNat_add, UInt32.add_assoc, UInt32.add_assoc]
    exact ⟨rfl, rfl⟩

/-- The gains of the entry of a DIMM or a channel. -/
theorem sum_gain_dimm (es : List MemoryCall) {k : DimmKey} (hk : k ≠ socketKey k.socketid) :
    (es.map fun e => e.ceGain k).sum =
      (es.filter (·.Covered)).countP (fun e => e.key = k ∧ ¬ isUc e.m) ∧
    (es.map fun e => e.ucGain k).sum =
      (es.filter (·.Covered)).countP (fun e => e.key = k ∧ isUc e.m) := by
  induction es with
  | nil => exact ⟨rfl, rfl⟩
  | cons e es ih =>
    rw [List.map_cons, List.map_cons, List.sum_cons, List.sum_cons, ih.1, ih.2]
    by_cases hcov : e.Covered
    · have hown : k = e.key ↔ e.key = k := eq_comm
      rw [List.filter_cons_of_pos (by simpa using hcov), List.countP_cons, List.countP_cons,
        MemoryCall.ceGain, MemoryCall.ucGain, if_neg (not_not.mpr hcov),
        if_neg (not_not.mpr hcov), if_neg hk, if_neg hk]
      by_cases hkey : e.key = k <;> cases isUc e.m <;> simp [hown, hkey, Nat.add_comm]
    · rw [List.filter_cons_of_neg (by simpa using hcov), MemoryCall.ceGain, MemoryCall.ucGain,
        if_pos hcov, if_pos hcov, Nat.zero_add, Nat.zero_add]
      exact ⟨rfl, rfl⟩

/-- The gains of the entry of a socket. -/
theorem sum_gain_socket (es : List MemoryCall) {k : DimmKey} (hk : k = socketKey k.socketid) :
    (es.map fun e => e.ceGain k).sum =
      (es.filter (·.Covered)).countP (fun e => e.socket = k.socketid ∧ ¬ isUc e.m) +
        (((es.filter (·.Covered)).filter (·.socket = k.socketid)).map (·.lost)).sum ∧
    (es.map fun e => e.ucGain k).sum =
      (es.filter (·.Covered)).countP (fun e => e.socket = k.socketid ∧ isUc e.m) := by
  induction es with
  | nil => exact ⟨rfl, rfl⟩
  | cons e es ih =>
    rw [List.map_cons, List.map_cons, List.sum_cons, List.sum_cons, ih.1, ih.2]
    by_cases hcov : e.Covered
    · have hown : k.socketid = e.socket ↔ e.socket = k.socketid := eq_comm
      rw [List.filter_cons_of_pos (by simpa using hcov), List.countP_cons, List.countP_cons,
        MemoryCall.ceGain, MemoryCall.ucGain, if_neg (not_not.mpr hcov),
        if_neg (not_not.mpr hcov), if_pos hk, if_pos hk]
      by_cases hkey : e.socket = k.socketid
      · rw [List.filter_cons_of_pos (by simpa using hkey), List.map_cons, List.sum_cons]
        cases isUc e.m <;> simp [hkey] <;> omega
      · rw [List.filter_cons_of_neg (by simpa using hkey)]
        simp [hown, hkey]
    · rw [List.filter_cons_of_neg (by simpa using hcov), MemoryCall.ceGain, MemoryCall.ucGain,
        if_pos hcov, if_pos hcov, Nat.zero_add, Nat.zero_add]
      exact ⟨rfl, rfl⟩

/-- **Conservation.** With DIMM and socket tracking enabled, after every run of
    `memory_error` calls from every database, modulo `2^32`: the entry of a DIMM or
    channel has gained the corrected and the uncorrected records reported for
    exactly it; the entry of a socket has gained its uncorrected records, and its
    corrected records with all errors that its records say were lost. Records
    without a socket id count for nothing, and change nothing at all. -/
theorem totals_conserved (c : MemdbConf) (hmemdb : c.memdbEnabled = true)
    (hsockdb : c.sockdbEnabled = true) (db : Memdb) (es : List MemoryCall) (k : DimmKey) :
    let db' := runState (memoryStep c) db es
    let covered := es.filter (·.Covered)
    (k ≠ socketKey k.socketid →
      db'.ceTotal k = db.ceTotal k +
        .ofNat (covered.countP fun e => e.key = k ∧ ¬ isUc e.m) ∧
      db'.ucTotal k = db.ucTotal k +
        .ofNat (covered.countP fun e => e.key = k ∧ isUc e.m)) ∧
    (k = socketKey k.socketid →
      db'.ceTotal k = db.ceTotal k +
        .ofNat (covered.countP (fun e => e.socket = k.socketid ∧ ¬ isUc e.m) +
          ((covered.filter (·.socket = k.socketid)).map (·.lost)).sum) ∧
      db'.ucTotal k = db.ucTotal k +
        .ofNat (covered.countP fun e => e.socket = k.socketid ∧ isUc e.m)) ∧
    ∀ e : MemoryCall, ¬ e.Covered → memoryStep c db' e = (db', []) := by
  obtain ⟨hce, huc⟩ := totals_run hmemdb hsockdb db es k
  refine ⟨fun hk => ?_, fun hk => ?_, fun e he => memoryStep_of_not_covered he⟩
  · obtain ⟨hce', huc'⟩ := sum_gain_dimm es hk
    rw [hce, huc, hce', huc']
    exact ⟨rfl, rfl⟩
  · obtain ⟨hce', huc'⟩ := sum_gain_socket es hk
    rw [hce, huc, hce', huc']
    exact ⟨rfl, rfl⟩

/-- Both trackings on, without thresholds. -/
def trackBoth : MemdbConf :=
  let conf : BucketConf := { capacity := 0, agetime := 0, tunit := 's' }
  { dimms := ⟨conf, conf, "DIMM"⟩, sockets := ⟨conf, conf, "Socket"⟩, memdbEnabled := true
    sockdbEnabled := true }

/-- A corrected error of a DIMM that stands for three, and an uncorrected one of
    its socket. -/
def twoRecords : List MemoryCall :=
  [{ m := {}, ch := 1, dimm := 2, corrErrCnt := 3, recordlen := 128, now := 0 },
    { m := { status := mciStatusUc }, ch := -1, dimm := -1, corrErrCnt := 0, recordlen := 128,
      now := 0 }]

theorem totals_conserved_two_records :
    let db := runState (memoryStep trackBoth) .empty twoRecords
    db.ceTotal ⟨0, 1, 2⟩ = 1 ∧ db.ceTotal (socketKey 0) = 3 ∧ db.ucTotal (socketKey 0) = 1 := by
  have hdimm := (totals_conserved trackBoth rfl rfl .empty twoRecords ⟨0, 1, 2⟩).1 (by decide)
  have hsocket := (totals_conserved trackBoth rfl rfl .empty twoRecords (socketKey 0)).2.1
    (by decide)
  exact ⟨hdimm.1.trans (by decide), hsocket.1.trans (by decide), hsocket.2.trans (by decide)⟩

end Runs

end Mcelog.Memory
