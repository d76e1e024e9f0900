import Mcelog.Machine.Cputype
import Mcelog.Page.Store

/-!
# Accounting a corrected error to its page

Model of `account_page_error` and the functions it calls, on the page counter
store and the DIMM database. The wall clock and the answers of the kernel's
offline files are inputs of each call. Log lines (`Lprintf`) are left out.
-/

namespace Mcelog.Page

open Mcelog.Bucket Mcelog.Common Mcelog.Machine Mcelog.Memory

/-- `enum otype` (page.c:197-203). -/
inductive OType
  | off
  | account
  | soft
  | hard
  | softThenHard
  deriving DecidableEq, Repr

/-- `kernel_offline` (page.c:205-209). -/
def kernelOffline : OType → String
  | .soft | .softThenHard => "/sys/devices/system/memory/soft_offline_page"
  | .hard => "/sys/devices/system/memory/hard_offline_page"
  | .off | .account => ""

/-- The settings that `page_setup` reads. -/
structure PageConf where
  pageTriggerConf : BucketConf
  mpReplacementTriggerConf : BucketConf
  pageErrorPreSoftTrigger : Option String := none
  pageErrorPostSoftTrigger : Option String := none
  offlineRetryBackoffBase : UInt8 := 1
  offline : OType
  maxCorrErrCounters : ℤ
  deriving DecidableEq, Repr

/-- `roundup(max_corr_err_counters, N)` assigned to an `int` (page.c:468): the sum
    and the product are `unsigned long`. -/
def roundupCounters (n : Int32) : ℤ :=
  let sum : ℤ := (n.toInt + N - 1) % 2 ^ 64
  let up : ℤ := sum / N * N
  (up + 2 ^ 31) % 2 ^ 32 - 2 ^ 31

/-! ## What a call does outside -/

/-- One call of `counter_trigger` (page.c:254-291). -/
structure CounterRun where
  message : String
  threshold : String
  totalcount : UInt32
  lastevent : ℤ
  thresholdCount : UInt32
  conf : BucketConf
  deriving DecidableEq, Repr

/-- The effects of `account_page_error`. -/
inductive Effect
  | memdbTrigger (run : TriggerRun)
  | counterTrigger (run : CounterRun)
  /-- `sysfs_write(file, "%#llx", addr)` -/
  | sysfsWrite (file : String) (addr : UInt64)
  /-- `memory_offline(addr)` returned; `ok` if not negative -/
  | memoryOffline (addr : UInt64) (ok : Bool)
  deriving DecidableEq, Repr

/-- `counter_trigger` (page.c:254-291). -/
def counterTrigger (msg : String) (t : ℤ) (mr : MempageReplacement) (bc : BucketConf) :
    CounterRun :=
  { message := msg ++ ": " ++ bucketOutput bc mr.bucket
    threshold := bucketOutput bc mr.bucket
    totalcount := mr.count
    lastevent := t
    thresholdCount := mr.bucket.count + mr.bucket.excess
    conf := bc }

/-- `%llx` -/
def hexAddr (addr : UInt64) : String := String.ofList (Nat.toDigits 16 addr.toNat)

/-- One error record as `account_page_error` gets it. `now` is the wall clock,
    `sysfs` tells which offline files accept the write. -/
structure PageEvent where
  m : Mce
  channel : Int32
  dimm : Int32
  now : ℤ
  sysfs : OType → Bool

/-! ## Offlining -/

/-- `memory_offline` (page.c:227-238) with `do_memory_offline`. -/
def memoryOffline (offline : OType) (sysfs : OType → Bool) (addr : UInt64) :
    Bool × List Effect :=
  if offline = .softThenHard then
    if sysfs .soft then (true, [.sysfsWrite (kernelOffline .soft) addr])
    else (sysfs .hard,
      [.sysfsWrite (kernelOffline .soft) addr, .sysfsWrite (kernelOffline .hard) addr])
  else (sysfs offline, [.sysfsWrite (kernelOffline offline) addr])

/-- `offline_action` (page.c:240-251). -/
def offlineAction (c : PageConf) (sysfs : OType → Bool) (mp : Mempage) (addr : UInt64) :
    Mempage × List Effect :=
  if c.offline = .off ∨ c.offline = .account then (mp, [])
  else
    match memoryOffline c.offline sysfs addr with
    | (false, effects) =>
      ({ mp with
          offlined := .offlineFailed
          offlineThresholdMultiplier :=
            mp.offlineThresholdMultiplier * c.offlineRetryBackoffBase },
        effects ++ [.memoryOffline addr false])
    | (true, effects) => ({ mp with offlined := .offline }, effects ++ [.memoryOffline addr true])

/-! ## The call -/

/-- The tests before the page is looked up (page.c:301-321): tracking is on, the
    record is a corrected error with an address, and it is not the duplicate that
    APEI makes on SNB-EP. -/
def accountsPage (c : PageConf) (cputype : CpuType) (m : Mce) : Bool :=
  let cpu := if m.extcpu ≠ 0 then m.extcpu else m.cpu.toUInt32
  c.offline ≠ .off && (m.status &&& mciStatusAddrv != 0) && !isUc m &&
    !(cputype == .sandyBridgeEp && m.bank == 1 && cpu == 0)

/-- `addr &= ~((u64)PAGE_SIZE - 1)` -/
def pageOf (addr : UInt64) : UInt64 := addr &&& ~~~(4096 - 1)

/-- The counter of a new page while the limit is not reached (page.c:327-332). -/
def newCounter (rb : Rebalance Slot) (s : Store) (addr : UInt64) (now : ℤ) : Store × Slot :=
  let (s, sl) := mempageAlloc s
  let s := s.update sl fun mp => { mp with ce := { mp.ce with bucket := bucketInit now } }
  let s := mempageInsert rb s addr sl
  let s := mempageClusterLruListInsert s sl.cluster
  let s := s.update sl fun mp => { mp with offlineThresholdMultiplier := 1 }
  ({ s with corrErrCounters := s.corrErrCounters + 1 }, sl)

/-- The counter of a new page once the limit is reached (page.c:334-350). -/
def recycledCounter (rb : Rebalance Slot) (c : PageConf) (s : Store) (addr : UInt64)
    (t now : ℤ) : Option (Store × Slot × List Effect) :=
  (mempageReplace s).map fun (s, sl) =>
    let s := s.update sl fun mp => { mp with ce := { mp.ce with bucket := bucketInit now } }
    let s := mempageRbTreeUpdate rb s addr sl
    let s := mempageClusterLruListUpdate s sl.cluster
    let bc := c.mpReplacementTriggerConf
    let (bucket, overflow) := bucketAccount bc s.mpReplacement.bucket 1 t 1
    let mr : MempageReplacement := { bucket := bucket, count := s.mpReplacement.count + 1 }
    let msg := "Replacements of page correctable error counter exceed threshold " ++
      bucketOutput bc bucket
    let runs := if overflow then [Effect.counterTrigger (counterTrigger msg t mr bc)] else []
    ({ s with mpReplacement := mr }, sl, runs)

/-- The counter of the page, after the store has been changed to hold one
    (page.c:325-353). -/
def findCounter (rb : Rebalance Slot) (c : PageConf) (s : Store) (addr : UInt64) (t now : ℤ) :
    Option (Store × Slot × List Effect) :=
  match mempageLookup s addr with
  | some sl => some (mempageClusterLruListUpdate s sl.cluster, sl, [])
  | none =>
    if s.corrErrCounters < c.maxCorrErrCounters then
      let (s, sl) := newCounter rb s addr now
      some (s, sl, [])
    else recycledCounter rb c s addr t now

/-- What `account_page_error` leaves behind. -/
structure AccountResult where
  db : Memdb
  store : Store
  effects : List Effect
  /-- the page counter that the error was accounted to -/
  charged : Option Slot

/-- The threshold of the page is exceeded (page.c:356-407): the page trigger and
    the offline action. -/
def pageTriggered (c : PageConf) (db : Memdb) (s : Store) (sl : Slot) (addr : UInt64)
    (e : PageEvent) : Memdb × Store × List Effect :=
  let mp := s.mp sl
  if (c.offlineRetryBackoffBase = 2 ∧ mp.offlined = .offline) ∨
      (c.offlineRetryBackoffBase = 1 ∧ mp.offlined ≠ .online) then (db, s, [])
  else
    let t := timeT e.m
    let (db, md) := getMemdimm db ⟨e.m.socketid.toInt32, e.channel, e.dimm⟩ e.now
    let msg := "Corrected memory errors on page " ++ hexAddr addr ++ " exceed threshold " ++
      bucketOutput c.pageTriggerConf mp.ce.bucket
    let pageRun := memdbTrigger msg md t mp.ce c.pageTriggerConf [] false "page"
    let mp := { mp with triggered := true }
    let (mp', offlineEffects) := offlineAction c e.sysfs mp addr
    let s := s.update sl fun _ => mp'
    if c.offline = .soft ∨ c.offline = .softThenHard then
      let args := toString addr.toNat
      let softRun (which : String) (trigger : Option String) (et : ErrType) : TriggerRun :=
        memdbTrigger (which ++ " soft trigger run for page " ++ args) md t et
          { c.pageTriggerConf with trigger := trigger } [trigger.getD "", args] true
          ("page_" ++ which ++ "_soft")
      (db, s, [.memdbTrigger pageRun,
          .memdbTrigger (softRun "pre" c.pageErrorPreSoftTrigger mp.ce)] ++ offlineEffects ++
        [.memdbTrigger (softRun "post" c.pageErrorPostSoftTrigger mp'.ce)])
    else (db, s, .memdbTrigger pageRun :: offlineEffects)

/-- `account_page_error` (page.c:293-408). No result means that the code reads
    through a NULL pointer. -/
def accountPageError (rb : Rebalance Slot) (c : PageConf) (cputype : CpuType) (db : Memdb)
    (s : Store) (e : PageEvent) : Option AccountResult :=
  if accountsPage c cputype e.m then do
    let addr := pageOf e.m.addr
    let t := timeT e.m
    let (s, sl, runs) ← findCounter rb c s addr t e.now
    let mult := (s.mp sl).offlineThresholdMultiplier
    let (bucket, overflow) := bucketAccount c.pageTriggerConf (s.mp sl).ce.bucket 1 t mult
    let s := s.update sl fun mp => { mp with ce := { bucket := bucket, count := mp.ce.count + 1 } }
    if overflow then
      let (db, s, effects) := pageTriggered c db s sl addr e
      some { db := db, store := s, effects := runs ++ effects, charged := some sl }
    else some { db := db, store := s, effects := runs, charged := some sl }
  else some { db := db, store := s, effects := [], charged := none }

/-- The outputs of a call. -/
structure PageOut where
  charged : Option Slot := none
  effects : List Effect := []
  deriving DecidableEq, Repr

/-- One `account_page_error` in a run. A crashed daemon stays so. -/
def pageStep (rb : Rebalance Slot) (c : PageConf) (cputype : CpuType) :
    Option (Memdb × Store) → PageEvent → Option (Memdb × Store) × PageOut
  | none, _ => (none, {})
  | some (db, s), e =>
    match accountPageError rb c cputype db s e with
    | none => (none, {})
    | some r => (some (r.db, r.store), { charged := r.charged, effects := r.effects })

/-! ## What a call changes -/

section Spec

variable {rb : Rebalance Slot} {c : PageConf} {cputype : CpuType} {db : Memdb} {s s₁ : Store}
  {addr : UInt64} {t now : ℤ} {sl : Slot} {effects : List Effect} {e : PageEvent}
  {r : AccountResult}

/-- A new counter: where it is taken from, and what becomes of the list. -/
theorem newCounter_spec (rb : Rebalance Slot) (s : Store) (addr : UInt64) (now : ℤ) :
    (newCounter rb s addr now).2 = (mempageAlloc s).2 ∧
    ∃ root mp', mp' = { s.mp (mempageAlloc s).2 with
        offlineThresholdMultiplier := 1, addr := addr
        ce := { (s.mp (mempageAlloc s).2).ce with bucket := bucketInit now } } ∧
      (newCounter rb s addr now).1 =
        { (mempageAlloc s).1.update (mempageAlloc s).2 (fun _ => mp') with
          root := root
          lru := listAdd s.lru (.lru (mempageAlloc s).2.cluster) .head
          corrErrCounters := s.corrErrCounters + 1 } := by
  obtain ⟨clusters, mpUsed, mpCluster, hframe⟩ := mempageAlloc_frame s
  refine ⟨rfl, ?_⟩
  unfold newCounter
  obtain ⟨root, hroot⟩ := mempageInsert_frame rb ((mempageAlloc s).1.update (mempageAlloc s).2
    fun mp => { mp with ce := { mp.ce with bucket := bucketInit now } }) addr (mempageAlloc s).2
  dsimp only
  rw [hroot]
  refine ⟨root, _, rfl, ?_⟩
  simp [Store.update, mempageClusterLruListInsert, hframe]

/-- A recycled counter: its own entry starts again, the other ones stay, and its
    cluster moves to the front of the list. Only the replacement trigger is run. -/
theorem recycledCounter_spec
    (h : recycledCounter rb c s addr t now = some (s₁, sl, effects)) :
    (∃ mp', mp'.offlineThresholdMultiplier = 1 ∧ s₁.mp = (s.update sl fun _ => mp').mp) ∧
      s₁.lru = lruUpdate s.lru sl.cluster ∧
      ∀ effect ∈ effects, ∃ run, effect = Effect.counterTrigger run := by
  obtain ⟨⟨s₂, sl₂⟩, hrep, heq⟩ := Option.map_eq_some_iff.mp h
  obtain ⟨mpUsed, mpCluster, mp', hmult, hframe⟩ := mempageReplace_frame hrep
  obtain ⟨root, hroot⟩ := mempageRbTreeUpdate_frame rb (s₂.update sl₂
    fun mp => { mp with ce := { mp.ce with bucket := bucketInit now } }) addr sl₂
  dsimp only at heq
  rw [hroot] at heq
  simp only [Prod.mk.injEq] at heq
  obtain ⟨rfl, rfl, rfl⟩ := heq
  refine ⟨⟨{ mp' with ce := { mp'.ce with bucket := bucketInit now }, addr := addr }, hmult, ?_⟩,
    ?_, ?_⟩
  · simp [mempageClusterLruListUpdate, hframe, Store.update]
  · simp [mempageClusterLruListUpdate, hframe, Store.update]
  · intro effect hmem
    split_ifs at hmem
    · exact ⟨_, List.mem_singleton.mp hmem⟩
    · cases hmem

/-- A known page keeps its counter as it is; a new one gets a counter with
    multiplier 1, and no other counter changes. Only the replacement trigger is run. -/
theorem findCounter_mp (h : findCounter rb c s addr t now = some (s₁, sl, effects)) :
    ((mempageLookup s addr = some sl ∧ s₁.mp = s.mp) ∨
      (mempageLookup s addr = none ∧ (s₁.mp sl).offlineThresholdMultiplier = 1 ∧
        ∀ tl, tl ≠ sl → s₁.mp tl = s.mp tl)) ∧
    ∀ effect ∈ effects, ∃ run, effect = Effect.counterTrigger run := by
  unfold findCounter at h
  split at h
  · rename_i sl' hlook
    obtain ⟨rfl, rfl, rfl⟩ := by simpa using h
    exact ⟨Or.inl ⟨hlook, rfl⟩, fun _ hmem => nomatch hmem⟩
  · rename_i hlook
    split_ifs at h with hlt
    · obtain ⟨hsl, root, mp', hmp', hstore⟩ := newCounter_spec rb s addr now
      obtain ⟨rfl, rfl, rfl⟩ := by simpa using h
      obtain ⟨clusters, mpUsed, mpCluster, hframe⟩ := mempageAlloc_frame s
      refine ⟨Or.inr ⟨hlook, ?_, ?_⟩, fun _ hmem => nomatch hmem⟩
      · simp [hstore, hsl, Store.update, hmp']
      · intro tl htl
        rw [hsl] at htl
        simp [hstore, Store.update, htl, hframe]
    · obtain ⟨⟨mp', hmult, hmp⟩, -, heff⟩ := recycledCounter_spec h
      refine ⟨Or.inr ⟨hlook, ?_, ?_⟩, heff⟩
      · simp [hmp, hmult]
      · intro tl htl
        rw [hmp, update_mp_of_ne _ htl]

/-- The multiplier grows exactly when the attempt to offline the page fails. -/
theorem offlineAction_spec (c : PageConf) (sysfs : OType → Bool) (mp : Mempage) (addr : UInt64) :
    (offlineAction c sysfs mp addr).1.addr = mp.addr ∧
      (offlineAction c sysfs mp addr).1.offlineThresholdMultiplier =
        if Effect.memoryOffline addr false ∈ (offlineAction c sysfs mp addr).2 then
          mp.offlineThresholdMultiplier * c.offlineRetryBackoffBase
        else mp.offlineThresholdMultiplier := by
  have hwrites : ∀ a ok, Effect.memoryOffline a ok ∉ (memoryOffline c.offline sysfs addr).2 := by
    intro a ok
    unfold memoryOffline
    split_ifs <;> simp
  by_cases hoff : c.offline = .off ∨ c.offline = .account
  · rw [offlineAction, if_pos hoff]
    simp
  · rw [offlineAction, if_neg hoff]
    generalize memoryOffline c.offline sysfs addr = p at hwrites
    obtain ⟨ok, effects⟩ := p
    cases ok <;> simp [hwrites addr false]

/-- The page trigger keeps the address of the page and raises the multiplier
    exactly when an attempt to offline the page fails. -/
theorem pageTriggered_spec (c : PageConf) (db : Memdb) (s : Store) (sl : Slot) (addr : UInt64)
    (e : PageEvent) : ∃ mp' : Mempage,
      (pageTriggered c db s sl addr e).2.1 = s.update sl (fun _ => mp') ∧
      mp'.addr = (s.mp sl).addr ∧
      mp'.offlineThresholdMultiplier =
        if Effect.memoryOffline addr false ∈ (pageTriggered c db s sl addr e).2.2 then
          (s.mp sl).offlineThresholdMultiplier * c.offlineRetryBackoffBase
        else (s.mp sl).offlineThresholdMultiplier := by
  unfold pageTriggered
  dsimp only
  by_cases hdone : (c.offlineRetryBackoffBase = 2 ∧ (s.mp sl).offlined = .offline) ∨
      (c.offlineRetryBackoffBase = 1 ∧ (s.mp sl).offlined ≠ .online)
  · rw [if_pos hdone]
    exact ⟨s.mp sl, by simp [Store.update], rfl, by simp⟩
  · rw [if_neg hdone]
    obtain ⟨haddr, hmult⟩ :=
      offlineAction_spec c e.sysfs { s.mp sl with triggered := true } addr
    by_cases hsoft : c.offline = .soft ∨ c.offline = .softThenHard
    · rw [if_pos hsoft]
      refine ⟨_, rfl, haddr, ?_⟩
      simpa using hmult
    · rw [if_neg hsoft]
      refine ⟨_, rfl, haddr, ?_⟩
      simpa using hmult

/-- An error that is accounted charges the counter that `findCounter` returns: its
    address stays, its multiplier grows exactly when an attempt to offline the
    page fails, and nothing else in the store changes. -/
theorem accountPageError_spec (hacc : accountsPage c cputype e.m = true)
    (h : accountPageError rb c cputype db s e = some r) :
    ∃ s₁ sl runs mp',
      findCounter rb c s (pageOf e.m.addr) (timeT e.m) e.now = some (s₁, sl, runs) ∧
      r.charged = some sl ∧ r.store = s₁.update sl (fun _ => mp') ∧
      mp'.addr = (s₁.mp sl).addr ∧
      mp'.offlineThresholdMultiplier =
        if Effect.memoryOffline (pageOf e.m.addr) false ∈ r.effects then
          (s₁.mp sl).offlineThresholdMultiplier * c.offlineRetryBackoffBase
        else (s₁.mp sl).offlineThresholdMultiplier := by
  rw [accountPageError, if_pos hacc] at h
  obtain ⟨⟨s₁, sl, runs⟩, hfind, heq⟩ := Option.bind_eq_some_iff.mp h
  have hruns : Effect.memoryOffline (pageOf e.m.addr) false ∉ runs := by
    intro hmem
    obtain ⟨run, hrun⟩ := (findCounter_mp hfind).2 _ hmem
    cases hrun
  dsimp only at heq
  split_ifs at heq with hover
  · obtain rfl := Option.some.inj heq
    obtain ⟨mp', hstore, haddr, hmult⟩ := pageTriggered_spec c db
      (s₁.update sl fun mp =>
        { mp with ce := { bucket := (bucketAccount c.pageTriggerConf (s₁.mp sl).ce.bucket 1
            (timeT e.m) (s₁.mp sl).offlineThresholdMultiplier).1, count := mp.ce.count + 1 } })
      sl (pageOf e.m.addr) e
    refine ⟨s₁, sl, runs, mp', hfind, rfl, ?_, ?_, ?_⟩
    · rw [hstore]
      simp [Store.update]
    · simpa using haddr
    · simpa [hruns] using hmult
  · obtain rfl := Option.some.inj heq
    exact ⟨s₁, sl, runs, _, hfind, rfl, rfl, rfl, by simp [hruns]⟩

/-- An error that is not accounted changes nothing. -/
theorem accountPageError_of_not_accounts (hacc : accountsPage c cputype e.m = false) :
    accountPageError rb c cputype db s e =
      some { db := db, store := s, effects := [], charged := none } := by
  rw [accountPageError, if_neg (by simp [hacc])]

end Spec

end Mcelog.Page
