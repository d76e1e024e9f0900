import Mcelog.Daemon.Setup
import Mcelog.Page.Lru
import Mcelog.Server.Dispatch

/-!
# The periods that the daemon divides by

`bucket_age` divides the time since the last aging by the period of the threshold. This
module follows the daemon from its start over records and client commands, and collects
the divisor of every division that is evaluated. `__bucket_account` leaves a bucket
without capacity alone, but the dump of a client ages every bucket it prints.

* `divisors_pos`: no period is zero, in every run of a configuration that sets the periods
  which the run can reach.
-/

namespace Mcelog.Daemon

open Mcelog.Bucket Mcelog.Common Mcelog.Filter Mcelog.Machine Mcelog.Memory Mcelog.Page
open Mcelog.Server

/-! ## Divisors of the bucket functions -/

/-- `bucket_age` divides when the bucket is at least as old as the period
    (leaky-bucket.c:33-35). -/
def ageDivisors (c : BucketConf) (b : LeakyBucket) (now : ℤ) : List UInt32 :=
  if now - b.tstamp ≥ c.agetime.toNat then [c.agetime] else []

/-- `__bucket_account` does not age a bucket without capacity (leaky-bucket.c:49-51). -/
def accountDivisors (c : BucketConf) (b : LeakyBucket) (t : ℤ) : List UInt32 :=
  if c.capacity = 0 then [] else ageDivisors c b t

/-! ## Divisors of the accounting -/

/-- Divisors of `account_over` (memdb.c:194-208) -/
def accountOverDivisors (t : ErrTriggers) (md : Memdimm) (m : Mce) (corrErrCnt : UInt32) :
    List UInt32 :=
  if corrErrCnt ≠ 0 ∧ corrErrCnt - 1 > 0 then
    accountDivisors t.ceBucketConf md.ce.bucket (timeT m)
  else []

/-- Divisors of `account_memdb` (memdb.c:210-229) -/
def accountMemdbDivisors (t : ErrTriggers) (md : Memdimm) (m : Mce) : List UInt32 :=
  if isUc m then accountDivisors t.ucBucketConf md.uc.bucket (timeT m)
  else accountDivisors t.ceBucketConf md.ce.bucket (timeT m)

/-- Divisors of `accountDimm` -/
def accountDimmDivisors (c : MemdbConf) (db : Memdb) (now : ℤ) (m : Mce) (ch dimm : Int32) :
    List UInt32 :=
  accountMemdbDivisors c.dimms (getMemdimm db ⟨m.socketid.toInt32, ch, dimm⟩ now).2 m

/-- Divisors of `accountSocket` -/
def accountSocketDivisors (c : MemdbConf) (db : Memdb) (now : ℤ) (m : Mce)
    (corrErrCnt : UInt32) : List UInt32 :=
  let md := (getMemdimm db ⟨m.socketid.toInt32, -1, -1⟩ now).2
  accountOverDivisors c.sockets md m corrErrCnt ++
    accountMemdbDivisors c.sockets (accountOver c.sockets md m corrErrCnt "sockdb_fallback").1 m

/-- Divisors of `memory_error` (memdb.c:236-260) -/
def memoryErrorDivisors (c : MemdbConf) (db : Memdb) (now : ℤ) (m : Mce) (ch dimm : Int32)
    (corrErrCnt : UInt32) (recordlen : ℕ) : List UInt32 :=
  if recordlen < endofSocketid then []
  else if c.memdbEnabled ∧ (ch ≠ -1 ∨ dimm ≠ -1) then
    accountDimmDivisors c db now m ch dimm ++
      if c.sockdbEnabled then
        accountSocketDivisors c (accountDimm c db now m ch dimm).1 now m corrErrCnt
      else []
  else if c.sockdbEnabled then accountSocketDivisors c db now m corrErrCnt
  else []

/-- Divisors of the replacement of a counter (page.c:325-353) -/
def findCounterDivisors (c : PageConf) (s : Store) (addr : UInt64) (t : ℤ) : List UInt32 :=
  if (mempageLookup s addr).isSome then []
  else if s.corrErrCounters < c.maxCorrErrCounters then []
  else if (mempageReplace s).isSome then
    accountDivisors c.mpReplacementTriggerConf s.mpReplacement.bucket t
  else []

/-- Divisors of the page counter that is charged (page.c:354-355) -/
def chargeDivisors (c : PageConf) (t : ℤ) : Option (Store × Slot × List Effect) → List UInt32
  | none => []
  | some (s, sl, _) => accountDivisors c.pageTriggerConf (s.mp sl).ce.bucket t

/-- Divisors of `account_page_error` (page.c:293-408) -/
def accountPageErrorDivisors (rb : Rebalance Slot) (c : PageConf) (cputype : CpuType) (s : Store)
    (e : PageEvent) : List UInt32 :=
  if accountsPage c cputype e.m then
    findCounterDivisors c s (pageOf e.m.addr) (timeT e.m) ++
      chargeDivisors c (timeT e.m) (findCounter rb c s (pageOf e.m.addr) (timeT e.m) e.now)
  else []

/-- Divisors of one `memory_error` and `account_page_error` pair -/
def accountCallDivisors (c : Conf) (r : Record) (m : Mce) (st : Accounts) (call : AccountCall) :
    List UInt32 :=
  match st with
  | none => []
  | some (db, s) =>
    memoryErrorDivisors c.memdb db r.now m call.channel call.dimm call.corrErrCnt r.recordlen ++
      accountPageErrorDivisors c.rb c.page r.cputype s
        { m := m, channel := call.channel, dimm := call.dimm, now := r.now, sysfs := r.sysfs }

/-- Divisors of the calls that a record makes, one after the other -/
def accountCallsDivisors (c : Conf) (r : Record) (m : Mce) :
    Accounts → List AccountCall → List UInt32
  | _, [] => []
  | st, call :: calls =>
    accountCallDivisors c r m st call ++
      accountCallsDivisors c r m (accountCall c r m (st, []) call).1 calls

/-- Divisors of one record (mcelog.c:1253-1277) -/
def recordDivisors (c : Conf) (db : Memdb) (s : Store) (r : Record) : List UInt32 :=
  let m := mcePrepare r
  accountCallsDivisors c r m (some (db, s)) (accountCalls c r.cputype db m r.recordlen)

/-! ## Divisors of a client's commands -/

/-- Divisors of `dump_dimm` (memdb.c:310-334): `dump_errtype` ages without a look at the
    capacity. -/
def dumpDimmDivisors (c : MemdbConf) (flags : PrintFlags) (now : ℤ) (md : Memdimm) :
    List UInt32 :=
  if md.isDumped flags then
    ageDivisors c.dimms.ceBucketConf md.ce.bucket now ++
      ageDivisors c.dimms.ucBucketConf md.uc.bucket now
  else []

/-- Divisors of `dump_memory_errors` (memdb.c:337-355) -/
def dumpDivisors (c : MemdbConf) (db : Memdb) (flags : PrintFlags) (now : ℤ) : List UInt32 :=
  db.sorted.flatMap (dumpDimmDivisors c flags now)

/-- Divisors of one line of `dispatch_commands` (server.c:116-126) -/
def dispatchLineDivisors (d : Server.Daemon) (line : List Char) : List UInt32 :=
  let s := line.dropWhile isSpace
  if "dump".toList <+: s then
    dumpDivisors d.memdbConf d.memdb (dumpWords {} (s.splitOn ' ')).1 d.now
  else []

/-- Divisors of the lines, one after the other -/
def dispatchLinesDivisors : Server.Daemon → List (List Char) → List UInt32
  | _, [] => []
  | d, line :: lines =>
    dispatchLineDivisors d line ++ dispatchLinesDivisors (dispatchLine d line).1 lines

/-! ## The daemon -/

/-- What reaches the daemon. -/
inductive Input
  | record (r : Record)
  /-- what a client sent, and the clock -/
  | commands (now : ℤ) (line : List Char)

/-- The daemon as the server sees it. -/
def serverView (c : Conf) (now : ℤ) (db : Memdb) (s : Store) : Server.Daemon :=
  { memdbConf := c.memdb, memdb := db, pageConf := c.page, store := s, now := now }

/-- The lines of a request (server.c:112-115) -/
def requestLines (line : List Char) : List (List Char) :=
  (line.takeWhile (· ≠ '\x00')).splitOn '\n'

/-- One record or request, and the divisors of the divisions that it evaluates. -/
def daemonStep (c : Conf) : Accounts → Input → Accounts × List UInt32
  | none, _ => (none, [])
  | some (db, s), .record r => ((processRecord c (some (db, s)) r).1, recordDivisors c db s r)
  | some (db, s), .commands now line =>
    let d := (dispatchCommands (serverView c now db s) line).1
    (some (d.memdb, d.store), dispatchLinesDivisors (serverView c now db s) (requestLines line))

/-! ## Periods -/

/-- A threshold with a capacity has a period. -/
def HasPeriod (bc : BucketConf) : Prop := bc.capacity = 0 ∨ 1 ≤ bc.agetime

/-- Records can make an entry of the DIMM database: DIMMs or sockets are tracked, or the page
    trigger looks for one. -/
def MakesEntries (c : Conf) : Prop :=
  c.filterBogus = true ∧ (c.memdb.memdbEnabled = true ∨ c.memdb.sockdbEnabled = true ∨
    (c.page.offline ≠ .off ∧ 0 < c.page.maxCorrErrCounters ∧ c.page.pageTriggerConf.capacity ≠ 0))

/-- The settings have every period that a run from the database `db` can divide by. -/
structure PeriodsSet (c : Conf) (db : Memdb) : Prop where
  /-- entries are printed with the thresholds of the DIMMs, whatever their capacity is -/
  dimms : (∃ i, db.mdDimms i ≠ []) ∨ MakesEntries c →
    1 ≤ c.memdb.dimms.ceBucketConf.agetime ∧ 1 ≤ c.memdb.dimms.ucBucketConf.agetime
  sockets : c.filterBogus = true → c.memdb.sockdbEnabled = true →
    HasPeriod c.memdb.sockets.ceBucketConf ∧ HasPeriod c.memdb.sockets.ucBucketConf
  pages : c.filterBogus = true → c.page.offline ≠ .off → 0 < c.page.maxCorrErrCounters →
    HasPeriod c.page.pageTriggerConf ∧ HasPeriod c.page.mpReplacementTriggerConf

/-- All divisors are periods. -/
def AllPos (ds : List UInt32) : Prop := ∀ agetime ∈ ds, 1 ≤ agetime

theorem allPos_nil : AllPos [] := fun _ h => absurd h List.not_mem_nil

theorem AllPos.append {ds ds' : List UInt32} (h : AllPos ds) (h' : AllPos ds') :
    AllPos (ds ++ ds') := by
  intro agetime hmem
  obtain hmem | hmem := List.mem_append.mp hmem
  · exact h _ hmem
  · exact h' _ hmem

theorem allPos_ageDivisors {bc : BucketConf} (h : 1 ≤ bc.agetime) (b : LeakyBucket) (now : ℤ) :
    AllPos (ageDivisors bc b now) := by
  unfold ageDivisors
  split_ifs
  · intro agetime hmem
    rw [List.mem_singleton.mp hmem]
    exact h
  · exact allPos_nil

theorem allPos_accountDivisors {bc : BucketConf} (h : HasPeriod bc) (b : LeakyBucket) (t : ℤ) :
    AllPos (accountDivisors bc b t) := by
  unfold accountDivisors
  split_ifs with hzero
  · exact allPos_nil
  · exact allPos_ageDivisors (h.resolve_left hzero) b t

/-! ## Records -/

section Accounting

variable {c : MemdbConf} {t : ErrTriggers} (hce : HasPeriod t.ceBucketConf)
  (huc : HasPeriod t.ucBucketConf)

include hce huc in
theorem allPos_accountMemdbDivisors (md : Memdimm) (m : Mce) :
    AllPos (accountMemdbDivisors t md m) := by
  unfold accountMemdbDivisors
  split_ifs
  · exact allPos_accountDivisors huc _ _
  · exact allPos_accountDivisors hce _ _

include hce in
theorem allPos_accountOverDivisors (md : Memdimm) (m : Mce) (corrErrCnt : UInt32) :
    AllPos (accountOverDivisors t md m corrErrCnt) := by
  unfold accountOverDivisors
  split_ifs
  · exact allPos_accountDivisors hce _ _
  · exact allPos_nil

theorem allPos_memoryErrorDivisors
    (hdimms : c.memdbEnabled = true →
      HasPeriod c.dimms.ceBucketConf ∧ HasPeriod c.dimms.ucBucketConf)
    (hsockets : c.sockdbEnabled = true →
      HasPeriod c.sockets.ceBucketConf ∧ HasPeriod c.sockets.ucBucketConf)
    (db : Memdb) (now : ℤ) (m : Mce) (ch dimm : Int32) (corrErrCnt : UInt32) (recordlen : ℕ) :
    AllPos (memoryErrorDivisors c db now m ch dimm corrErrCnt recordlen) := by
  have hsocket : c.sockdbEnabled = true → ∀ db,
      AllPos (accountSocketDivisors c db now m corrErrCnt) := by
    intro h db
    obtain ⟨hce, huc⟩ := hsockets h
    exact (allPos_accountOverDivisors hce _ _ _).append (allPos_accountMemdbDivisors hce huc _ _)
  unfold memoryErrorDivisors
  split_ifs with hlen hdimm hsock hsock
  · exact allPos_nil
  · obtain ⟨hce, huc⟩ := hdimms hdimm.1
    exact (allPos_accountMemdbDivisors hce huc _ _).append (hsocket hsock _)
  · obtain ⟨hce, huc⟩ := hdimms hdimm.1
    exact (allPos_accountMemdbDivisors hce huc _ _).append allPos_nil
  · exact hsocket hsock _
  · exact allPos_nil

end Accounting

/-- Without room for a counter, the first accounted error crashes before it is counted. -/
theorem findCounter_of_untouched {rb : Rebalance Slot} {c : PageConf} {s : Store}
    (hs : Untouched s) (hmax : ¬ 0 < c.maxCorrErrCounters) (addr : UInt64) (t now : ℤ) :
    findCounter rb c s addr t now = none := by
  cases h : findCounter rb c s addr t now with
  | none => rfl
  | some found =>
    obtain ⟨s₁, sl, effects⟩ := found
    exact absurd (hs.findCounter h).2.2 hmax

theorem accountsPage_offline {c : PageConf} {cputype : CpuType} {m : Mce}
    (h : accountsPage c cputype m = true) : c.offline ≠ .off := by
  rintro hoff
  simp [accountsPage, hoff] at h

theorem allPos_accountPageErrorDivisors {rb : Rebalance Slot} {c : PageConf} {s : Store}
    (hpages : c.offline ≠ .off → 0 < c.maxCorrErrCounters →
      HasPeriod c.pageTriggerConf ∧ HasPeriod c.mpReplacementTriggerConf)
    (hs : ¬ 0 < c.maxCorrErrCounters → Untouched s) (cputype : CpuType) (e : PageEvent) :
    AllPos (accountPageErrorDivisors rb c cputype s e) := by
  unfold accountPageErrorDivisors
  split_ifs with hacc
  · by_cases hmax : 0 < c.maxCorrErrCounters
    · obtain ⟨hpage, hreplace⟩ := hpages (accountsPage_offline hacc) hmax
      refine AllPos.append ?_ ?_
      · unfold findCounterDivisors
        split_ifs
        · exact allPos_nil
        · exact allPos_nil
        · exact allPos_accountDivisors hreplace _ _
        · exact allPos_nil
      · unfold chargeDivisors
        split
        · exact allPos_nil
        · exact allPos_accountDivisors hpage _ _
    · have huntouched := hs hmax
      have hreplace : mempageReplace s = none := by
        rw [mempageReplace, replaceCluster, huntouched.mpCluster]
        rfl
      rw [findCounter_of_untouched huntouched hmax]
      refine AllPos.append ?_ allPos_nil
      unfold findCounterDivisors
      rw [hreplace]
      split_ifs <;> first | exact allPos_nil | contradiction
  · exact allPos_nil

/-! ## The states that are reached -/

/-- What holds along a run from the database `db₀`: the database has entries only if it had
    some or records make them, and without room for a counter there is none. -/
structure Reached (c : Conf) (db₀ db : Memdb) (s : Store) : Prop where
  entries : ¬ ((∃ i, db₀.mdDimms i ≠ []) ∨ MakesEntries c) → ∀ i, db.mdDimms i = []
  untouched : ¬ 0 < c.page.maxCorrErrCounters → Untouched s

/-- A crashed daemon has no state. -/
def AccountsReached (c : Conf) (db₀ : Memdb) : Accounts → Prop
  | none => True
  | some (db, s) => Reached c db₀ db s

section Records

variable {c : Conf} {db₀ db : Memdb} {s : Store}

/-- A threshold without capacity is never exceeded, so that no entry is looked for. -/
theorem accountPageError_db_of_capacity {rb : Rebalance Slot} {c : PageConf} {cputype : CpuType}
    {e : PageEvent} {r : AccountResult} (hcapacity : c.pageTriggerConf.capacity = 0)
    (h : accountPageError rb c cputype db s e = some r) : r.db = db := by
  unfold accountPageError at h
  split_ifs at h with hacc
  · obtain ⟨⟨s₁, sl, runs⟩, -, heq⟩ := Option.bind_eq_some_iff.mp h
    simp only [bucketAccount, hcapacity, if_true] at heq
    obtain rfl := Option.some.inj heq
    rfl
  · obtain rfl := Option.some.inj h
    rfl

theorem Reached.memoryError (h : Reached c db₀ db s) (hfilter : c.filterBogus = true) (now : ℤ)
    (m : Mce) (ch dimm : Int32) (corrErrCnt : UInt32) (recordlen : ℕ) :
    Reached c db₀ (Memory.memoryError c.memdb db now m ch dimm corrErrCnt recordlen).1 s := by
  refine ⟨fun hnone => ?_, h.untouched⟩
  have hoff : ¬ MakesEntries c := fun hmakes => hnone (Or.inr hmakes)
  have hmemdb : c.memdb.memdbEnabled = false :=
    Bool.eq_false_iff.mpr fun hon => hoff ⟨hfilter, Or.inl hon⟩
  have hsockdb : c.memdb.sockdbEnabled = false :=
    Bool.eq_false_iff.mpr fun hon => hoff ⟨hfilter, Or.inr (Or.inl hon)⟩
  have hsame : (Memory.memoryError c.memdb db now m ch dimm corrErrCnt recordlen).1 = db := by
    simp [Memory.memoryError, hmemdb, hsockdb]
  rw [hsame]
  exact h.entries hnone

theorem Reached.accountPageError (h : Reached c db₀ db s) (hfilter : c.filterBogus = true)
    {rb : Rebalance Slot} {cputype : CpuType} {e : PageEvent} {r : AccountResult}
    (hr : Page.accountPageError rb c.page cputype db s e = some r) :
    Reached c db₀ r.db r.store := by
  cases hacc : accountsPage c.page cputype e.m with
  | false =>
    rw [accountPageError_of_not_accounts hacc] at hr
    obtain rfl := Option.some.inj hr
    exact h
  | true =>
    by_cases hmax : 0 < c.page.maxCorrErrCounters
    · refine ⟨fun hnone => ?_, absurd hmax⟩
      have hcapacity : c.page.pageTriggerConf.capacity = 0 := by
        by_contra hne
        exact hnone (Or.inr ⟨hfilter,
          Or.inr (Or.inr ⟨accountsPage_offline hacc, hmax, hne⟩)⟩)
      rw [accountPageError_db_of_capacity hcapacity hr]
      exact h.entries hnone
    · -- The counter is not found, so there is no result.
      obtain ⟨s₁, sl, runs, mp', hfind, -⟩ := accountPageError_spec hacc hr
      rw [findCounter_of_untouched (h.untouched hmax) hmax] at hfind
      cases hfind

theorem AccountsReached.accountCall {st : Accounts} (h : AccountsReached c db₀ st)
    (hfilter : c.filterBogus = true) (r : Record) (m : Mce) (effects : List Effect)
    (call : AccountCall) :
    AccountsReached c db₀ (Filter.accountCall c r m (st, effects) call).1 := by
  cases st with
  | none => exact trivial
  | some state =>
    obtain ⟨db, s⟩ := state
    have hmem := Reached.memoryError h hfilter r.now m call.channel call.dimm call.corrErrCnt
      r.recordlen
    unfold Filter.accountCall
    dsimp only
    split
    · exact trivial
    · rename_i res hres
      exact hmem.accountPageError hfilter hres

theorem AccountsReached.foldl {st : Accounts} (h : AccountsReached c db₀ st)
    (hfilter : c.filterBogus = true) (r : Record) (m : Mce) (effects : List Effect)
    (calls : List AccountCall) :
    AccountsReached c db₀ (calls.foldl (Filter.accountCall c r m) (st, effects)).1 := by
  induction calls generalizing st effects with
  | nil => exact h
  | cons call calls ih =>
    rw [List.foldl_cons]
    exact ih (h.accountCall hfilter r m effects call) _

variable (hp : PeriodsSet c db₀)

include hp

theorem allPos_accountCallsDivisors {st : Accounts} (h : AccountsReached c db₀ st)
    (hfilter : c.filterBogus = true) (r : Record) (m : Mce) (calls : List AccountCall) :
    AllPos (accountCallsDivisors c r m st calls) := by
  induction calls generalizing st with
  | nil => exact allPos_nil
  | cons call calls ih =>
    refine AllPos.append ?_ (ih (h.accountCall hfilter r m [] call))
    cases st with
    | none => exact allPos_nil
    | some state =>
      obtain ⟨db, s⟩ := state
      have hdimms : c.memdb.memdbEnabled = true →
          HasPeriod c.memdb.dimms.ceBucketConf ∧ HasPeriod c.memdb.dimms.ucBucketConf := by
        intro hon
        obtain ⟨hce, huc⟩ := hp.dimms (Or.inr ⟨hfilter, Or.inl hon⟩)
        exact ⟨Or.inr hce, Or.inr huc⟩
      exact (allPos_memoryErrorDivisors hdimms (hp.sockets hfilter) _ _ _ _ _ _ _).append
        (allPos_accountPageErrorDivisors (hp.pages hfilter) h.untouched _ _)

end Records

/-! ## Client commands -/

section Commands

variable {c : Conf} {db₀ db : Memdb} {s : Store}

/-- A dump keeps the entries where they are. -/
theorem Reached.dumpMemoryErrors (h : Reached c db₀ db s) (flags : PrintFlags) (now : ℤ) :
    Reached c db₀ (Memory.dumpMemoryErrors c.memdb db flags now).1 s := by
  refine ⟨fun hnone i => ?_, h.untouched⟩
  show (db.mdDimms i).map _ = []
  rw [h.entries hnone i]
  rfl

/-- A line changes at most the database, and keeps what is known about it. -/
theorem Reached.dispatchLine (h : Reached c db₀ db s) (now : ℤ) (line : List Char) :
    ∃ db', (Server.dispatchLine (serverView c now db s) line).1 = serverView c now db' s ∧
      Reached c db₀ db' s := by
  unfold Server.dispatchLine
  dsimp only
  split_ifs
  · exact ⟨_, rfl, h.dumpMemoryErrors _ _⟩
  all_goals exact ⟨db, rfl, h⟩

theorem Reached.dispatchLines (h : Reached c db₀ db s) (now : ℤ) (lines : List (List Char)) :
    ∃ db', (Server.dispatchLines (serverView c now db s) lines).1 = serverView c now db' s ∧
      Reached c db₀ db' s := by
  induction lines generalizing db with
  | nil => exact ⟨db, rfl, h⟩
  | cons line lines ih =>
    obtain ⟨db₁, hline, h₁⟩ := h.dispatchLine now line
    obtain ⟨db', hlines, h'⟩ := ih h₁
    refine ⟨db', ?_, h'⟩
    rw [← hlines, ← hline]
    rfl

variable (hp : PeriodsSet c db₀)

include hp

/-- The entries that are printed need the periods of the DIMM thresholds. -/
theorem allPos_dumpDivisors (h : Reached c db₀ db s) (flags : PrintFlags) (now : ℤ) :
    AllPos (dumpDivisors c.memdb db flags now) := by
  intro agetime hmem
  obtain ⟨md, hmd, hmem⟩ := List.mem_flatMap.mp hmem
  have hentry : (∃ i, db₀.mdDimms i ≠ []) ∨ MakesEntries c := by
    by_contra hnone
    rw [Memdb.sorted, List.mem_mergeSort, List.mem_flatMap] at hmd
    obtain ⟨i, -, hi⟩ := hmd
    rw [h.entries hnone i] at hi
    exact absurd hi List.not_mem_nil
  obtain ⟨hce, huc⟩ := hp.dimms hentry
  unfold dumpDimmDivisors at hmem
  split_ifs at hmem
  · exact (allPos_ageDivisors hce _ _).append (allPos_ageDivisors huc _ _) _ hmem
  · exact absurd hmem List.not_mem_nil

theorem allPos_dispatchLinesDivisors (h : Reached c db₀ db s) (now : ℤ)
    (lines : List (List Char)) :
    AllPos (dispatchLinesDivisors (serverView c now db s) lines) := by
  induction lines generalizing db with
  | nil => exact allPos_nil
  | cons line lines ih =>
    obtain ⟨db', hline, h'⟩ := h.dispatchLine now line
    refine AllPos.append ?_ ?_
    · unfold dispatchLineDivisors
      dsimp only
      split_ifs
      · exact allPos_dumpDivisors hp h _ _
      · exact allPos_nil
    · rw [hline]
      exact ih h'

end Commands

/-! ## Runs -/

section Run

variable {c : Conf} {db₀ : Memdb} {st : Accounts}

theorem AccountsReached.daemonStep (h : AccountsReached c db₀ st) (input : Input) :
    AccountsReached c db₀ (Daemon.daemonStep c st input).1 := by
  cases st with
  | none => exact trivial
  | some state =>
    obtain ⟨db, s⟩ := state
    cases input with
    | record r =>
      show AccountsReached c db₀ ((accountCalls c r.cputype db (mcePrepare r) r.recordlen).foldl
        (Filter.accountCall c r (mcePrepare r)) (some (db, s), [])).1
      cases hfilter : c.filterBogus with
      | false =>
        rw [accountCalls, if_pos (by simp [hfilter])]
        exact h
      | true => exact AccountsReached.foldl h hfilter r (mcePrepare r) [] _
    | commands now line =>
      obtain ⟨db', hd, h'⟩ := Reached.dispatchLines h now (requestLines line)
      have hmemdb : (dispatchCommands (serverView c now db s) line).1.memdb = db' :=
        congrArg Server.Daemon.memdb hd
      have hstore : (dispatchCommands (serverView c now db s) line).1.store = s :=
        congrArg Server.Daemon.store hd
      show Reached c db₀ _ _
      rw [hmemdb, hstore]
      exact h'

theorem allPos_daemonStep (hp : PeriodsSet c db₀) (h : AccountsReached c db₀ st) (input : Input) :
    AllPos (Daemon.daemonStep c st input).2 := by
  cases st with
  | none => exact allPos_nil
  | some state =>
    obtain ⟨db, s⟩ := state
    cases input with
    | record r =>
      show AllPos (accountCallsDivisors c r (mcePrepare r) (some (db, s))
        (accountCalls c r.cputype db (mcePrepare r) r.recordlen))
      cases hfilter : c.filterBogus with
      | false =>
        rw [accountCalls, if_pos (by simp [hfilter])]
        exact allPos_nil
      | true => exact allPos_accountCallsDivisors hp h hfilter r (mcePrepare r) _
    | commands now line => exact allPos_dispatchLinesDivisors hp h now (requestLines line)

end Run

/-- **No division by a zero period.** From every accepted configuration whose thresholds have
    the periods that a run can reach, in every run of records and client commands, each
    division of `bucket_age` that is evaluated has a period of at least 1. -/
theorem divisors_pos {env : Environment} {cfg : Config.Config} {c : Conf} {db : Memdb} {s : Store}
    (hstart : start env cfg = some (c, db, s)) (hperiods : PeriodsSet c db)
    (inputs : List Input) :
    ∀ ds ∈ runOut (daemonStep c) (some (db, s)) inputs, ∀ agetime ∈ ds, 1 ≤ agetime := by
  have hs : s = Store.setup env.now := by
    obtain ⟨memdb, -, hstart⟩ := Option.bind_eq_some_iff.mp hstart
    obtain ⟨db', -, hstart⟩ := Option.bind_eq_some_iff.mp hstart
    obtain ⟨page, -, hstart⟩ := Option.bind_eq_some_iff.mp hstart
    simp only [Option.some.injEq, Prod.mk.injEq] at hstart
    exact hstart.2.2.symm
  have hreached : AccountsReached c db (some (db, s)) := by
    refine ⟨fun hnone i => ?_, fun _ => ?_⟩
    · by_contra hne
      exact hnone (Or.inl ⟨i, hne⟩)
    · rw [hs]
      exact untouched_setup env.now
  have hstep : ∀ st input, AccountsReached c db st →
      AccountsReached c db (daemonStep c st input).1 := fun st input h => h.daemonStep input
  have hout : ∀ st input, AccountsReached c db st → AllPos (daemonStep c st input).2 :=
    fun st input h => allPos_daemonStep hperiods h input
  exact runOut_invariant hstep hout hreached inputs

/-! ## Two configurations -/

/-- A daemon on a CPU that reports memory errors, without DMI. -/
def sampleEnvironment : Environment :=
  { memoryErrorSupport := true, triggerCheck := fun _ => true, sysfsAvailable := fun _ => true,
    maxCorrErrCounters := 4158, dmiDimms := none, now := 0, filterBogus := true,
    filterMemoryErrors := false, imcLog := false, rb := Rebalance.plain Slot }

/-- A corrected read error on channel 0 of socket 0. -/
def readError : Input :=
  .record { m := { status := 0x90, time := 1000 }, recordlen := 120, cputype := .zhaoxin,
            now := 1000, sysfs := fun _ => false }

/-- The same error, a day after its DIMM was first seen. -/
def lateError : Input :=
  .record { m := { status := 0x90, time := 87400 }, recordlen := 120, cputype := .zhaoxin,
            now := 1000, sysfs := fun _ => false }

/-- A client's `dump`. -/
def dumpRequest : Input := .commands 1000 "dump\n".toList

/-- A config file with the two thresholds of the DIMMs. -/
def dimmFile : List Char :=
  "[dimm]\nce-error-threshold = 10 / 24h\nuc-error-threshold = 1 / 24h\n".toList

/-- The store of the file. -/
def dimmConfig : Config.Config := ((Config.parseConfigFile dimmFile).toOption).getD {}

theorem start_dimmConfig : (start sampleEnvironment dimmConfig).isSome = true := by
  decide +kernel

/-- The daemon that it configures. -/
def dimmDaemon : Conf × Memdb × Store := (start sampleEnvironment dimmConfig).get start_dimmConfig

/-- The periods of the DIMMs are set, and nothing else divides. -/
theorem dimmDaemon_periods :
    1 ≤ dimmDaemon.1.memdb.dimms.ceBucketConf.agetime ∧
      1 ≤ dimmDaemon.1.memdb.dimms.ucBucketConf.agetime ∧
      dimmDaemon.1.memdb.sockets.ceBucketConf.capacity = 0 ∧
      dimmDaemon.1.memdb.sockets.ucBucketConf.capacity = 0 ∧
      dimmDaemon.1.page.offline = .off := by
  decide +kernel

/-- With both thresholds of the DIMMs, an error a day later is divided by the day, and no
    division of the run has a zero period. -/
theorem divisors_pos_dimmConfig :
    86400 ∈ (daemonStep dimmDaemon.1 (some dimmDaemon.2) lateError).2 ∧
      ∀ ds ∈ runOut (daemonStep dimmDaemon.1) (some (dimmDaemon.2.1, dimmDaemon.2.2))
        [lateError, dumpRequest], ∀ agetime ∈ ds, 1 ≤ agetime := by
  have hstart : start sampleEnvironment dimmConfig =
      some (dimmDaemon.1, dimmDaemon.2.1, dimmDaemon.2.2) := by
    rw [Prod.mk.eta, dimmDaemon, Option.some_get]
  obtain ⟨hceDimm, hucDimm, hceSocket, hucSocket, hoff⟩ := dimmDaemon_periods
  have hperiods : PeriodsSet dimmDaemon.1 dimmDaemon.2.1 :=
    { dimms := fun _ => ⟨hceDimm, hucDimm⟩
      sockets := fun _ _ => ⟨Or.inl hceSocket, Or.inl hucSocket⟩
      pages := fun _ hon => absurd hoff hon }
  exact ⟨by decide +kernel, divisors_pos hstart hperiods [lateError, dumpRequest]⟩

/-- The settings of a daemon without a config file. -/
def unconfigured : Conf :=
  let triggers (type : String) : ErrTriggers :=
    { ceBucketConf := Config.zeroConf, ucBucketConf := Config.zeroConf, type := type }
  { filterBogus := true, filterMemoryErrors := false, imcLog := false
    memdb := { dimms := triggers "DIMM", sockets := triggers "Socket", memdbEnabled := true,
               sockdbEnabled := true }
    page := { pageTriggerConf := Config.zeroConf, mpReplacementTriggerConf := Config.zeroConf,
              offline := .off, maxCorrErrCounters := 4158 }
    rb := Rebalance.plain Slot }

/-- The database after the error: an entry for the channel and one for the socket. -/
def errorDb : Memdb :=
  (memoryError unconfigured.memdb .empty 1000 { status := 0x90, time := 1000 } 0 (-1) 0 120).1

/-- An empty file leaves the thresholds zero, and the first dump after an error divides by
    their period. -/
theorem dump_divides_by_zero :
    start sampleEnvironment {} = some (unconfigured, .empty, Store.setup 0) ∧
      ∃ ds ∈ runOut (daemonStep unconfigured) (some (.empty, Store.setup 0))
        [readError, dumpRequest], 0 ∈ ds := by
  refine ⟨?_, ?_⟩
  · have hunset : ∀ header name, Config.configString {} header name = none := by
      intro header name
      have hnone : ∀ header, Config.findOption {} header name = none := fun _ => rfl
      rw [Config.configString, hnone]
      dsimp only
      split_ifs
      · exact hnone _
      · rfl
    have hcounters : roundupCounters 4158 = 4158 := by decide
    simp [start, memdbConfig, prefillMemdb, pageSetup, softTrigger, Config.configTrigger,
      Config.configThreshold, Config.configProgram, Config.configBool, Config.configChoice, hunset,
      sampleEnvironment, hcounters, unconfigured, Config.zeroConf]
  · have hstate : (daemonStep unconfigured (some (.empty, Store.setup 0)) readError).1 =
        some (errorDb, Store.setup 0) := rfl
    have hdump : (daemonStep unconfigured (some (errorDb, Store.setup 0)) dumpRequest).2 =
        dumpDivisors unconfigured.memdb errorDb {} 1000 ++ [] := rfl
    have hentry : ∃ md ∈ errorDb.mdDimms (DimmKey.hash ⟨0, 0, -1⟩),
        0 ∈ dumpDimmDivisors unconfigured.memdb {} 1000 md := by
      decide
    obtain ⟨md, hmd, hzero⟩ := hentry
    refine ⟨_, List.mem_cons_of_mem _ (List.mem_singleton_self _), ?_⟩
    rw [hstate, hdump, List.append_nil, dumpDivisors, List.mem_flatMap]
    refine ⟨md, ?_, hzero⟩
    rw [Memdb.sorted, List.mem_mergeSort, List.mem_flatMap]
    exact ⟨_, List.mem_finRange _, hmd⟩

end Mcelog.Daemon
