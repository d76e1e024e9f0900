import Mcelog.Common.Run
import Mcelog.Decode.Mca
import Mcelog.Memory.Location
import Mcelog.Page.Account

/-!
# The record filter

Model of `mce_filter` and the record loop of `process`. Memory errors are
accounted inside the filter: `intel_memory_error` and `zhaoxin_memory_error`
classify the status, and call `memory_error` and `account_page_error`.
-/

namespace Mcelog.Filter

open Mcelog.Bucket Mcelog.Common Mcelog.Decode Mcelog.Machine Mcelog.Memory Mcelog.Page

/-- The settings of the daemon that the filter and the accounting read. -/
structure Conf where
  filterBogus : Bool
  filterMemoryErrors : Bool
  imcLog : Bool
  memdb : MemdbConf
  page : PageConf
  /-- `rb_insert_color` and `rb_erase` -/
  rb : Rebalance Slot

/-- One `memory_error` call with the `account_page_error` call after it. -/
structure AccountCall where
  channel : Int32
  dimm : Int32
  corrErrCnt : UInt32
  deriving DecidableEq, Repr

/-! ## Which errors are accounted -/

/-- `(mca & 0xf) == 0xf ? -1 : (int)(mca & 0xf)` -/
def channelField (mca : UInt32) : Int32 :=
  if mca &&& 0xf = 0xf then -1 else (mca &&& 0xf).toInt32

/-- The corrected error count of the status, if the CPU reports one
    (intel.c:136-137, zhaoxin.c:82-83). -/
def corrErrCnt (m : Mce) (recordlen : ℕ) : UInt32 :=
  if recordlen > offsetofMcgcap ∧ m.mcgcap &&& mcgCmciP ≠ 0 then
    (extract m.status 38 52).toUInt32
  else 0

/-- The `switch (cputype)` of `intel_memory_error` (intel.c:98-134). -/
def intelLocate (imcLog : Bool) (cputype : CpuType) (db : Memdb) (m : Mce) (loc : Located) :
    Located :=
  match cputype with
  | .nehalem => nehalemMemerrMisc m loc
  | .sandyBridgeEp => sandyBridgeEpMemerrMisc imcLog db m loc
  | .ivyBridgeEpex => ivyBridgeEpMemerrMisc imcLog db m loc
  | .haswellEpex | .broadwellEpex => haswellMemerrMisc m loc
  | .skylakeXeon => skylakeMemerrMisc m loc
  | .icelakeXeon | .icelakeDe | .tremontD => i10nmMemerrMisc m loc
  | .sapphirerapids | .emeraldrapids => sapphireMemerrMisc m loc
  | .graniterapids | .sierraforest | .clearwaterforest => graniteMemerrMisc m loc
  | .diamondrapids => diamondMemerrMisc m loc
  | _ => loc

/-- The calls that `intel_memory_error` makes (intel.c:90-153). It returns 1 iff
    there is one; an error of two DIMMs is accounted twice. -/
def intelMemoryError (imcLog : Bool) (cputype : CpuType) (db : Memdb) (m : Mce)
    (recordlen : ℕ) : List AccountCall :=
  let mca := mcaOf m.status
  if mca >>> 7 = 1 then
    let loc := intelLocate imcLog cputype db m { channel0 := channelField mca }
    let cnt := corrErrCnt m recordlen
    ⟨loc.channel0, loc.dimm0, cnt⟩ ::
      if loc.channel1 ≠ -1 then [⟨loc.channel1, loc.dimm1, cnt⟩] else []
  else []

/-- The call that `zhaoxin_memory_error` makes (zhaoxin.c:57-91). -/
def zhaoxinMemoryError (cputype : CpuType) (m : Mce) (recordlen : ℕ) : List AccountCall :=
  let mca := clearFiltered (mcaOf m.status)
  if mca >>> 7 = 1 then
    let channel := channelField (mcaOf m.status)
    let channel :=
      match cputype with
      | .zhaoxinKh40000 => kh40000MemerrMisc m channel
      | .zhaoxinKh50000 => kh50000MemerrMisc m channel
      | _ => channel
    [⟨channel, -1, corrErrCnt m recordlen⟩]
  else []

/-- The calls of `mce_filter` (mcelog.c:146-160); K8 records are never
    accounted. -/
def accountCalls (c : Conf) (cputype : CpuType) (db : Memdb) (m : Mce) (recordlen : ℕ) :
    List AccountCall :=
  if ¬ c.filterBogus then []
  else if cputype.isIntelCpu then intelMemoryError c.imcLog cputype db m recordlen
  else if cputype = .k8 then []
  else if cputype.isZhaoxinCpu then zhaoxinMemoryError cputype m recordlen
  else []

/-! ## Processing records -/

/-- A record with what the daemon sees when it processes it: the record length,
    the CPU type that `mce_prepare` leaves, the wall clock and the answers of the
    kernel's offline files. -/
structure Record where
  m : Mce
  recordlen : ℕ
  cputype : CpuType
  now : ℤ
  sysfs : OType → Bool

/-- `mce_prepare` (mcelog.c:330-335): a record without a time gets the wall
    clock. The CPU type is part of the record here. -/
def mcePrepare (r : Record) : Mce :=
  if r.m.time = 0 then { r.m with time := UInt64.ofNat (r.now % 2 ^ 64).toNat } else r.m

/-- The state that accounting changes: the DIMM database and the page counters;
    none after a crash. -/
abbrev Accounts := Option (Memdb × Store)

/-- What one record does outside: whether it is printed, and the accounting's
    trigger runs and offline attempts. -/
structure Out where
  printed : Bool
  effects : List Effect
  deriving DecidableEq, Repr

/-- One `memory_error` and `account_page_error` pair. -/
def accountCall (c : Conf) (r : Record) (m : Mce) :
    Accounts × List Effect → AccountCall → Accounts × List Effect
  | (none, effects), _ => (none, effects)
  | (some (db, s), effects), call =>
    let (db, runs) :=
      memoryError c.memdb db r.now m call.channel call.dimm call.corrErrCnt r.recordlen
    let effects := effects ++ runs.map .memdbTrigger
    match accountPageError c.rb c.page r.cputype db s
        { m := m, channel := call.channel, dimm := call.dimm, now := r.now, sysfs := r.sysfs } with
    | none => (none, effects)
    | some res => (some (res.db, res.store), effects ++ res.effects)

/-- `mce_filter_k8` (k8.c:272-281): GART errors are not printed. -/
def mceFilterK8 (m : Mce) : Bool :=
  !(m.bank == 4 && (m.status >>> 16) &&& 0x0f == 5 && m.status &&& ((1 : UInt64) <<< 61) != 0)

/-- The return value of `mce_filter` (mcelog.c:146-160), given the calls it made:
    whether the record is printed. -/
def mceFilter (c : Conf) (cputype : CpuType) (m : Mce) (calls : List AccountCall) : Bool :=
  if ¬ c.filterBogus then true
  else if cputype.isIntelCpu ∨ (cputype ≠ .k8 ∧ cputype.isZhaoxinCpu) then
    calls.isEmpty || !c.filterMemoryErrors
  else if cputype = .k8 then mceFilterK8 m
  else true

/-- One iteration of the record loop of `process` (mcelog.c:1253-1277). -/
def processRecord (c : Conf) (st : Accounts) (r : Record) : Accounts × Out :=
  match st with
  | none => (none, { printed := false, effects := [] })
  | some (db, s) =>
    let m := mcePrepare r
    let calls := accountCalls c r.cputype db m r.recordlen
    let (st, effects) := calls.foldl (accountCall c r m) (some (db, s), [])
    (st, { printed := mceFilter c r.cputype m calls, effects := effects })

end Mcelog.Filter
