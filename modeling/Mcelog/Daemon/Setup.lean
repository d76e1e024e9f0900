import Mcelog.Config.Settings
import Mcelog.Filter.Model

/-!
# Starting the daemon

Model of `memdb_config`, `prefill_memdb` and `page_setup`: the settings of the accounting
and its first state, from the config file and the environment. There is no result where
the program exits.
-/

namespace Mcelog.Daemon

open Mcelog.Bucket Mcelog.Common Mcelog.Config Mcelog.Filter Mcelog.Memory Mcelog.Page

/-- A DIMM that the BIOS describes, with the numbers that `parse_dimm_addr` reads from its
    bank locator. -/
structure DmiDimm where
  key : DimmKey
  location : String
  name : String
  deriving DecidableEq, Repr

/-- What the setup depends on besides the config file. -/
structure Environment where
  /-- `memory_error_support` -/
  memoryErrorSupport : Bool
  /-- `trigger_check(s) == 0` -/
  triggerCheck : List Char → Bool
  /-- `sysfs_available(file, W_OK)` -/
  sysfsAvailable : String → Bool
  /-- `max_corr_err_counters` -/
  maxCorrErrCounters : Int32
  /-- the DIMMs of `opendmi`; none without it or without `do_dmi` -/
  dmiDimms : Option (List DmiDimm)
  /-- `bucket_time()` -/
  now : ℤ
  filterBogus : Bool
  filterMemoryErrors : Bool
  imcLog : Bool
  rb : Rebalance Slot

/-- `memdb_config` (memdb.c:357-378) -/
def memdbConfig (env : Environment) (c : Config) : Option MemdbConf := do
  let trigger (header base : String) := configTrigger env.triggerCheck c header base zeroConf
  let dimmTracking ← configBool c "dimm" "dimm-tracking-enabled"
  let dimmCe ← trigger "dimm" "ce-error"
  let dimmUc ← trigger "dimm" "uc-error"
  let socketTracking ← configBool c "socket" "socket-tracking-enabled"
  let socketCe ← trigger "socket" "mem-ce-error"
  let socketUc ← trigger "socket" "mem-uc-error"
  some
    { dimms := { ceBucketConf := dimmCe, ucBucketConf := dimmUc, type := "DIMM" }
      sockets := { ceBucketConf := socketCe, ucBucketConf := socketUc, type := "Socket" }
      memdbEnabled := dimmTracking.getD env.memoryErrorSupport
      sockdbEnabled := socketTracking.getD env.memoryErrorSupport }

/-- The loop of `prefill_memdb` (memdb.c:422-441). An entry that is there already keeps its
    strings. -/
def prefillDimm (now : ℤ) (db : Memdb) (d : DmiDimm) : Memdb :=
  let (db, md) := getMemdimm db d.key now
  if md.location.isSome then db
  else db.set { md with location := some d.location, name := some d.name }

/-- `prefill_memdb` (memdb.c:404-448), after `memdb_config` -/
def prefillMemdb (env : Environment) (c : Config) (conf : MemdbConf) : Option Memdb :=
  if conf.memdbEnabled then do
    let prepopulate ← configBool c "dimm" "dmi-prepopulate"
    if prepopulate = some false then some .empty
    else some ((env.dmiDimms.getD []).foldl (prefillDimm env.now) .empty)
  else some .empty

/-- `offline_choice` (page.c:211-218) -/
def offlineChoice : List (String × OType) :=
  [("off", .off), ("account", .account), ("soft", .soft), ("hard", .hard),
    ("soft-then-hard", .softThenHard)]

/-- A trigger of `page_setup` that has to be accessible (page.c:452-465) -/
def softTrigger (env : Environment) (c : Config) (name : String) : Option (Option String) :=
  match configString c "page".toList name.toList with
  | none => some none
  | some s => if env.triggerCheck s then some (some (String.ofList s)) else none

/-- `page_setup` (page.c:435-473) -/
def pageSetup (env : Environment) (c : Config) : Option PageConf := do
  let pageTrigger ← configTrigger env.triggerCheck c "page" "memory-ce" zeroConf
  let replacement ←
    configTrigger env.triggerCheck c "page" "memory-ce-counter-replacement" zeroConf
  let retry ← configBool c "page" "memory-ce-offline-retry"
  let n ← configChoice c "page" "memory-ce-action" offlineChoice
  let offline := n.getD .off
  let offline :=
    if (offline = .soft ∨ offline = .hard ∨ offline = .softThenHard) ∧
        !env.sysfsAvailable (kernelOffline offline) then .account
    else offline
  let pre ← softTrigger env c "memory-pre-sync-soft-ce-trigger"
  let post ← softTrigger env c "memory-post-sync-soft-ce-trigger"
  some
    { pageTriggerConf := pageTrigger
      mpReplacementTriggerConf := replacement
      pageErrorPreSoftTrigger := pre
      pageErrorPostSoftTrigger := post
      offlineRetryBackoffBase := if retry = some true then 2 else 1
      offline := offline
      maxCorrErrCounters := roundupCounters env.maxCorrErrCounters }

/-- The setup of the daemon (mcelog.c:1459-1464): the settings, the DIMM database and the
    page counters. -/
def start (env : Environment) (c : Config) : Option (Conf × Memdb × Store) := do
  let memdb ← memdbConfig env c
  let db ← prefillMemdb env c memdb
  let page ← pageSetup env c
  some
    ({ filterBogus := env.filterBogus, filterMemoryErrors := env.filterMemoryErrors,
       imcLog := env.imcLog, memdb := memdb, page := page, rb := env.rb }, db, Store.setup env.now)

end Mcelog.Daemon
