import Mathlib.Data.List.SplitOn
import Mcelog.Common.Scanf
import Mcelog.Memory.Dump
import Mcelog.Page.Account

/-!
# Answering a client

Model of `dispatch_commands` (server.c) and of `dump_page_errors` (page.c): the text
that the daemon writes for the commands of a client. Texts are lists of bytes, as
`Char`. A loop over `strsep` with one delimiter sees the parts of `List.splitOn`. A dump
ages the buckets that it prints, so the daemon's data is passed on.
-/

namespace Mcelog.Server

open Mcelog.Bucket Mcelog.Common Mcelog.Memory Mcelog.Page

/-- What the answers depend on. `now` is the clock of a dump. -/
structure Daemon where
  memdbConf : MemdbConf
  memdb : Memdb
  pageConf : PageConf
  store : Store
  now : ℤ

/-! ## Commands -/

/-- One word of a `dump` command (server.c:91-100): the flags, and what is printed. -/
def dumpWord (flags : PrintFlags) (word : List Char) : PrintFlags × List Char :=
  if word = "dump".toList then (flags, [])
  else if word = "bios".toList then ({ flags with bios := true }, [])
  else if word = "all".toList then ({ flags with all := true }, [])
  else (flags, "Unknown dump parameter\n".toList)

/-- All words of a `dump` command. -/
def dumpWords : PrintFlags → List (List Char) → PrintFlags × List Char
  | flags, [] => (flags, [])
  | flags, word :: words =>
    let (flags, text) := dumpWord flags word
    let (flags, texts) := dumpWords flags words
    (flags, text ++ texts)

/-- `dispatch_dump` (server.c:86-104), with the loop over `strsep(&s, " ")`. -/
def dispatchDump (d : Daemon) (s : List Char) : Daemon × List Char :=
  let (flags, text) := dumpWords {} (s.splitOn ' ')
  let (memdb, dump) := dumpMemoryErrors d.memdbConf d.memdb flags d.now
  ({ d with memdb := memdb }, text ++ (dump ++ "done\n".toList))

/-- `page_state` (page.c:87-91). -/
def pageState : PageState → String
  | .online => "online"
  | .offline => "offline"
  | .offlineFailed => "offline-failed"

/-- The line of one page in `dump_page_errors` (page.c:421-429). -/
def dumpPage (c : BucketConf) (p : Mempage) : List Char :=
  (hexAddr p.addr).toList ++ (": total ".toList ++ (Nat.toDigits 10 p.ce.count.toNat ++
    (" seen \"".toList ++ ((bucketOutput c p.ce.bucket).toList ++ ("\" ".toList ++
      ((pageState p.offlined).toList ++ ((if p.triggered then " triggered" else "").toList ++
        "\n".toList)))))))

/-- `dump_page_errors` (page.c:410-434), the pages in the order of the tree. -/
def dumpPageErrors (c : PageConf) (s : Store) : List Char :=
  match s.root.toList with
  | [] => []
  | pages => "Per page corrected memory statistics:\n".toList ++
      pages.flatMap fun sl => dumpPage c.pageTriggerConf (s.mp sl) ++ "\n".toList

/-- `dispatch_pages` (server.c:106-110). -/
def dispatchPages (d : Daemon) : List Char :=
  dumpPageErrors d.pageConf d.store ++ "done\n".toList

/-- One line of `dispatch_commands` (server.c:116-126). -/
def dispatchLine (d : Daemon) (line : List Char) : Daemon × List Char :=
  let s := line.dropWhile isSpace
  if "dump".toList <+: s then dispatchDump d s
  else if "pages".toList <+: s then (d, dispatchPages d)
  else if s = "ping".toList then (d, "pong\n".toList)
  else if s ≠ [] then (d, "Unknown command\n".toList)
  else (d, [])

/-- The lines one after the other. -/
def dispatchLines : Daemon → List (List Char) → Daemon × List Char
  | d, [] => (d, [])
  | d, line :: lines =>
    let (d, text) := dispatchLine d line
    let (d, texts) := dispatchLines d lines
    (d, text ++ texts)

/-- `dispatch_commands` (server.c:112-127) on the 0 terminated `line`, with the loop over
    `strsep(&line, "\n")`. -/
def dispatchCommands (d : Daemon) (line : List Char) : Daemon × List Char :=
  dispatchLines d ((line.takeWhile (· ≠ '\x00')).splitOn '\n')

/-- A daemon with one DIMM that has had no error. -/
def idleDaemon : Daemon :=
  let hour : BucketConf := { capacity := 10, agetime := 3600, tunit := 'h' }
  let dimm : Memdimm :=
    { newMemdimm ⟨0, 1, 0⟩ 0 with name := some "DIMM_A1", location := some "Node 0" }
  let triggers (type : String) : ErrTriggers :=
    { ceBucketConf := hour, ucBucketConf := hour, type := type }
  { memdbConf :=
      { dimms := triggers "DIMM", sockets := triggers "Socket", memdbEnabled := true,
        sockdbEnabled := false }
    memdb := { mdDimms := fun i => if i = dimm.key.hash then [dimm] else [], mdNumdimms := 1 }
    pageConf :=
      { pageTriggerConf := hour, mpReplacementTriggerConf := hour, offline := .account,
        maxCorrErrCounters := 8192 }
    store := Store.setup 0
    now := 1 }

end Mcelog.Server
