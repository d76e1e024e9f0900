import Mcelog.Common.Numeral
import Mcelog.Memory.Memdb

/-!
# Printing the DIMM database

Model of `dump_memory_errors`, the answer to the command `dump` of a client: the
text, and the buckets that are aged on the way. The clock is read once for a dump.
-/

namespace Mcelog.Memory

open Mcelog.Bucket Mcelog.Common

/-- `enum printflags` (memdb.h:9-12). -/
structure PrintFlags where
  /-- `DUMP_ALL` -/
  all : Bool := false
  /-- `DUMP_BIOS` -/
  bios : Bool := false
  deriving DecidableEq, Repr

/-- `dump_errtype` (memdb.c:275-293): the bucket is aged, then printed. -/
def dumpErrtype (name : String) (e : ErrType) (flags : PrintFlags) (bc : BucketConf) (now : ℤ) :
    ErrType × List Char :=
  let bucket := bucketAge bc e.bucket now 1
  let header :=
    if e.count ≠ 0 ∨ bucket.count ≠ 0 ∨ flags.all then name.toList ++ ":\n".toList else []
  let total :=
    if e.count ≠ 0 ∨ flags.all then
      "\t".toList ++ (Nat.toDigits 10 e.count.toNat ++ " total\n".toList)
    else []
  let output :=
    if bc.capacity ≠ 0 ∧ (bucket.count ≠ 0 ∨ flags.all) then
      "\t".toList ++ ((bucketOutput bc bucket).toList ++ "\n".toList)
    else []
  ({ e with bucket := bucket }, header ++ (total ++ output))

/-- `dump_bios` (memdb.c:295-308). -/
def dumpBios (md : Memdimm) : List Char :=
  let quoted (field : String) (text : String) : List Char :=
    field.toList ++ (" \"".toList ++ (text.toList ++ "\"".toList))
  match md.name, md.location with
  | none, none => []
  | some name, none => quoted "DMI_NAME" name ++ "\n".toList
  | none, some location => quoted "DMI_LOCATION" location ++ "\n".toList
  | some name, some location =>
    quoted "DMI_NAME" name ++ (" ".toList ++ (quoted "DMI_LOCATION" location ++ "\n".toList))

/-- `any` for an unknown number, else `%d`. -/
def anyOr (n : Int32) : List Char := if n = -1 then "any".toList else printInt n.toInt

/-- The entry is printed: it has errors, or all are wanted (memdb.c:312). -/
def Memdimm.isDumped (md : Memdimm) (flags : PrintFlags) : Bool :=
  md.ce.count + md.uc.count > 0 || flags.all

/-- `dump_dimm` (memdb.c:310-334). The entry of a socket is printed with the
    thresholds of the DIMMs, too. -/
def dumpDimm (c : MemdbConf) (flags : PrintFlags) (now : ℤ) (md : Memdimm) :
    Memdimm × List Char :=
  if md.isDumped flags then
    let header := "SOCKET ".toList ++ (Nat.toDigits 10 md.key.socketid.toUInt32.toNat ++
      (" CHANNEL ".toList ++ (anyOr md.key.channel ++ (" DIMM ".toList ++ (anyOr md.key.dimm ++
        "\n".toList)))))
    let bios := if flags.bios then dumpBios md else []
    let (ce, ceText) := dumpErrtype "corrected memory errors" md.ce flags c.dimms.ceBucketConf now
    let (uc, ucText) := dumpErrtype "uncorrected memory errors" md.uc flags c.dimms.ucBucketConf now
    ({ md with ce := ce, uc := uc }, header ++ (bios ++ (ceText ++ ucText)))
  else (md, [])

/-- `cmp_dimm` (memdb.c:263-272). -/
def cmpDimm (a b : Memdimm) : Int32 :=
  if a.key.socketid ≠ b.key.socketid then a.key.socketid - b.key.socketid
  else if a.key.channel ≠ b.key.channel then a.key.channel - b.key.channel
  else a.key.dimm - b.key.dimm

/-- The entries in the order in which they are printed: chain after chain, sorted. -/
def Memdb.sorted (db : Memdb) : List Memdimm :=
  ((List.finRange 17).flatMap db.mdDimms).mergeSort fun a b => cmpDimm a b ≤ 0

/-- `dump_memory_errors` (memdb.c:337-355). The entries are aged where they are. -/
def dumpMemoryErrors (c : MemdbConf) (db : Memdb) (flags : PrintFlags) (now : ℤ) :
    Memdb × List Char :=
  let text (md : Memdimm) : List Char := (dumpDimm c flags now md).2
  ({ db with mdDimms := fun i => (db.mdDimms i).map fun md => (dumpDimm c flags now md).1 },
    match db.sorted with
    | [] => []
    | md :: rest =>
      "Memory errors\n".toList ++ (text md ++ rest.flatMap fun md => '\n' :: text md))

end Mcelog.Memory
