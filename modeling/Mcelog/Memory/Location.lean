import Mcelog.Machine.Cputype
import Mcelog.Memory.Memdb

/-!
# Channel and DIMM of a memory error

Model of the `*_memerr_misc` functions, which refine the channel and DIMM of a
memory error from the bank, the status and the MISC register of the record. On
Sandy Bridge and Ivy Bridge they look into the DIMM database, and one record
may blame two DIMMs.
-/

namespace Mcelog.Memory

open Mcelog.Machine

/-- The arrays `channel[2]` and `dimm[2]` of `intel_memory_error`. -/
structure Located where
  channel0 : Int32
  channel1 : Int32 := -1
  dimm0 : Int32 := -1
  dimm1 : Int32 := -1
  deriving DecidableEq, Repr

/-- An `EXTRACT` assigned to an `int`. -/
def extractInt (v a b : UInt64) : Int32 := (extract v a b).toUInt32.toInt32

/-- `test_prefix(7, status & 0xefff)` -/
def isMemoryError (m : Mce) : Bool := testPrefix 7 (m.status &&& 0xefff).toUInt32

/-- `nehalem_memerr_misc` (nehalem.c:176-182). -/
def nehalemMemerrMisc (m : Mce) (loc : Located) : Located :=
  if m.status &&& mciStatusMiscv ≠ 0 then
    { loc with channel0 := extractInt m.misc 18 19, dimm0 := extractInt m.misc 16 17 }
  else loc

/-! ## Sandy Bridge and Ivy Bridge -/

/-- `failrank2dimm` (sandy-bridge.c:119-133, ivy-bridge.c:115-129). -/
def failrank2dimm (db : Memdb) (failrank : UInt64) (socket channel : Int32) : Int32 :=
  if failrank ≤ 3 then 0
  else if failrank ≤ 5 then 1
  else if failrank ≤ 7 then
    if (db.find ⟨socket, channel, 2⟩).isSome then 2 else 1
  else -1

/-- The common body of the two functions below; `lo` and `hi` bound the banks of
    the memory controller. -/
def rankMemerrMisc (lo hi : UInt8) (imcLog : Bool) (db : Memdb) (m : Mce) (loc : Located) :
    Located :=
  if ¬ imcLog ∨ m.bank < lo ∨ m.bank > hi ∨ isUc m ∨ ¬ isMemoryError m then loc
  else if extract m.status 0 3 = 0xf then loc
  else
    let chan := extractInt m.status 0 3
    let dimmOf (failrank : UInt64) := failrank2dimm db failrank m.socketid.toInt32 chan
    let loc :=
      if extract m.misc 62 62 ≠ 0 then
        { loc with dimm0 := dimmOf (extract m.misc 46 50), channel0 := chan }
      else loc
    if extract m.misc 63 63 ≠ 0 then
      { loc with dimm1 := dimmOf (extract m.misc 51 55), channel1 := chan }
    else loc

/-- `sandy_bridge_ep_memerr_misc` (sandy-bridge.c:135-159). -/
def sandyBridgeEpMemerrMisc : Bool → Memdb → Mce → Located → Located := rankMemerrMisc 8 11

/-- `ivy_bridge_ep_memerr_misc` (ivy-bridge.c:131-155). -/
def ivyBridgeEpMemerrMisc : Bool → Memdb → Mce → Located → Located := rankMemerrMisc 9 16

/-! ## Models that derive the channel from the bank -/

/-- The common body of the functions below: `bankChannel` is their `switch` on
    the bank, with the channel field of the status as its second argument. -/
def bankMemerrMisc (bankChannel : ℕ → Int32 → Option Int32) (m : Mce) (loc : Located) : Located :=
  if ¬ isMemoryError m then loc
  else if extract m.status 0 3 = 0xf then loc
  else match bankChannel m.bank.toNat (extractInt m.status 0 3) with
    | some chan => { loc with channel0 := chan }
    | none => loc

/-- `haswell_memerr_misc` (haswell.c:158-192). -/
def haswellMemerrMisc : Mce → Located → Located :=
  bankMemerrMisc fun bank chan =>
    if bank = 7 then some chan
    else if bank = 8 then some (chan + 4)
    else if 9 ≤ bank ∧ bank ≤ 12 then some (Int32.ofNat (bank - 9))
    else if 13 ≤ bank ∧ bank ≤ 16 then some (Int32.ofNat (bank - 13 + 4))
    else none

/-- `skylake_memerr_misc` (skylake_xeon.c:238-282). -/
def skylakeMemerrMisc : Mce → Located → Located :=
  bankMemerrMisc fun bank chan =>
    if bank = 7 then some chan
    else if bank = 8 then some (chan + 3)
    else if bank = 13 then some 0
    else if bank = 14 then some 1
    else if bank = 15 then some 3
    else if bank = 16 then some 4
    else if bank = 17 then some 2
    else if bank = 18 then some 5
    else none

/-- `i10nm_memerr_misc` (i10nm.c:452-495). -/
def i10nmMemerrMisc : Mce → Located → Located :=
  bankMemerrMisc fun bank chan =>
    if 12 ≤ bank ∧ bank ≤ 27 then some (Int32.ofNat ((bank - 12) / 4) * 3 + chan) else none

/-- `sapphire_memerr_misc` (sapphire.c:455-476). -/
def sapphireMemerrMisc : Mce → Located → Located :=
  bankMemerrMisc fun bank _ =>
    if 13 ≤ bank ∧ bank ≤ 20 then some (Int32.ofNat (bank - 13))
    else if 30 ≤ bank ∧ bank ≤ 31 then some (Int32.ofNat (8 + bank - 30))
    else none

/-- `granite_memerr_misc` (granite.c:284-301). -/
def graniteMemerrMisc : Mce → Located → Located :=
  bankMemerrMisc fun bank _ =>
    if bank < 13 ∨ bank > 24 then none else some (Int32.ofNat (bank - 13))

/-- `diamond_imh` (diamond.c:250-253). -/
def diamondImh (m : Mce) : Int32 := ((m.apicid >>> 2) &&& 1).toInt32

/-- `diamond_memerr_misc` (diamond.c:361-371). It has no test for an unspecified
    channel. -/
def diamondMemerrMisc (m : Mce) (loc : Located) : Located :=
  if ¬ isMemoryError m then loc
  else if m.bank < 19 ∨ m.bank > 26 then loc
  else { loc with channel0 := Int32.ofNat (m.bank.toNat - 19) + 8 * diamondImh m }

/-! ## Zhaoxin -/

/-- `kh40000_memerr_misc` (zhaoxin-kh40000.c:302-306). -/
def kh40000MemerrMisc (m : Mce) (channel : Int32) : Int32 :=
  if m.bank < 9 ∨ m.bank > 10 then -1 else channel

/-- `kh50000_memerr_misc` (zhaoxin-kh50000.c:524-528). -/
def kh50000MemerrMisc (m : Mce) (channel : Int32) : Int32 :=
  if m.bank < 9 ∨ m.bank > 21 ∨ m.bank = 17 then -1 else channel

end Mcelog.Memory
