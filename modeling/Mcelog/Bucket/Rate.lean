import Mcelog.Bucket.Model
import Mcelog.Common.Scanf

/-!
# Rate strings

Model of `parse_rate` and `bucket_conf_init`: a rate is a capacity with an
optional `k`, `m` or `g`, a slash, and a time with an optional unit.
-/

namespace Mcelog.Bucket

open Mcelog.Common

/-- `"%u %1s / %u %1s"` (leaky-bucket.c:113) -/
def rateWithUnit : List Directive :=
  [conversionU] ++ literal " " ++ [.str (some 1)] ++ literal " / " ++ [conversionU] ++
    literal " " ++ [.str (some 1)]

/-- `"%u / %u %1s"` (leaky-bucket.c:118) -/
def ratePlain : List Directive :=
  [conversionU] ++ literal " / " ++ [conversionU] ++ literal " " ++ [.str (some 1)]

/-- The first character of a `%1s` buffer; 0 if nothing was stored. -/
def unitChar (word : Option (List Char)) : Char := ((word.getD []).head?).getD '\x00'

/-- The four values that `parse_rate` scans (leaky-bucket.c:111-124): the capacity
    with its unit and the time with its unit. A capacity with a unit needs a unit
    for the time as well. -/
def scanRate (rate : List Char) : Option (UInt32 × Char × UInt32 × Char) :=
  let r := sscanf rateWithUnit rate
  if r.ret = 4 then
    some (.ofNat ((r.num? 0).getD 0), unitChar (r.str? 1), .ofNat ((r.num? 2).getD 0),
      unitChar (r.str? 3))
  else if r.ret ≤ 2 then
    let r := sscanf ratePlain rate
    if r.ret < 2 then none
    else some (.ofNat ((r.num? 0).getD 0), '\x00', .ofNat ((r.num? 1).getD 0), unitChar (r.str? 2))
  else none

/-- The capacity in units of one: `cap *= 1000` for each step of `k`, `m`, `g`
    (leaky-bucket.c:126-132). -/
def capacityOf (cap : UInt32) : Char → Option UInt32
  | 'g' => some (cap * 1000 * 1000 * 1000)
  | 'm' => some (cap * 1000 * 1000)
  | 'k' => some (cap * 1000)
  | '\x00' => some cap
  | _ => none

/-- `parse_rate` (leaky-bucket.c:104-140): the configuration afterwards and
    whether the rate was accepted. -/
def parseRate (rate : List Char) (c : BucketConf) : BucketConf × Bool :=
  match scanRate rate with
  | none => (c, false)
  | some (cap, cunit, t, tunit) =>
    if t = 0 ∨ cap = 0 then (c, false)
    else match capacityOf cap cunit.toLower with
      | none => (c, false)
      | some cap =>
        let c := { c with tunit := tunit.toLower }
        match timeconv c.tunit with
        | (_, false) => (c, false)
        | (unit, true) => ({ c with agetime := unit * t, capacity := cap }, true)

/-- `bucket_conf_init` (leaky-bucket.c:142-148). -/
def bucketConfInit (c : BucketConf) (rate : List Char) : BucketConf × Bool :=
  match parseRate rate c with
  | (c, false) => (c, false)
  | (c, true) => ({ c with trigger := none }, true)

end Mcelog.Bucket
