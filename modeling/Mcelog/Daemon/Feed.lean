import Mcelog.Daemon.Cpuinfo
import Mcelog.Filter.Classify
import Mcelog.Machine.Layout

/-!
# The records of the kernel

Model of `process`: it reads from `/dev/mcelog` what fits into the buffer, and handles the
whole records of it one after the other. With `--num-errors` the program ends after that many
records, with `--debug-numerrors` when `process` has run.

* `recordAt_of_lt`: a record is copied from the bytes that were read.
* `feedLoop_all`, `feedLoop_some`: the loop, without and with a limit.
* `feed_run`: a run of `process` handles a prefix of the stream of records, however the stream
  is divided into reads.
-/

namespace Mcelog.Daemon

open Mcelog.Common Mcelog.Filter Mcelog.Machine Mcelog.Memory Mcelog.Page

/-! ## Model -/

/-- What `process` reads of the program's settings, and `recordlen` and `loglen`. -/
structure FeedConf where
  filter : Conf
  scanDouble : DoubleScan
  cpuForced : Bool
  debugNumerrors : Bool
  recordlen : UInt32
  loglen : UInt32

/-- What `process` changes. -/
structure FeedState where
  detection : Detection
  numerrors : Int32
  accounts : Accounts

/-- What is asked outside while a record is handled. -/
structure Surroundings where
  now : ℤ
  sysfs : OType → Bool
  cpuinfo : Option (List Char)

/-- One call of `process`: what `read` returns, none for an error, whether the kernel says that
    its buffer overflowed, and the surroundings of each record. -/
structure Poll where
  read : Option (List UInt8)
  overflow : Bool
  surroundings : ℕ → Surroundings

/-- What is done with one record: what is printed about the CPU, the effects of the accounting,
    and the record that is printed. -/
structure RecordOut where
  messages : List CpuMessage
  effects : List Effect
  printed : Option Mce

/-- What `process` does outside. -/
inductive FeedOut
  | noData
  | readError
  | overflowed
  /-- record `i` of the buffer -/
  | record (i : ℕ) (out : RecordOut)
  | ignored (bytes : ℕ)

/-- The record that is copied from `buf + i*recordlen` (mcelog.c:1263-1264). None where bytes
    are copied that were not read. -/
def recordAt (recordlen : UInt32) (buf : List UInt8) (i : ℕ) : Option (List UInt8) :=
  let off := (UInt32.ofNat i * recordlen).toNat
  let n := min recordlen.toNat 128
  if off + n ≤ buf.length then some ((buf.drop off).take n) else none

/-- What the loop does with a record (mcelog.c:1265-1276): `mce_prepare`, `mce_filter` and the
    printing. -/
def handleRecord (c : FeedConf) (st : Detection × Accounts) (r : List UInt8 × Surroundings) :
    (Detection × Accounts) × RecordOut :=
  let m := Mce.ofBytes (zeroPadded r.1)
  let (detection, messages) := mceCpuid c.scanDouble c.cpuForced r.2.cpuinfo st.1 m
  let record : Record :=
    { m := m, recordlen := c.recordlen.toNat, cputype := detection.cputype, now := r.2.now
      sysfs := r.2.sysfs }
  let (accounts, out) := processRecord c.filter st.2 record
  ((detection, accounts), ⟨messages, out.effects,
    if out.printed then some (mcePrepare record) else none⟩)

/-- `if (numerrors > 0 && --numerrors == 0) finish = 1;` -/
def countRecord (numerrors : Int32) : Int32 × Bool :=
  if 0 < numerrors then (numerrors - 1, numerrors - 1 == 0) else (numerrors, false)

/-- The loop of `process` (mcelog.c:1253-1277), from record `i` on with `left` rounds to go;
    also `finish`. -/
def feedLoop (c : FeedConf) (surroundings : ℕ → Surroundings) (buf : List UInt8) :
    (left : ℕ) → (i : ℕ) → FeedState → Option (FeedState × Bool × List FeedOut)
  | 0, _, st => some (st, false, [])
  | left + 1, i, st => do
    let record ← recordAt c.recordlen buf i
    let handled := handleRecord c (st.detection, st.accounts) (record, surroundings i)
    let counted := countRecord st.numerrors
    let st := ⟨handled.1.1, counted.1, handled.1.2⟩
    if counted.2 then some (st, true, [.record i handled.2])
    else do
      let rest ← feedLoop c surroundings buf left (i + 1) st
      some (rest.1, rest.2.1, .record i handled.2 :: rest.2.2)

/-- `count` (mcelog.c:1246), as the number of rounds -/
def recordCount (c : FeedConf) (buf : List UInt8) : ℤ :=
  Int.tdiv buf.length c.recordlen.toInt32.toInt

/-- `process` (mcelog.c:1229-1290), and whether it ends the program -/
def process (c : FeedConf) (st : FeedState) (p : Poll) :
    Option (FeedState × Bool × List FeedOut) :=
  if c.recordlen = 0 then some (st, false, [.noData])
  else
    match p.read with
    | none => some (st, false, [.readError])
    | some buf => do
      let count := recordCount c buf
      let before := if count = c.loglen.toInt32.toInt ∧ p.overflow then [.overflowed] else []
      let loop ← feedLoop c p.surroundings buf count.toNat 0 st
      let finish := loop.2.1 || (c.debugNumerrors && decide (loop.1.numerrors ≤ 0))
      let behind := if 128 < c.recordlen.toNat then [.ignored (c.recordlen.toNat - 128)] else []
      some (loop.1, finish, before ++ (loop.2.2 ++ behind))

/-- The program between calls of `process`: it goes on or has ended. None where it went wrong. -/
def feedStep (c : FeedConf) : Option (FeedState × Bool) → Poll →
    Option (FeedState × Bool) × List FeedOut
  | none, _ => (none, [])
  | some (st, true), _ => (some (st, true), [])
  | some (st, false), p =>
    match process c st p with
    | none => (none, [])
    | some (st, finish, out) => (some (st, finish), out)

/-! ## The stream of records -/

/-- `read` returns no more than it is asked for, and never 2 GiB. -/
def Poll.Fits (c : FeedConf) (p : Poll) : Prop :=
  ∀ buf ∈ p.read, buf.length ≤ (c.recordlen * c.loglen).toNat ∧ buf.length < 2 ^ 31

/-- Record `i` of the bytes that were read, whole, with its surroundings. -/
def recordOf (c : FeedConf) (surroundings : ℕ → Surroundings) (buf : List UInt8) (i : ℕ) :
    List UInt8 × Surroundings :=
  ((buf.drop (i * c.recordlen.toNat)).take c.recordlen.toNat, surroundings i)

/-- The whole records of a call. -/
def Poll.records (c : FeedConf) (p : Poll) : List (List UInt8 × Surroundings) :=
  match p.read with
  | none => []
  | some buf => (List.range (buf.length / c.recordlen.toNat)).map (recordOf c p.surroundings buf)

/-- The records of a run. -/
def stream (c : FeedConf) (polls : List Poll) : List (List UInt8 × Surroundings) :=
  polls.flatMap (Poll.records c)

/-- The records that are handled: as many as `--num-errors` asks for; or those of the first call
    that reads, with `--debug-numerrors`; or all. -/
def handled (c : FeedConf) (numerrors : Int32) (polls : List Poll) :
    List (List UInt8 × Surroundings) :=
  if 0 < numerrors then (stream c polls).take numerrors.toInt.toNat
  else if c.debugNumerrors then
    stream c (polls.find? fun p => p.read.isSome).toList
  else stream c polls

/-- The program has ended: the last record that `--num-errors` asks for was there, or
    `--debug-numerrors` is given and a call has read. -/
def Ends (c : FeedConf) (numerrors : Int32) (polls : List Poll) : Prop :=
  if 0 < numerrors then numerrors.toInt.toNat ≤ (stream c polls).length
  else c.debugNumerrors = true ∧ ∃ p ∈ polls, p.read.isSome = true

/-- The records of an output. -/
def FeedOut.record? : FeedOut → Option RecordOut
  | .record _ out => some out
  | .noData | .readError | .overflowed | .ignored _ => none

section

variable {c : FeedConf} {sur : ℕ → Surroundings} {buf : List UInt8} {st : FeedState} {i left : ℕ}

/-! ## Reading a record -/

/-- The copy does not see more of a record than fits into it. -/
theorem zeroPadded_take (bytes : List UInt8) (n : ℕ) :
    zeroPadded (bytes.take (min n 128)) = zeroPadded (bytes.take n) := by
  unfold zeroPadded
  rw [List.take_take, List.take_take, min_comm n 128, ← min_assoc, min_self]

variable (sur) in
/-- A record is copied from the bytes that were read. -/
theorem recordAt_of_lt (hpos : c.recordlen ≠ 0) (hlt : buf.length < 2 ^ 31)
    (hi : i < buf.length / c.recordlen.toNat) : ∃ record, recordAt c.recordlen buf i = some record ∧
      zeroPadded record = zeroPadded (recordOf c sur buf i).1 := by
  have hlen : 0 < c.recordlen.toNat :=
    Nat.pos_of_ne_zero fun h => hpos (UInt32.toNat_inj.mp h)
  have hin : (i + 1) * c.recordlen.toNat ≤ buf.length :=
    (Nat.mul_le_mul_right _ hi).trans (Nat.div_mul_le_self ..)
  rw [Nat.succ_mul] at hin
  have hle : i ≤ i * c.recordlen.toNat := Nat.le_mul_of_pos_right _ hlen
  -- the offset does not wrap around
  have hoff : (UInt32.ofNat i * c.recordlen).toNat = i * c.recordlen.toNat := by
    rw [UInt32.toNat_mul, UInt32.toNat_ofNat_of_lt' (by rw [UInt32.size]; omega)]
    exact Nat.mod_eq_of_lt (by omega)
  have hmin := min_le_left c.recordlen.toNat 128
  refine ⟨_, ?_, zeroPadded_take _ _⟩
  rw [recordAt, hoff, if_pos (by omega)]

/-- The handling of a record does not depend on what does not fit into the copy. -/
theorem handleRecord_congr {record record' : List UInt8} (d : Detection × Accounts)
    (s : Surroundings) (h : zeroPadded record = zeroPadded record') :
    handleRecord c d (record, s) = handleRecord c d (record', s) := by
  unfold handleRecord
  dsimp only
  rw [h]

/-- The number of rounds is the number of whole records, also where `recordlen` is negative as
    an `int`. -/
theorem recordCount_toNat (hlt : buf.length < 2 ^ 31) :
    (recordCount c buf).toNat = buf.length / c.recordlen.toNat := by
  have hlen := c.recordlen.toNat_lt
  have hint : c.recordlen.toInt32.toInt = (c.recordlen.toNat : ℤ).bmod (2 ^ 32) :=
    BitVec.toInt_eq_toNat_bmod c.recordlen.toBitVec
  rw [recordCount, hint]
  by_cases hsmall : c.recordlen.toNat < 2 ^ 31
  · rw [Int.bmod_eq_of_le (by omega) (by omega)]
    exact congrArg Int.toNat (Int.ofNat_tdiv buf.length c.recordlen.toNat).symm
  · have hneg : (c.recordlen.toNat : ℤ).bmod (2 ^ 32) = c.recordlen.toNat - 2 ^ 32 := by
      rw [Int.bmod_def]
      omega
    have hle : Int.tdiv buf.length ((c.recordlen.toNat : ℤ) - 2 ^ 32) ≤ 0 :=
      Int.tdiv_nonpos_of_nonneg_of_nonpos (by omega) (by omega)
    rw [hneg, Nat.div_eq_of_lt (by omega)]
    omega

/-! ## The loop -/

theorem toInt_pos_iff {n : Int32} : 0 < n ↔ 0 < n.toInt := Int32.lt_iff_toInt_lt

/-- The countdown does not wrap around. -/
theorem toInt_sub_one {n : Int32} (h : 0 < n) : (n - 1).toInt = n.toInt - 1 := by
  have hpos := toInt_pos_iff.mp h
  have hlt := n.toInt_lt
  have hone : (1 : Int32).toInt = 1 := rfl
  rw [Int32.toInt_sub, hone, Int.bmod_eq_of_le (by omega) (by omega)]

/-- Round `i` of the loop. -/
theorem feedLoop_succ (hpos : c.recordlen ≠ 0) (hlt : buf.length < 2 ^ 31)
    (hi : i < buf.length / c.recordlen.toNat) :
    feedLoop c sur buf (left + 1) i st =
      let handled := handleRecord c (st.detection, st.accounts) (recordOf c sur buf i)
      let counted := countRecord st.numerrors
      let st' : FeedState := ⟨handled.1.1, counted.1, handled.1.2⟩
      if counted.2 then some (st', true, [.record i handled.2])
      else (feedLoop c sur buf left (i + 1) st').bind fun rest =>
        some (rest.1, rest.2.1, .record i handled.2 :: rest.2.2) := by
  obtain ⟨record, hrecord, hcopy⟩ := recordAt_of_lt sur hpos hlt hi
  rw [feedLoop, hrecord]
  simp only [Option.bind_eq_bind, Option.bind_some]
  rw [handleRecord_congr _ (sur i) hcopy]
  rfl

/-- From `st` to `st'` these records have been handled, with this output. -/
structure Handles (c : FeedConf) (st st' : FeedState) (rs : List (List UInt8 × Surroundings))
    (outs : List FeedOut) : Prop where
  state : (st'.detection, st'.accounts) =
    runState (handleRecord c) (st.detection, st.accounts) rs
  out : outs.filterMap FeedOut.record? =
    runOut (handleRecord c) (st.detection, st.accounts) rs

theorem Handles.append {st' st'' : FeedState} {rs rs' : List (List UInt8 × Surroundings)}
    {outs outs' : List FeedOut} (h : Handles c st st' rs outs) (h' : Handles c st' st'' rs' outs') :
    Handles c st st'' (rs ++ rs') (outs ++ outs') := by
  constructor
  · rw [runState_append, ← h.state, h'.state]
  · rw [List.filterMap_append, runOut_append, ← h.state, h.out, h'.out]

@[simp] theorem filterMap_record (out : RecordOut) (outs : List FeedOut) :
    (FeedOut.record i out :: outs).filterMap FeedOut.record? =
      out :: outs.filterMap FeedOut.record? := rfl

variable (sur i) in
/-- Without a limit, the loop handles all records from `i` on. -/
theorem feedLoop_all (hpos : c.recordlen ≠ 0) (hlt : buf.length < 2 ^ 31)
    (hleft : i + left ≤ buf.length / c.recordlen.toNat) (hn : ¬ 0 < st.numerrors) :
    ∃ st' out, feedLoop c sur buf left i st = some (st', false, out) ∧
      st'.numerrors = st.numerrors ∧
      Handles c st st' ((List.range' i left).map (recordOf c sur buf)) out := by
  induction left generalizing i st with
  | zero => exact ⟨st, [], rfl, rfl, rfl, rfl⟩
  | succ left ih =>
    have hcount : countRecord st.numerrors = (st.numerrors, false) := if_neg hn
    let handled := handleRecord c (st.detection, st.accounts) (recordOf c sur buf i)
    let next : FeedState := ⟨handled.1.1, st.numerrors, handled.1.2⟩
    obtain ⟨st', out, hrun, hnum, hstate, hout⟩ : ∃ st' out, _ :=
      ih (i := i + 1) (by omega) (show ¬ 0 < next.numerrors from hn)
    refine ⟨st', .record i handled.2 :: out, ?_, hnum, ⟨?_, ?_⟩⟩
    · rw [feedLoop_succ hpos hlt (by omega), hcount]
      dsimp only
      rw [if_neg Bool.false_ne_true, hrun, Option.bind_some]
    · rw [hstate, List.range'_succ]
      rfl
    · rw [filterMap_record, hout, List.range'_succ]
      rfl

variable (sur i) in
/-- With a limit, the loop handles no more records than are left to it. -/
theorem feedLoop_some (hpos : c.recordlen ≠ 0) (hlt : buf.length < 2 ^ 31)
    (hleft : i + left ≤ buf.length / c.recordlen.toNat) (hn : 0 < st.numerrors) :
    ∃ st' out, feedLoop c sur buf left i st =
        some (st', decide (st.numerrors.toInt.toNat ≤ left), out) ∧
      st'.numerrors.toInt = st.numerrors.toInt - min st.numerrors.toInt.toNat left ∧
      Handles c st st'
        (((List.range' i left).map (recordOf c sur buf)).take st.numerrors.toInt.toNat) out := by
  have hnpos := toInt_pos_iff.mp hn
  induction left generalizing i st with
  | zero =>
    refine ⟨st, [], ?_, by simp, ⟨by simp, by simp⟩⟩
    rw [feedLoop, decide_eq_false (by omega)]
  | succ left ih =>
    have hone := toInt_sub_one hn
    obtain ⟨k, hk⟩ : ∃ k, st.numerrors.toInt.toNat = k + 1 :=
      ⟨st.numerrors.toInt.toNat - 1, by omega⟩
    rw [hk, List.range'_succ, List.map_cons, List.take_succ_cons]
    by_cases hlast : st.numerrors - 1 = 0
    · have hzero : st.numerrors.toInt = 1 := by
        rw [hlast] at hone
        have : (0 : Int32).toInt = 0 := rfl
        omega
      obtain rfl : k = 0 := by omega
      have hcount : countRecord st.numerrors = (st.numerrors - 1, true) := by
        rw [countRecord, if_pos hn, hlast]
        rfl
      let handled := handleRecord c (st.detection, st.accounts) (recordOf c sur buf i)
      refine ⟨⟨handled.1.1, st.numerrors - 1, handled.1.2⟩, [.record i handled.2], ?_, ?_,
        ⟨rfl, rfl⟩⟩
      · rw [feedLoop_succ hpos hlt (by omega), hcount]
        dsimp only
        rw [if_pos rfl, decide_eq_true (by omega)]
      · dsimp only
        omega
    · have hnext : 0 < st.numerrors - 1 := by
        rw [toInt_pos_iff]
        have hne : (st.numerrors - 1).toInt ≠ 0 := fun h => hlast (Int32.toInt_inj.mp h)
        omega
      have hcount : countRecord st.numerrors = (st.numerrors - 1, false) := by
        rw [countRecord, if_pos hn]
        exact Prod.ext rfl (beq_eq_false_iff_ne.mpr hlast)
      let handled := handleRecord c (st.detection, st.accounts) (recordOf c sur buf i)
      let next : FeedState := ⟨handled.1.1, st.numerrors - 1, handled.1.2⟩
      have hnext' : 0 < next.numerrors := hnext
      obtain ⟨st', out, hrun, hnum, hstate, hout⟩ : ∃ st' out, _ :=
        ih (i := i + 1) (by omega) hnext' (toInt_pos_iff.mp hnext)
      have hkn : (st.numerrors - 1).toInt.toNat = k := by omega
      have hkn' : next.numerrors.toInt.toNat = k := hkn
      rw [hkn'] at hrun hnum hstate hout
      refine ⟨st', .record i handled.2 :: out, ?_, ?_, ⟨hstate, ?_⟩⟩
      · rw [feedLoop_succ hpos hlt (by omega), hcount]
        dsimp only
        rw [if_neg Bool.false_ne_true, hrun, Option.bind_some]
        simp only [Nat.succ_le_succ_iff]
        rfl
      · have hnum' : st'.numerrors.toInt = (st.numerrors - 1).toInt - min k left := hnum
        rw [hnum']
        omega
      · rw [filterMap_record, hout]
        rfl

/-! ## One call -/

variable {p : Poll} {polls : List Poll}

theorem records_of_read (hread : p.read = some buf) : p.records c =
    (List.range (buf.length / c.recordlen.toNat)).map (recordOf c p.surroundings buf) := by
  rw [Poll.records, hread]

/-- What is printed before and behind the records. -/
theorem Handles.wrap {st' : FeedState} {rs : List (List UInt8 × Surroundings)}
    {before outs behind : List FeedOut} (h : Handles c st st' rs outs)
    (hbefore : before.filterMap FeedOut.record? = [])
    (hbehind : behind.filterMap FeedOut.record? = []) :
    Handles c st st' rs (before ++ (outs ++ behind)) := by
  refine ⟨h.state, ?_⟩
  rw [List.filterMap_append, List.filterMap_append, hbefore, hbehind, h.out, List.nil_append,
    List.append_nil]

/-- A call that reads, after its loop. -/
theorem process_of_loop {st' : FeedState} {finish : Bool} {outs : List FeedOut}
    {rs : List (List UInt8 × Surroundings)} (hpos : c.recordlen ≠ 0) (hread : p.read = some buf)
    (hlt : buf.length < 2 ^ 31)
    (hloop : feedLoop c p.surroundings buf (buf.length / c.recordlen.toNat) 0 st =
      some (st', finish, outs)) (h : Handles c st st' rs outs) :
    ∃ outs', process c st p = some (st', finish ||
        (c.debugNumerrors && decide (st'.numerrors ≤ 0)), outs') ∧ Handles c st st' rs outs' := by
  rw [process, if_neg hpos, hread]
  dsimp only
  rw [recordCount_toNat hlt, hloop, Option.bind_eq_bind, Option.bind_some]
  refine ⟨_, rfl, h.wrap ?_ ?_⟩
  · split_ifs <;> rfl
  · split_ifs <;> rfl

theorem process_all (hpos : c.recordlen ≠ 0) (hfits : p.Fits c) (hread : p.read = some buf)
    (hn : ¬ 0 < st.numerrors) :
    ∃ st' outs, process c st p = some (st', c.debugNumerrors, outs) ∧
      st'.numerrors = st.numerrors ∧ Handles c st st' (p.records c) outs := by
  have hlt := (hfits buf hread).2
  obtain ⟨st', outs, hloop, hnum, h⟩ := feedLoop_all p.surroundings 0 hpos hlt
    (Nat.zero_add _).le hn
  rw [← List.range_eq_range', ← records_of_read hread] at h
  obtain ⟨outs', hrun, h'⟩ := process_of_loop hpos hread hlt hloop h
  refine ⟨st', outs', ?_, hnum, h'⟩
  rw [hrun, hnum, decide_eq_true (Int32.not_lt.mp hn), Bool.and_true, Bool.false_or]

theorem process_some (hpos : c.recordlen ≠ 0) (hfits : p.Fits c) (hread : p.read = some buf)
    (hn : 0 < st.numerrors) :
    ∃ st' outs, process c st p =
        some (st', decide (st.numerrors.toInt.toNat ≤ (p.records c).length), outs) ∧
      st'.numerrors.toInt =
        st.numerrors.toInt - min st.numerrors.toInt.toNat (p.records c).length ∧
      Handles c st st' ((p.records c).take st.numerrors.toInt.toNat) outs := by
  have hlt := (hfits buf hread).2
  have hlen : (p.records c).length = buf.length / c.recordlen.toNat := by
    rw [records_of_read hread, List.length_map, List.length_range]
  obtain ⟨st', outs, hloop, hnum, h⟩ := feedLoop_some p.surroundings 0 hpos hlt
    (Nat.zero_add _).le hn
  rw [← List.range_eq_range', ← records_of_read hread] at h
  obtain ⟨outs', hrun, h'⟩ := process_of_loop hpos hread hlt hloop h
  rw [← hlen] at hrun hnum
  refine ⟨st', outs', ?_, hnum, h'⟩
  -- `--debug-numerrors` does not end the program earlier
  have hdebug : (decide (st.numerrors.toInt.toNat ≤ (p.records c).length) ||
      (c.debugNumerrors && decide (st'.numerrors ≤ 0))) =
      decide (st.numerrors.toInt.toNat ≤ (p.records c).length) := by
    by_cases hle : st.numerrors.toInt.toNat ≤ (p.records c).length
    · rw [decide_eq_true hle, Bool.true_or]
    · have hleft : ¬ st'.numerrors ≤ 0 := by
        have hzero : (0 : Int32).toInt = 0 := rfl
        rw [Int32.le_iff_toInt_le, hnum, hzero]
        have := toInt_pos_iff.mp hn
        omega
      rw [decide_eq_false hle, decide_eq_false hleft, Bool.and_false, Bool.or_false]
  rw [hrun, hdebug]

/-! ## Runs -/

/-- Nothing is done once the program has ended. -/
theorem run_ended (c : FeedConf) (st : FeedState) (polls : List Poll) :
    runState (feedStep c) (some (st, true)) polls = some (st, true) ∧
      (runOut (feedStep c) (some (st, true)) polls).flatten = [] := by
  induction polls with
  | nil => exact ⟨rfl, rfl⟩
  | cons p polls ih => exact ih

theorem feedStep_of_process {st' : FeedState} {finish : Bool} {outs : List FeedOut}
    (h : process c st p = some (st', finish, outs)) :
    feedStep c (some (st, false)) p = (some (st', finish), outs) := by
  rw [feedStep, h]

theorem stream_cons (c : FeedConf) (p : Poll) (polls : List Poll) :
    stream c (p :: polls) = p.records c ++ stream c polls := List.flatMap_cons

/-- Without a call nothing is handled. -/
theorem handled_nil (c : FeedConf) (n : Int32) : handled c n [] = [] ∧ ¬ Ends c n [] := by
  constructor
  · rw [handled]
    split_ifs
    · exact List.take_nil
    · rfl
    · rfl
  · rw [Ends]
    split_ifs with hn
    · have := toInt_pos_iff.mp hn
      show ¬ n.toInt.toNat ≤ 0
      omega
    · rintro ⟨-, p, hp, -⟩
      exact absurd hp List.not_mem_nil

/-- A call that does not read hands out no records. -/
theorem handled_of_error (hread : p.read = none) (n : Int32) (polls : List Poll) :
    handled c n (p :: polls) = handled c n polls ∧ (Ends c n (p :: polls) ↔ Ends c n polls) := by
  have hnone : p.records c = [] := by rw [Poll.records, hread]
  have hfind : (p :: polls).find? (fun p => p.read.isSome) =
      polls.find? fun p => p.read.isSome := List.find?_cons_of_neg (by simp [hread])
  constructor
  · rw [handled, handled, stream_cons, hnone, List.nil_append, hfind]
  · rw [Ends, Ends, stream_cons, hnone, List.nil_append]
    simp [hread]

/-- One call hands out some records, and the rest of the run the others. -/
theorem feedStep_handled (hpos : c.recordlen ≠ 0) (hp : p.Fits c) (st : FeedState) :
    ∃ st₁ ended rs, (feedStep c (some (st, false)) p).1 = some (st₁, ended) ∧
      Handles c st st₁ rs (feedStep c (some (st, false)) p).2 ∧
      ∀ polls, handled c st.numerrors (p :: polls) =
          rs ++ (if ended then [] else handled c st₁.numerrors polls) ∧
        (Ends c st.numerrors (p :: polls) ↔ ended = true ∨ Ends c st₁.numerrors polls) := by
  cases hread : p.read with
  | none =>
    have hstep : feedStep c (some (st, false)) p = (some (st, false), [.readError]) := by
      refine feedStep_of_process ?_
      rw [process, if_neg hpos, hread]
    rw [hstep]
    refine ⟨st, false, [], rfl, ⟨rfl, rfl⟩, fun polls => ?_⟩
    obtain ⟨hhandled, hiff⟩ := handled_of_error (c := c) hread st.numerrors polls
    rw [hhandled, hiff]
    exact ⟨rfl, by simp⟩
  | some buf =>
    by_cases hn : 0 < st.numerrors
    · -- `--num-errors`: the call takes its records off the count
      have hnpos := toInt_pos_iff.mp hn
      obtain ⟨st₁, outs, hcall, hnum, h₁⟩ := process_some hpos hp hread hn
      rw [feedStep_of_process hcall]
      refine ⟨st₁, _, _, rfl, h₁, fun polls => ?_⟩
      rw [handled, if_pos hn, Ends, if_pos hn, stream_cons, List.take_append, List.length_append]
      by_cases hle : st.numerrors.toInt.toNat ≤ (p.records c).length
      · rw [decide_eq_true hle, if_pos rfl, Nat.sub_eq_zero_of_le hle, List.take_zero]
        exact ⟨rfl, iff_of_true (by omega) (.inl rfl)⟩
      · have hleft : st₁.numerrors.toInt.toNat =
            st.numerrors.toInt.toNat - (p.records c).length := by omega
        have hn₁ : 0 < st₁.numerrors := by
          rw [toInt_pos_iff]
          omega
        rw [decide_eq_false hle, if_neg Bool.false_ne_true, handled, if_pos hn₁, hleft, Ends,
          if_pos hn₁, hleft, or_iff_right Bool.false_ne_true]
        exact ⟨rfl, by omega⟩
    · obtain ⟨st₁, outs, hcall, hnum, h₁⟩ := process_all hpos hp hread hn
      have hn₁ : ¬ 0 < st₁.numerrors := hnum ▸ hn
      rw [feedStep_of_process hcall]
      refine ⟨st₁, _, _, rfl, h₁, fun polls => ?_⟩
      rw [handled, if_neg hn, Ends, if_neg hn, handled, if_neg hn₁, Ends, if_neg hn₁]
      by_cases hd : c.debugNumerrors = true
      · -- `--debug-numerrors`: this call is the last one
        have hsome : p.read.isSome = true := by rw [hread]; rfl
        have hfind : (p :: polls).find? (fun p => p.read.isSome) = some p :=
          List.find?_cons_of_pos hsome
        have hone : stream c [p] = p.records c := List.append_nil _
        rw [if_pos hd, hfind, Option.toList_some, hone, if_pos hd, List.append_nil]
        exact ⟨rfl, iff_of_true ⟨hd, p, List.mem_cons_self, hsome⟩ (.inl hd)⟩
      · rw [if_neg hd, if_neg hd, stream_cons, if_neg hd]
        refine ⟨rfl, ?_⟩
        simp [hd]

/-- **The stream of records.** For every length of a record but 0 and every sequence of calls of
    `process`, each copy stays inside the bytes that were read, and the whole records of all
    reads are handled in their order, whatever reads they come in: as many as `--num-errors`
    asks for, where the program ends with the last one; with `--debug-numerrors` those of the
    first call that reads; otherwise all, without an end. -/
theorem feed_run (c : FeedConf) (hpos : c.recordlen ≠ 0) (st : FeedState) (polls : List Poll)
    (hfits : ∀ p ∈ polls, p.Fits c) :
    ∃ st' ended, runState (feedStep c) (some (st, false)) polls = some (st', ended) ∧
      (ended = true ↔ Ends c st.numerrors polls) ∧
      Handles c st st' (handled c st.numerrors polls)
        (runOut (feedStep c) (some (st, false)) polls).flatten := by
  induction polls generalizing st with
  | nil =>
    obtain ⟨hhandled, hends⟩ := handled_nil c st.numerrors
    rw [hhandled]
    exact ⟨st, false, rfl, iff_of_false Bool.false_ne_true hends, rfl, rfl⟩
  | cons p polls ih =>
    have hrest : ∀ p' ∈ polls, p'.Fits c := fun p' hp' => hfits p' (List.mem_cons_of_mem _ hp')
    obtain ⟨st₁, ended₁, rs, hstep, h₁, hpolls⟩ :=
      feedStep_handled hpos (hfits p List.mem_cons_self) st
    obtain ⟨hhandled, hends⟩ := hpolls polls
    rw [runState_cons, runOut_cons, List.flatten_cons, hstep, hhandled, hends]
    cases ended₁ with
    | true =>
      obtain ⟨hrun, hout⟩ := run_ended c st₁ polls
      rw [hout, List.append_nil, if_pos rfl, List.append_nil]
      exact ⟨st₁, true, hrun, iff_of_true rfl (.inl rfl), h₁⟩
    | false =>
      obtain ⟨st', ended, hrun, hiff, h⟩ := ih st₁ hrest
      rw [if_neg Bool.false_ne_true, or_iff_right Bool.false_ne_true]
      exact ⟨st', ended, hrun, hiff, h₁.append h⟩

end

/-- Records of `struct mce`, 32 of them. -/
def plainFeed : FeedConf where
  filter := plainConf
  scanDouble := digitScan
  cpuForced := true
  debugNumerrors := false
  recordlen := 128
  loglen := 32

/-- A call that reads so many zeros. -/
def zeroPoll (n : ℕ) : Poll :=
  { read := some (List.replicate n 0), overflow := false
    surroundings := fun _ => ⟨1, fun _ => true, none⟩ }

/-- With `--num-errors 2`, a read of a record and a half and one of two records: the program
    ends with two records handled. -/
theorem feed_run_two_records : ∃ st', runState (feedStep plainFeed)
      (some (⟨⟨.skylakeXeon, true, true, false⟩, 2, some (Memdb.empty, Store.setup 0)⟩, false))
      [zeroPoll 192, zeroPoll 256] = some (st', true) ∧
    ((runOut (feedStep plainFeed)
      (some (⟨⟨.skylakeXeon, true, true, false⟩, 2, some (Memdb.empty, Store.setup 0)⟩, false))
      [zeroPoll 192, zeroPoll 256]).flatten.filterMap FeedOut.record?).length = 2 := by
  have hfits : ∀ p ∈ [zeroPoll 192, zeroPoll 256], p.Fits plainFeed := by
    intro p hp buf hbuf
    have hsize : (plainFeed.recordlen * plainFeed.loglen).toNat = 4096 := rfl
    simp only [List.mem_cons, List.not_mem_nil, or_false] at hp
    rcases hp with rfl | rfl <;>
    · obtain rfl := Option.some.inj hbuf
      rw [hsize, List.length_replicate]
      norm_num
  obtain ⟨st', ended, hrun, hends, h⟩ := feed_run plainFeed (by decide)
    ⟨⟨.skylakeXeon, true, true, false⟩, 2, some (Memdb.empty, Store.setup 0)⟩ _ hfits
  have hlen : ∀ n, ((zeroPoll n).records plainFeed).length = n / 128 := by
    intro n
    rw [records_of_read (show (zeroPoll n).read = some _ from rfl), List.length_map,
      List.length_range, List.length_replicate]
    rfl
  have hstream : (stream plainFeed [zeroPoll 192, zeroPoll 256]).length = 3 := by
    rw [stream_cons, stream_cons, List.length_append, List.length_append, hlen, hlen]
    rfl
  have hn : (0 : Int32) < 2 := by decide
  have hended : ended = true := by
    rw [hends, Ends, if_pos hn, hstream]
    show 2 ≤ 3
    decide
  rw [hended] at hrun
  refine ⟨st', hrun, ?_⟩
  rw [h.out, length_runOut, handled, if_pos hn, List.length_take, hstream]
  rfl

end Mcelog.Daemon
