import Mcelog.Memory.Dump
import Mcelog.Memory.Totals

/-!
# Queries and thresholds

Whether the command `dump` of a client changes which errors run triggers. A dump
ages the buckets that it prints, with the thresholds of the DIMMs also for the
entry of a whole socket, and aging moves the start of the period that a bucket
counts in.

* `Memdimm.view`: the part of an entry that later triggers depend on.
* `view_memoryStep`: triggers depend on nothing else.
* `dumps_read_only`: in every run whose dumps find no threshold bucket old enough
  to be aged, the triggers are those of the run without the dumps.
* `dump_loses_trigger`: a dump between two errors loses a trigger.
-/

namespace Mcelog.Memory

open Mcelog.Bucket Mcelog.Common Mcelog.Machine

/-! ## Runs with queries -/

/-- A `memory_error` call, or the command `dump` of a client at time `now`. -/
inductive QueryEvent
  | error (e : MemoryCall)
  | dump (flags : PrintFlags) (now : ℤ)
  deriving DecidableEq, Repr

/-- The error of an event. -/
def QueryEvent.error? : QueryEvent → Option MemoryCall
  | .error e => some e
  | .dump _ _ => none

/-- One event in a run; a `memory_error` call has its trigger runs as output. -/
def queryStep (c : MemdbConf) (db : Memdb) : QueryEvent → Memdb × Option (List TriggerRun)
  | .error e => ((memoryStep c db e).1, some (memoryStep c db e).2)
  | .dump flags now => ((dumpMemoryErrors c db flags now).1, none)

/-! ## What triggers depend on -/

/-- The thresholds that errors of an entry are accounted with. -/
def MemdbConf.triggers (c : MemdbConf) (k : DimmKey) : ErrTriggers :=
  if k = socketKey k.socketid then c.sockets else c.dimms

/-- Errors are accounted to the entry. -/
def MemdbConf.tracks (c : MemdbConf) (k : DimmKey) : Bool :=
  if k = socketKey k.socketid then c.sockdbEnabled else c.memdbEnabled

/-- The entry is tracked with a threshold for corrected errors. -/
def MemdbConf.ceLive (c : MemdbConf) (k : DimmKey) : Prop :=
  c.tracks k = true ∧ (c.triggers k).ceBucketConf.capacity ≠ 0

/-- The entry is tracked with a threshold for uncorrected errors. -/
def MemdbConf.ucLive (c : MemdbConf) (k : DimmKey) : Prop :=
  c.tracks k = true ∧ (c.triggers k).ucBucketConf.capacity ≠ 0

instance (c : MemdbConf) (k : DimmKey) : Decidable (c.ceLive k) :=
  inferInstanceAs (Decidable (_ ∧ _))

instance (c : MemdbConf) (k : DimmKey) : Decidable (c.ucLive k) :=
  inferInstanceAs (Decidable (_ ∧ _))

/-- The bucket, if there is a threshold for it. -/
def ErrType.view (live : Prop) [Decidable live] (e : ErrType) : ErrType :=
  { e with bucket := if live then e.bucket else bucketInit 0 }

/-- The entry without the buckets that no threshold is for. -/
def Memdimm.view (c : MemdbConf) (md : Memdimm) : Memdimm :=
  { md with ce := md.ce.view (c.ceLive md.key), uc := md.uc.view (c.ucLive md.key) }

/-- The entries of the database that triggers depend on. -/
def Memdb.view (c : MemdbConf) (db : Memdb) (i : Fin 17) : List Memdimm :=
  (db.mdDimms i).map (Memdimm.view c)

section View

variable {c : MemdbConf} {db db' : Memdb} {md md' : Memdimm} {k : DimmKey} {now : ℤ}

theorem find_view (c : MemdbConf) (db : Memdb) (k : DimmKey) :
    (db.find k).map (Memdimm.view c) = (db.view c k.hash).find? fun md => md.key = k := by
  rw [Memdb.view, List.find?_map, Memdb.find]
  rfl

/-- `get_memdimm` returns entries of the same view. -/
theorem getMemdimm_view (h : db.view c = db'.view c) (k : DimmKey) (now : ℤ) :
    (getMemdimm db k now).1.view c = (getMemdimm db' k now).1.view c ∧
      (getMemdimm db k now).2.view c = (getMemdimm db' k now).2.view c := by
  have hfind : (db.find k).map (Memdimm.view c) = (db'.find k).map (Memdimm.view c) := by
    rw [find_view, find_view, h]
  have hchain : ∀ i, (db.mdDimms i).map (Memdimm.view c) = (db'.mdDimms i).map (Memdimm.view c) :=
    congrFun h
  unfold getMemdimm
  cases hdb : db.find k with
  | some md =>
    rw [hdb] at hfind
    obtain ⟨md', hdb', hmd⟩ := Option.map_eq_some_iff.mp hfind.symm
    rw [hdb']
    exact ⟨h, hmd.symm⟩
  | none =>
    rw [hdb] at hfind
    rw [Option.map_eq_none_iff.mp hfind.symm]
    refine ⟨?_, rfl⟩
    funext i
    by_cases hi : i = k.hash
    · subst hi
      simp [Memdb.view, hchain]
    · simp [Memdb.view, hi, hchain]

theorem map_setInChain (md : Memdimm) (chain : List Memdimm) :
    (setInChain md chain).map (Memdimm.view c) =
      setInChain (md.view c) (chain.map (Memdimm.view c)) := by
  induction chain with
  | nil => rfl
  | cons x rest ih =>
    rw [setInChain, List.map_cons, setInChain]
    by_cases hx : x.key = md.key
    · rw [if_pos hx, if_pos (show (x.view c).key = (md.view c).key from hx), List.map_cons]
    · rw [if_neg hx, if_neg (show ¬ (x.view c).key = (md.view c).key from hx), List.map_cons, ih]

/-- Storing entries of the same view. -/
theorem set_view (h : db.view c = db'.view c) (hmd : md.view c = md'.view c) :
    (db.set md).view c = (db'.set md').view c := by
  have hkey : (md.view c).key = (md'.view c).key := congrArg Memdimm.key hmd
  change md.key = md'.key at hkey
  have hchain : ∀ i, (db.mdDimms i).map (Memdimm.view c) = (db'.mdDimms i).map (Memdimm.view c) :=
    congrFun h
  funext i
  by_cases hi : i = md'.key.hash
  · subst hi
    simp only [Memdb.view, Memdb.set, hkey, Function.update_self, map_setInChain, hchain, hmd]
  · simp [Memdb.view, Memdb.set, hkey, hi, hchain]

/-- Buckets of the same view are accounted in the same way. -/
theorem bucketAccount_view {live : Prop} [Decidable live] {bc : BucketConf} {e e' : ErrType}
    (hlive : bc.capacity ≠ 0 → live) (h : e.view live = e'.view live) (inc : UInt32) (t : ℤ) :
    (bucketAccount bc e.bucket inc t 1).2 = (bucketAccount bc e'.bucket inc t 1).2 ∧
      ((bucketAccount bc e.bucket inc t 1).2 = true →
        (bucketAccount bc e.bucket inc t 1).1 = (bucketAccount bc e'.bucket inc t 1).1) ∧
      (⟨(bucketAccount bc e.bucket inc t 1).1, e.count⟩ : ErrType).view live =
        (⟨(bucketAccount bc e'.bucket inc t 1).1, e'.count⟩ : ErrType).view live := by
  by_cases hcap : bc.capacity = 0
  · have hnone : ∀ b, bucketAccount bc b inc t 1 = (b, false) := fun b => if_pos hcap
    rw [hnone, hnone]
    refine ⟨rfl, ?_, h⟩
    intro hfalse
    cases hfalse
  · have hbucket : e.bucket = e'.bucket := by
      have := congrArg ErrType.bucket h
      simpa [ErrType.view, hlive hcap] using this
    have hcount : (e.view live).count = (e'.view live).count := congrArg ErrType.count h
    change e.count = e'.count at hcount
    rw [hbucket, hcount]
    exact ⟨rfl, fun _ => rfl, rfl⟩

/-- Errors of one kind are counted in the same way, whatever is added to the count. -/
theorem errType_view_add {live : Prop} [Decidable live] {bucket bucket' : LeakyBucket}
    {count count' : UInt32}
    (h : (⟨bucket, count⟩ : ErrType).view live = ErrType.view live ⟨bucket', count'⟩)
    (n : UInt32) :
    (⟨bucket, count + n⟩ : ErrType).view live = ErrType.view live ⟨bucket', count' + n⟩ := by
  simp only [ErrType.view, ErrType.mk.injEq] at h ⊢
  exact ⟨h.1, by rw [h.2]⟩

/-- The counts belong to the view. -/
theorem count_eq_of_view (h : md.view c = md'.view c) :
    md.ce.count = md'.ce.count ∧ md.uc.count = md'.uc.count :=
  ⟨congrArg (fun md => md.ce.count) h, congrArg (fun md => md.uc.count) h⟩

theorem accountMemdb_view {t : ErrTriggers} (hce : t.ceBucketConf.capacity ≠ 0 → c.ceLive md.key)
    (huc : t.ucBucketConf.capacity ≠ 0 → c.ucLive md.key) (h : md.view c = md'.view c) (m : Mce)
    (reporter : String) :
    (accountMemdb t md m reporter).1.view c = (accountMemdb t md' m reporter).1.view c ∧
      (accountMemdb t md m reporter).2 = (accountMemdb t md' m reporter).2 := by
  obtain ⟨key, ce, uc, name, location⟩ := md
  obtain ⟨key', ce', uc', name', location'⟩ := md'
  obtain ⟨hceCount, hucCount⟩ := count_eq_of_view h
  dsimp only at hceCount hucCount
  simp only [Memdimm.view, Memdimm.mk.injEq] at h
  obtain ⟨rfl, hceView, hucView, rfl, rfl⟩ := h
  unfold accountMemdb
  cases isUc m with
  | true =>
    obtain ⟨hover, hsame, hview⟩ := bucketAccount_view huc hucView 1 (timeT m)
    have hview' := errType_view_add hview 1
    simp only [if_true, Memdimm.view, hceView, hview', hover, true_and]
    cases hb : (bucketAccount t.ucBucketConf uc'.bucket 1 (timeT m) 1).2 with
    | false => simp
    | true =>
      rw [hb] at hover
      simp [memdbTrigger, hsame hover, hceCount, hucCount]
  | false =>
    obtain ⟨hover, hsame, hview⟩ := bucketAccount_view hce hceView 1 (timeT m)
    have hview' := errType_view_add hview 1
    simp only [if_false, Memdimm.view, hucView, hview', hover, true_and, Bool.false_eq_true]
    cases hb : (bucketAccount t.ceBucketConf ce'.bucket 1 (timeT m) 1).2 with
    | false => simp
    | true =>
      rw [hb] at hover
      simp [memdbTrigger, hsame hover, hceCount, hucCount]

theorem accountOver_view {t : ErrTriggers} (hce : t.ceBucketConf.capacity ≠ 0 → c.ceLive md.key)
    (h : md.view c = md'.view c) (m : Mce) (cnt : UInt32) (reporter : String) :
    (accountOver t md m cnt reporter).1.view c = (accountOver t md' m cnt reporter).1.view c ∧
      (accountOver t md m cnt reporter).2 = (accountOver t md' m cnt reporter).2 := by
  obtain ⟨key, ce, uc, name, location⟩ := md
  obtain ⟨key', ce', uc', name', location'⟩ := md'
  have hview := h
  obtain ⟨hceCount, hucCount⟩ := count_eq_of_view h
  dsimp only at hceCount hucCount
  simp only [Memdimm.view, Memdimm.mk.injEq] at h
  obtain ⟨rfl, hceView, hucView, rfl, rfl⟩ := h
  unfold accountOver
  by_cases hcnt : cnt ≠ 0 ∧ cnt - 1 > 0
  · rw [if_pos hcnt, if_pos hcnt]
    obtain ⟨hover, hsame, hacc⟩ := bucketAccount_view hce hceView (cnt - 1) (timeT m)
    have hacc' := errType_view_add hacc (cnt - 1)
    simp only [Memdimm.view, hucView, hacc', hover, true_and]
    cases hb : (bucketAccount t.ceBucketConf ce'.bucket (cnt - 1) (timeT m) 1).2 with
    | false => simp
    | true =>
      rw [hb] at hover
      simp [memdbTrigger, hsame hover, hceCount, hucCount]
  · rw [if_neg hcnt, if_neg hcnt]
    exact ⟨hview, rfl⟩

theorem accountDimm_view (h : db.view c = db'.view c) (hmemdb : c.memdbEnabled = true) (m : Mce)
    {ch dimm : Int32} (hd : ch ≠ -1 ∨ dimm ≠ -1) (now : ℤ) :
    (accountDimm c db now m ch dimm).1.view c = (accountDimm c db' now m ch dimm).1.view c ∧
      (accountDimm c db now m ch dimm).2 = (accountDimm c db' now m ch dimm).2 := by
  obtain ⟨hdb, hmd⟩ := getMemdimm_view h ⟨m.socketid.toInt32, ch, dimm⟩ now
  have hkey := getMemdimm_key db ⟨m.socketid.toInt32, ch, dimm⟩ now
  have hsocket : (⟨m.socketid.toInt32, ch, dimm⟩ : DimmKey) ≠ socketKey m.socketid.toInt32 := by
    rw [socketKey, ne_eq, DimmKey.mk.injEq]
    rintro ⟨-, hch, hdimm⟩
    exact hd.elim (fun hne => hne hch) (fun hne => hne hdimm)
  have hce : c.dimms.ceBucketConf.capacity ≠ 0 → c.ceLive ⟨m.socketid.toInt32, ch, dimm⟩ := by
    intro hcap
    rw [MemdbConf.ceLive, MemdbConf.tracks, MemdbConf.triggers, if_neg hsocket, if_neg hsocket]
    exact ⟨hmemdb, hcap⟩
  have huc : c.dimms.ucBucketConf.capacity ≠ 0 → c.ucLive ⟨m.socketid.toInt32, ch, dimm⟩ := by
    intro hcap
    rw [MemdbConf.ucLive, MemdbConf.tracks, MemdbConf.triggers, if_neg hsocket, if_neg hsocket]
    exact ⟨hmemdb, hcap⟩
  rw [← hkey] at hce huc
  obtain ⟨hview, hruns⟩ := accountMemdb_view hce huc hmd m "memdb"
  exact ⟨set_view hdb hview, hruns⟩

theorem accountSocket_view (h : db.view c = db'.view c) (hsockdb : c.sockdbEnabled = true)
    (m : Mce) (cnt : UInt32) (now : ℤ) :
    (accountSocket c db now m cnt).1.view c = (accountSocket c db' now m cnt).1.view c ∧
      (accountSocket c db now m cnt).2 = (accountSocket c db' now m cnt).2 := by
  obtain ⟨hdb, hmd⟩ := getMemdimm_view h (socketKey m.socketid.toInt32) now
  have hkey := getMemdimm_key db (socketKey m.socketid.toInt32) now
  have hself : socketKey m.socketid.toInt32 = socketKey (socketKey m.socketid.toInt32).socketid :=
    rfl
  have hce : c.sockets.ceBucketConf.capacity ≠ 0 → c.ceLive (socketKey m.socketid.toInt32) := by
    intro hcap
    rw [MemdbConf.ceLive, MemdbConf.tracks, MemdbConf.triggers, if_pos hself, if_pos hself]
    exact ⟨hsockdb, hcap⟩
  have huc : c.sockets.ucBucketConf.capacity ≠ 0 → c.ucLive (socketKey m.socketid.toInt32) := by
    intro hcap
    rw [MemdbConf.ucLive, MemdbConf.tracks, MemdbConf.triggers, if_pos hself, if_pos hself]
    exact ⟨hsockdb, hcap⟩
  rw [← hkey] at hce huc
  obtain ⟨hover, hoverRuns⟩ := accountOver_view hce hmd m cnt "sockdb_fallback"
  have hkey' := (accountOver_spec c.sockets (getMemdimm db (socketKey m.socketid.toInt32) now).2 m
    cnt "sockdb_fallback").1
  rw [← hkey'] at hce huc
  obtain ⟨hview, hruns⟩ := accountMemdb_view hce huc hover m "sockdb_memdb"
  unfold accountSocket
  dsimp only
  exact ⟨set_view hdb hview, congrArg₂ (· ++ ·) hoverRuns hruns⟩

/-- **What a call depends on.** In databases of the same view a `memory_error` call
    runs the same triggers and leaves databases of the same view. -/
theorem view_memoryStep (h : db.view c = db'.view c) (e : MemoryCall) :
    (memoryStep c db e).1.view c = (memoryStep c db' e).1.view c ∧
      (memoryStep c db e).2 = (memoryStep c db' e).2 := by
  unfold memoryStep memoryError
  by_cases hlen : e.recordlen < endofSocketid
  · rw [if_pos hlen, if_pos hlen]
    exact ⟨h, rfl⟩
  · rw [if_neg hlen, if_neg hlen]
    obtain ⟨p, p', hp, hp', hview, hruns⟩ : ∃ p p' : Memdb × List TriggerRun,
        (if c.memdbEnabled ∧ (e.ch ≠ -1 ∨ e.dimm ≠ -1) then accountDimm c db e.now e.m e.ch e.dimm
          else (db, [])) = p ∧
        (if c.memdbEnabled ∧ (e.ch ≠ -1 ∨ e.dimm ≠ -1) then accountDimm c db' e.now e.m e.ch e.dimm
          else (db', [])) = p' ∧ p.1.view c = p'.1.view c ∧ p.2 = p'.2 := by
      refine ⟨_, _, rfl, rfl, ?_⟩
      by_cases hd : c.memdbEnabled = true ∧ (e.ch ≠ -1 ∨ e.dimm ≠ -1)
      · rw [if_pos hd, if_pos hd]
        exact accountDimm_view h hd.1 e.m hd.2 e.now
      · rw [if_neg hd, if_neg hd]
        exact ⟨h, rfl⟩
    rw [hp, hp']
    obtain ⟨db₁, runs⟩ := p
    obtain ⟨db₁', runs'⟩ := p'
    obtain rfl : runs = runs' := hruns
    by_cases hs : c.sockdbEnabled = true
    · obtain ⟨hsview, hsruns⟩ := accountSocket_view hview hs e.m e.corrErrCnt e.now
      simp only [hs, if_true]
      exact ⟨hsview, by rw [hsruns]⟩
    · simp only [hs, Bool.false_eq_true, if_false]
      exact ⟨hview, trivial⟩

end View

/-! ## Dumps -/

/-- The bucket is too young to be aged at time `now` with the threshold `bc`. -/
def Young (bc : BucketConf) (e : ErrType) (now : ℤ) : Prop :=
  now - e.bucket.tstamp < bc.agetime.toNat

/-- A dump prints no bucket of a threshold that is old enough to be aged. -/
def NothingAged (c : MemdbConf) (db : Memdb) : QueryEvent → Prop
  | .error _ => True
  | .dump flags now => ∀ i, ∀ md ∈ db.mdDimms i, md.isDumped flags = true →
      (c.ceLive md.key → Young c.dimms.ceBucketConf md.ce now) ∧
      (c.ucLive md.key → Young c.dimms.ucBucketConf md.uc now)

section Dumps

variable {c : MemdbConf} {db : Memdb} {flags : PrintFlags} {now : ℤ}

/-- Of the errors of one kind, a dump changes only the bucket. -/
theorem dumpErrtype_fst (name : String) (e : ErrType) (bc : BucketConf) :
    (dumpErrtype name e flags bc now).1 = { e with bucket := bucketAge bc e.bucket now 1 } := rfl

theorem dumpErrtype_view {live : Prop} [Decidable live] {bc : BucketConf} {e : ErrType}
    (h : live → Young bc e now) (name : String) :
    (dumpErrtype name e flags bc now).1.view live = e.view live := by
  rw [dumpErrtype_fst]
  by_cases hlive : live
  · rw [bucketAge_of_lt (h hlive)]
  · simp [ErrType.view, hlive]

theorem dumpDimm_view {md : Memdimm}
    (h : md.isDumped flags = true → (c.ceLive md.key → Young c.dimms.ceBucketConf md.ce now) ∧
      (c.ucLive md.key → Young c.dimms.ucBucketConf md.uc now)) :
    (dumpDimm c flags now md).1.view c = md.view c := by
  unfold dumpDimm
  by_cases hdump : md.isDumped flags = true
  · rw [if_pos hdump]
    simp only [Memdimm.view]
    rw [dumpErrtype_view (h hdump).1, dumpErrtype_view (h hdump).2]
  · rw [if_neg hdump]

/-- A dump that ages nothing leaves the view alone. -/
theorem dumpMemoryErrors_view (h : NothingAged c db (.dump flags now)) :
    (dumpMemoryErrors c db flags now).1.view c = db.view c := by
  funext i
  simp only [Memdb.view, dumpMemoryErrors, List.map_map]
  refine List.map_congr_left fun md hmd => ?_
  exact dumpDimm_view (h i md hmd)

end Dumps

/-- **Queries that age nothing.** In every run of `memory_error` calls and dumps, from
    every database, in which no dump finds a threshold bucket old enough to be aged:
    the `memory_error` calls run the same triggers as without the dumps, with the same
    counts. -/
theorem dumps_read_only (c : MemdbConf) (db : Memdb) (evs : List QueryEvent)
    (h : Meets (queryStep c) (NothingAged c) db evs) :
    (runOut (queryStep c) db evs).reduceOption =
      runOut (memoryStep c) db (evs.filterMap QueryEvent.error?) := by
  refine runOut_reduceOption_of_view (Memdb.view c) ?_ ?_ h rfl
  · intro db x hx hC
    cases x with
    | error e => cases hx
    | dump flags now => exact ⟨rfl, dumpMemoryErrors_view hC⟩
  · intro db db' x e hx hview
    cases x with
    | dump flags now => cases hx
    | error e' =>
      obtain rfl : e' = e := Option.some.inj hx
      obtain ⟨hview', hruns⟩ := view_memoryStep hview e'
      exact ⟨congrArg some hruns, hview'⟩

/-! ## A lost trigger -/

/-- DIMM tracking with a threshold of two corrected errors in ten seconds. -/
def twoInTen : MemdbConf :=
  let off : BucketConf := { capacity := 0, agetime := 0, tunit := 's' }
  { dimms := ⟨{ capacity := 2, agetime := 10, tunit := 's' }, off, "DIMM"⟩
    sockets := ⟨off, off, "Socket"⟩, memdbEnabled := true, sockdbEnabled := false }

/-- A corrected error of one DIMM at time `t`. -/
def errorAt (t : ℕ) : QueryEvent :=
  .error { m := { time := .ofNat t }, ch := 0, dimm := 0, corrErrCnt := 1, recordlen := 128
           now := t }

/-- A dump in the first ten seconds changes nothing. -/
theorem dumps_read_only_early :
    (runOut (queryStep twoInTen) .empty
        [errorAt 0, .dump {} 5, errorAt 15, errorAt 21]).reduceOption =
      runOut (memoryStep twoInTen) .empty
        ([errorAt 0, .dump {} 5, errorAt 15, errorAt 21].filterMap QueryEvent.error?) := by
  refine dumps_read_only twoInTen .empty [errorAt 0, .dump {} 5, errorAt 15, errorAt 21]
    ⟨trivial, ?_, trivial, trivial, trivial⟩
  have hyoung : ∀ i, ∀ md ∈ (queryStep twoInTen .empty (errorAt 0)).1.mdDimms i,
      Young twoInTen.dimms.ceBucketConf md.ce 5 ∧
        ¬ twoInTen.ucLive md.key := by
    unfold Young
    decide
  exact fun i md hmd _ =>
    ⟨fun _ => (hyoung i md hmd).1, fun hlive => absurd hlive (hyoung i md hmd).2⟩

/-- A dump after ten seconds ages the bucket, so that its period starts at the dump
    and not at the next error: the third error, which exceeds the threshold without
    the dump, comes after the end of that period. -/
theorem dump_loses_trigger :
    (runOut (queryStep twoInTen) .empty
        [errorAt 0, .dump {} 10, errorAt 15, errorAt 21]).reduceOption.map
      (List.map TriggerRun.thresholdCount) = [[], [], []] ∧
    (runOut (memoryStep twoInTen) .empty
        ([errorAt 0, .dump {} 10, errorAt 15, errorAt 21].filterMap QueryEvent.error?)).map
      (List.map TriggerRun.thresholdCount) = [[], [], [2]] := by
  decide

end Mcelog.Memory
