import Mathlib.Data.Prod.Lex
import Mcelog.Common.Comparator
import Mcelog.Common.HashChains
import Mcelog.Common.Run
import Mcelog.Memory.Dump

/-!
# The DIMM database as a map, and its dump

`get_memdimm` looks a key up in the chain that it hashes to and puts a new entry in front.
`dump_memory_errors` counts on `md_numdimms`, an `int`, for the size of its array, and sorts
the entries with `cmp_dimm`, which subtracts the numbers of two keys as `int`. The difference
of two `int` does not fit an `int`.

* `isMap_run`: after all calls the database is a map, with the keys that were inserted.
* `cmpDimm_agrees`: when two entries compare as their keys lie.
* `memdb_map_iff`: when the dump is complete and in order.
-/

namespace Mcelog.Memory

open Mcelog.Common

/-! ## Calls of `get_memdimm` -/

/-- The arguments of `get_memdimm`, and the time of the call. -/
structure GetCall where
  key : DimmKey
  insert : Bool
  now : ℤ
  deriving DecidableEq, Repr

/-- `get_memdimm` (memdb.c:80-105): the database afterwards and the result. -/
def getCall (db : Memdb) (c : GetCall) : Memdb × Option Memdimm :=
  match db.find c.key with
  | some md => (db, some md)
  | none =>
    if c.insert then ((getMemdimm db c.key c.now).1, some (getMemdimm db c.key c.now).2)
    else (db, none)

/-- The database after some calls. -/
def afterCalls (calls : List GetCall) : Memdb := runState getCall .empty calls

/-- The keys that the calls insert. -/
def insertedKeys (calls : List GetCall) : List DimmKey :=
  (calls.filter fun c => c.insert).map GetCall.key

/-! ## The dump -/

/-- The entries of the database, chain after chain. -/
def Memdb.entries (db : Memdb) : List Memdimm := chained db.mdDimms

/-- The comparison that `qsort` gets. -/
def compareDimms (a b : Memdimm) : ℤ := (cmpDimm a b).toInt

/-- The entries in the order in which `dump_memory_errors` visits them (memdb.c:337-350), if the
    array for `md_numdimms` entries is filled to its end. -/
def dumpOrder (q : ComparisonSort Memdimm) (db : Memdb) : Option (List Memdimm) :=
  if (Int32.ofNat db.mdNumdimms).toInt = db.entries.length then
    some (q.sort compareDimms db.entries)
  else none

/-! ## A map that is dumped in order -/

/-- Socket, channel and DIMM as signed numbers, in lexicographic order. -/
def lexKey (k : DimmKey) : ℤ ×ₗ ℤ ×ₗ ℤ :=
  toLex (k.socketid.toInt, toLex (k.channel.toInt, k.dimm.toInt))

/-- The database after the calls is a map: there is at most one entry for a key, a key that was
    looked up has the same entry later, a lookup changes nothing, and the entries are counted.
    A dump visits each of them once, by any correct sort in the order of their keys. -/
structure MapAndDump (calls : List GetCall) : Prop where
  unique : ((afterCalls calls).entries.map Memdimm.key).Nodup
  same : ∀ before c mid c' after, calls = before ++ c :: (mid ++ c' :: after) → c'.key = c.key →
    ∀ md, (getCall (afterCalls before) c).2 = some md →
      (getCall (afterCalls (before ++ c :: mid)) c').2 = some md
  lookup : ∀ c, c.insert = false → (getCall (afterCalls calls) c).1 = afterCalls calls
  count : (Int32.ofNat (afterCalls calls).mdNumdimms).toInt = (afterCalls calls).entries.length
  ordered : StrictlyOrders compareDimms (afterCalls calls).entries
  dump : ∀ q, ∃ l, dumpOrder q (afterCalls calls) = some l ∧
    l.Perm (afterCalls calls).entries ∧ l.Pairwise fun a b => lexKey a.key < lexKey b.key

/-- The difference of the first two numbers that differ. -/
def firstDiff (k k' : DimmKey) : ℤ :=
  if k.socketid ≠ k'.socketid then k'.socketid.toInt - k.socketid.toInt
  else if k.channel ≠ k'.channel then k'.channel.toInt - k.channel.toInt
  else k'.dimm.toInt - k.dimm.toInt

/-- The entries can be counted, and no two keys are too far apart. -/
structure KeysClose (calls : List GetCall) : Prop where
  few : (insertedKeys calls).dedup.length < 2 ^ 31
  close : ∀ k ∈ insertedKeys calls, ∀ k' ∈ insertedKeys calls, firstDiff k k' < 2 ^ 31

section

variable {db : Memdb} {calls : List GetCall} {c : GetCall} {k : DimmKey} {md a b : Memdimm}

/-! ## The map -/

/-- The entries stand in their chains, with different keys, and are counted. -/
structure IsMap (db : Memdb) : Prop where
  hashed : Hashed Memdimm.key DimmKey.hash db.mdDimms
  count : db.mdNumdimms = db.entries.length

theorem isMap_empty : IsMap .empty := by
  refine ⟨hashed_nil _ _, ?_⟩
  rfl

theorem IsMap.find_eq_some (h : IsMap db) : db.find k = some md ↔ md ∈ db.entries ∧ md.key = k :=
  h.hashed.find?_eq_some

theorem IsMap.find_eq_none (h : IsMap db) : db.find k = none ↔ k ∉ db.entries.map Memdimm.key :=
  h.hashed.find?_eq_none

theorem newMemdimm_key (k : DimmKey) (now : ℤ) : (newMemdimm k now).key = k := rfl

theorem insertedKeys_cons (c : GetCall) (calls : List GetCall) :
    insertedKeys (c :: calls) =
      (if c.insert = true then [c.key] else []) ++ insertedKeys calls := by
  cases hinsert : c.insert <;> simp [insertedKeys, hinsert]

/-- A call finds the entry, or adds it, or leaves the database alone. -/
theorem getCall_cases (db : Memdb) (c : GetCall) :
    (∃ md, db.find c.key = some md ∧ getCall db c = (db, some md)) ∨
      (db.find c.key = none ∧ c.insert = false ∧ getCall db c = (db, none)) ∨
      (db.find c.key = none ∧ c.insert = true ∧
        getCall db c = (⟨push db.mdDimms c.key.hash (newMemdimm c.key c.now),
          db.mdNumdimms + 1⟩, some (newMemdimm c.key c.now))) := by
  unfold getCall getMemdimm
  cases hfind : db.find c.key with
  | some md => exact Or.inl ⟨md, rfl, rfl⟩
  | none =>
    cases hinsert : c.insert with
    | false => exact Or.inr (Or.inl ⟨rfl, rfl, rfl⟩)
    | true => exact Or.inr (Or.inr ⟨rfl, rfl, rfl⟩)

theorem entries_push (db : Memdb) (md : Memdimm) (n : ℕ) :
    (Memdb.entries ⟨push db.mdDimms md.key.hash md, n⟩).Perm (md :: db.entries) :=
  chained_push _ _ _

/-- A call keeps the map. -/
theorem isMap_getCall (h : IsMap db) (c : GetCall) : IsMap (getCall db c).1 := by
  rcases getCall_cases db c with ⟨md, -, hcall⟩ | ⟨-, -, hcall⟩ | ⟨hnone, -, hcall⟩
  · rw [hcall]
    exact h
  · rw [hcall]
    exact h
  · have hpush := h.hashed.push (b := newMemdimm c.key c.now) (h.find_eq_none.mp hnone)
    have hlength := (entries_push db (newMemdimm c.key c.now) (db.mdNumdimms + 1)).length_eq
    rw [List.length_cons, ← h.count] at hlength
    rw [hcall]
    rw [newMemdimm_key] at hpush hlength
    exact ⟨hpush, hlength.symm⟩

/-- An entry stays. -/
theorem find_getCall (h : db.find k = some md) (c : GetCall) :
    (getCall db c).1.find k = some md := by
  rcases getCall_cases db c with ⟨md', -, hcall⟩ | ⟨-, -, hcall⟩ | ⟨hnone, -, hcall⟩
  · rw [hcall]
    exact h
  · rw [hcall]
    exact h
  · have hne : k ≠ c.key := by
      rintro rfl
      rw [hnone] at h
      cases h
    have hget := find_getMemdimm db c.key c.now k
    rw [if_neg hne, h, getMemdimm, hnone] at hget
    rw [hcall]
    exact hget

/-- The keys after a call. -/
theorem mem_keys_getCall (h : IsMap db) (c : GetCall) :
    k ∈ (getCall db c).1.entries.map Memdimm.key ↔
      k ∈ db.entries.map Memdimm.key ∨ c.insert = true ∧ c.key = k := by
  rcases getCall_cases db c with ⟨md, hfind, hcall⟩ | ⟨-, hinsert, hcall⟩ | ⟨-, hinsert, hcall⟩
  · rw [hcall, or_iff_left_of_imp]
    rintro ⟨-, rfl⟩
    obtain ⟨hmem, hkey⟩ := h.find_eq_some.mp hfind
    exact List.mem_map.mpr ⟨md, hmem, hkey⟩
  · rw [hcall, hinsert]
    simp
  · have hperm := (entries_push db (newMemdimm c.key c.now) (db.mdNumdimms + 1)).map Memdimm.key
    rw [newMemdimm_key, List.map_cons, newMemdimm_key] at hperm
    rw [hcall, and_iff_right hinsert]
    refine hperm.mem_iff.trans ?_
    rw [List.mem_cons, or_comm, eq_comm]

/-- The keys after some calls. -/
theorem isMap_runState (h : IsMap db) (calls : List GetCall) :
    IsMap (runState getCall db calls) ∧
      ∀ k, k ∈ (runState getCall db calls).entries.map Memdimm.key ↔
        k ∈ db.entries.map Memdimm.key ∨ k ∈ insertedKeys calls := by
  induction calls generalizing db with
  | nil => exact ⟨h, fun k => by simp [insertedKeys]⟩
  | cons c calls ih =>
    obtain ⟨hmap, hkeys⟩ := ih (isMap_getCall h c)
    refine ⟨hmap, fun k => (hkeys k).trans ?_⟩
    rw [mem_keys_getCall h c, or_assoc, insertedKeys_cons, List.mem_append]
    refine or_congr_right (or_congr_left ?_)
    split_ifs with hinsert
    · rw [List.mem_singleton, and_iff_right hinsert, eq_comm]
    · exact iff_of_false (fun hboth => hinsert hboth.1) List.not_mem_nil

/-- **The database is a map.** -/
theorem isMap_run (calls : List GetCall) : IsMap (afterCalls calls) ∧
    ((afterCalls calls).entries.map Memdimm.key).Perm (insertedKeys calls).dedup := by
  obtain ⟨hmap, hkeys⟩ := isMap_runState isMap_empty calls
  refine ⟨hmap, (List.perm_ext_iff_of_nodup hmap.hashed.nodup (List.nodup_dedup _)).mpr ?_⟩
  intro k
  rw [List.mem_dedup]
  have hnone : k ∉ (Memdb.entries .empty).map Memdimm.key := by
    have hempty : Memdb.entries .empty = [] := rfl
    rw [hempty]
    exact List.not_mem_nil
  exact (hkeys k).trans (or_iff_right hnone)

/-! ## The order -/

/-- The difference of two `int` has the right sign if it fits. -/
theorem sub_agrees {x y : Int32} (h : x.toInt < y.toInt) :
    (x - y).toInt < 0 ∧ 0 < (y - x).toInt ↔ y.toInt - x.toInt < 2 ^ 31 := by
  have hx := x.le_toInt
  have hy := y.toInt_lt
  rw [Int32.toInt_sub, Int32.toInt_sub, Int.bmod_def, Int.bmod_def]
  split_ifs <;> omega

theorem lexKey_lt_iff {k k' : DimmKey} : lexKey k < lexKey k' ↔
    k.socketid.toInt < k'.socketid.toInt ∨ k.socketid = k'.socketid ∧
      (k.channel.toInt < k'.channel.toInt ∨ k.channel = k'.channel ∧
        k.dimm.toInt < k'.dimm.toInt) := by
  rw [lexKey, lexKey, Prod.Lex.toLex_lt_toLex, Prod.Lex.toLex_lt_toLex, Int32.toInt_inj,
    Int32.toInt_inj]

theorem lexKey_inj {k k' : DimmKey} (h : lexKey k = lexKey k') : k = k' := by
  rw [lexKey, lexKey, toLex_inj, Prod.mk.injEq, toLex_inj, Prod.mk.injEq, Int32.toInt_inj,
    Int32.toInt_inj, Int32.toInt_inj] at h
  obtain ⟨hsocket, hchannel, hdimm⟩ := h
  cases k
  cases k'
  rw [DimmKey.mk.injEq]
  exact ⟨hsocket, hchannel, hdimm⟩

/-- The first numbers that differ decide. -/
theorem lexKey_lt_iff_firstDiff {k k' : DimmKey} : lexKey k < lexKey k' ↔ 0 < firstDiff k k' := by
  rw [lexKey_lt_iff, firstDiff]
  split_ifs with hsocket hchannel
  · have hne : k.socketid.toInt ≠ k'.socketid.toInt := fun h => hsocket (Int32.toInt_inj.mp h)
    simp only [hsocket, false_and, or_false]
    omega
  · have hsocket := not_not.mp hsocket
    simp only [hsocket, hchannel, lt_irrefl, true_and, false_or, false_and, or_false]
    omega
  · have hsocket := not_not.mp hsocket
    have hchannel := not_not.mp hchannel
    simp only [hsocket, hchannel, lt_irrefl, true_and, false_or]
    omega

/-- Two entries compare as their keys lie if the numbers are not too far apart. -/
theorem cmpDimm_agrees (h : lexKey a.key < lexKey b.key) :
    compareDimms a b < 0 ∧ 0 < compareDimms b a ↔ firstDiff a.key b.key < 2 ^ 31 := by
  rw [lexKey_lt_iff] at h
  unfold compareDimms cmpDimm firstDiff
  by_cases hsocket : a.key.socketid = b.key.socketid
  · by_cases hchannel : a.key.channel = b.key.channel
    · rw [hsocket, hchannel] at h
      simp only [hsocket, hchannel, ne_eq, not_true_eq_false, if_false]
      exact sub_agrees (by simpa using h)
    · rw [hsocket] at h
      simp only [hsocket, hchannel, Ne.symm hchannel, ne_eq, not_true_eq_false, if_false,
        not_false_eq_true, if_true]
      exact sub_agrees (by simpa [hchannel] using h)
  · simp only [hsocket, Ne.symm hsocket, ne_eq, not_false_eq_true, if_true]
    exact sub_agrees (by simpa [hsocket] using h)

/-- The entries are dumped in order exactly when no two keys are too far apart. -/
theorem sorts_entries_iff (h : IsMap db) :
    (StrictlyOrders compareDimms db.entries ∧ ∀ q : ComparisonSort Memdimm,
        (q.sort compareDimms db.entries).Pairwise fun a b => lexKey a.key < lexKey b.key) ↔
      ∀ k ∈ db.entries.map Memdimm.key, ∀ k' ∈ db.entries.map Memdimm.key,
        firstDiff k k' < 2 ^ 31 := by
  have hnodup : db.entries.Nodup := List.Nodup.of_map _ h.hashed.nodup
  have htotal : ∀ a ∈ db.entries, ∀ b ∈ db.entries, a ≠ b →
      lexKey a.key < lexKey b.key ∨ lexKey b.key < lexKey a.key := by
    intro a ha b hb hne
    refine lt_or_gt_of_ne fun heq => hne ?_
    exact List.inj_on_of_nodup_map h.hashed.nodup ha hb (lexKey_inj heq)
  have hsorts : (StrictlyOrders compareDimms db.entries ∧ ∀ q : ComparisonSort Memdimm,
        (q.sort compareDimms db.entries).Pairwise fun a b => lexKey a.key < lexKey b.key) ↔
      ∀ a ∈ db.entries, ∀ b ∈ db.entries, lexKey a.key < lexKey b.key →
        compareDimms a b < 0 ∧ 0 < compareDimms b a :=
    sorts_iff (fun _ _ _ => lt_trans) (fun _ _ => lt_asymm) hnodup htotal
  rw [hsorts]
  constructor
  · intro hagree k hk k' hk'
    obtain ⟨a, ha, rfl⟩ := List.mem_map.mp hk
    obtain ⟨b, hb, rfl⟩ := List.mem_map.mp hk'
    by_cases hlt : lexKey a.key < lexKey b.key
    · exact (cmpDimm_agrees hlt).mp (hagree a ha b hb hlt)
    · have hle := mt lexKey_lt_iff_firstDiff.mpr hlt
      omega
  · intro hclose a ha b hb hlt
    exact (cmpDimm_agrees hlt).mpr
      (hclose _ (List.mem_map_of_mem ha) _ (List.mem_map_of_mem hb))

/-- An `int` counts up to its greatest value. -/
theorem toInt_ofNat_eq_iff {n : ℕ} : (Int32.ofNat n).toInt = n ↔ n < 2 ^ 31 := by
  have hsize : Int32.size = 2 ^ 32 := rfl
  rw [Int32.toInt_ofNat', hsize, Int.bmod_def]
  split_ifs <;> omega

/-! ## Calls and dump -/

/-- An entry that a call returned is found by all later calls. -/
theorem find_after {md : Memdimm} (h : db.find k = some md) (calls : List GetCall) :
    (runState getCall db calls).find k = some md := by
  induction calls generalizing db with
  | nil => exact h
  | cons c calls ih => exact ih (find_getCall h c)

/-- What a call returns is in the database afterwards. -/
theorem find_of_returned {md : Memdimm} (h : (getCall db c).2 = some md) :
    (getCall db c).1.find c.key = some md := by
  rcases getCall_cases db c with ⟨md', hfind, hcall⟩ | ⟨-, -, hcall⟩ | ⟨hnone, -, hcall⟩
  · rw [hcall] at h ⊢
    rw [← h]
    exact hfind
  · rw [hcall] at h
    cases h
  · have hget := find_getMemdimm db c.key c.now c.key
    rw [if_pos rfl, getMemdimm, hnone] at hget
    rw [hcall] at h ⊢
    rw [← h]
    exact hget

theorem getCall_of_find {md : Memdimm} (h : db.find c.key = some md) :
    getCall db c = (db, some md) := by
  rw [getCall, h]

/-- **The DIMM database.** For all calls of `get_memdimm` on an empty database, it is a map whose
    dump visits every entry once and in the order of the keys exactly when fewer than 2^31 keys
    are inserted, and of each two of them the first numbers that differ are less than 2^31
    apart. -/
theorem memdb_map_iff (calls : List GetCall) : MapAndDump calls ↔ KeysClose calls := by
  obtain ⟨hmap, hkeys⟩ := isMap_run calls
  have hlength : (afterCalls calls).entries.length = (insertedKeys calls).dedup.length := by
    rw [← hkeys.length_eq, List.length_map]
  have hcount : (Int32.ofNat (afterCalls calls).mdNumdimms).toInt =
      (afterCalls calls).entries.length ↔ (insertedKeys calls).dedup.length < 2 ^ 31 := by
    rw [hmap.count, hlength, toInt_ofNat_eq_iff]
  have hmem {k : DimmKey} :
      k ∈ (afterCalls calls).entries.map Memdimm.key ↔ k ∈ insertedKeys calls :=
    hkeys.mem_iff.trans List.mem_dedup
  have hsorts := sorts_entries_iff hmap
  constructor
  · intro h
    refine ⟨hcount.mp h.count, fun k hk k' hk' => ?_⟩
    have hdump : ∀ q : ComparisonSort Memdimm,
        (q.sort compareDimms (afterCalls calls).entries).Pairwise
          fun a b => lexKey a.key < lexKey b.key := by
      intro q
      obtain ⟨l, hl, -, hpair⟩ := h.dump q
      rw [dumpOrder, if_pos h.count, Option.some.injEq] at hl
      rw [hl]
      exact hpair
    exact hsorts.mp ⟨h.ordered, hdump⟩ k (hmem.mpr hk) k' (hmem.mpr hk')
  · intro h
    obtain ⟨hordered, hdump⟩ := hsorts.mpr fun k hk k' hk' =>
      h.close k (hmem.mp hk) k' (hmem.mp hk')
    refine ⟨hmap.hashed.nodup, ?_, fun c hinsert => ?_, hcount.mpr h.few, hordered, fun q => ?_⟩
    · intro before c mid c' after _ hkey md hmd
      have hfind := find_after (find_of_returned hmd) mid
      rw [← hkey] at hfind
      rw [afterCalls, runState_append]
      exact congrArg Prod.snd (getCall_of_find hfind)
    · rcases getCall_cases (afterCalls calls) c with ⟨_, -, hcall⟩ | ⟨-, -, hcall⟩ | ⟨-, htrue, -⟩
      · rw [hcall]
      · rw [hcall]
      · rw [hinsert] at htrue
        cases htrue
    · refine ⟨_, if_pos (hcount.mpr h.few), q.perm _ _, hdump q⟩

/-- Two sockets whose numbers are 2^31 apart and one more. -/
def farSockets : List GetCall :=
  [⟨⟨-2147483648, 0, 0⟩, true, 0⟩, ⟨⟨1, 0, 0⟩, true, 0⟩]

/-- The greater one compares smaller. -/
theorem far_sockets_reversed :
    lexKey ⟨-2147483648, 0, 0⟩ < lexKey ⟨1, 0, 0⟩ ∧
      compareDimms (newMemdimm ⟨1, 0, 0⟩ 0) (newMemdimm ⟨-2147483648, 0, 0⟩ 0) < 0 ∧
      ¬ MapAndDump farSockets := by
  have hlt : lexKey ⟨-2147483648, 0, 0⟩ < lexKey ⟨1, 0, 0⟩ := lexKey_lt_iff.mpr (by decide)
  have hcmp : compareDimms (newMemdimm ⟨1, 0, 0⟩ 0) (newMemdimm ⟨-2147483648, 0, 0⟩ 0) < 0 := by
    decide
  refine ⟨hlt, hcmp, fun h => ?_⟩
  have hsorted : (ComparisonSort.mergeSort.sort compareDimms
      (afterCalls farSockets).entries).Pairwise fun a b => lexKey a.key < lexKey b.key := by
    obtain ⟨l, hl, -, hpair⟩ := h.dump ComparisonSort.mergeSort
    rw [dumpOrder, if_pos h.count, Option.some.injEq] at hl
    rw [hl]
    exact hpair
  have hagree := h.ordered.agrees_of_mergeSort (fun _ _ => lt_asymm)
    (List.Nodup.of_map _ h.unique) hsorted (a := newMemdimm ⟨-2147483648, 0, 0⟩ 0)
    (b := newMemdimm ⟨1, 0, 0⟩ 0) (by decide) (by decide) hlt
  omega

end

end Mcelog.Memory
