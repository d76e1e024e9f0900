import Mcelog.Memory.Map
import Mcelog.Memory.Query

/-!
# What every operation keeps

Whatever is done with the database of the DIMMs, it stays a map, and the totals of an entry
change by the errors that are reported for it and by nothing else.

* `isMap_memoryStep`, `gains_memoryStep`: a call of `memory_error`.
* `isMap_dumpMemoryErrors`, `gains_dumpMemoryErrors`: a dump, which ages buckets.
* `isMap_getMemdimm`, `gains_getMemdimm`: the entries that a page trigger creates.
-/

namespace Mcelog.Memory

open Mcelog.Bucket Mcelog.Common Mcelog.Machine

/-- A corrected and an uncorrected error, as a pair of numbers. -/
def oneError (m : Mce) : ℕ × ℕ := if isUc m then (0, 1) else (1, 0)

/-- What a call reports for the entry `k`: an error of the DIMM or channel that it names, and one
    of its socket, together with those that were lost. -/
def MemoryCall.gain (c : MemdbConf) (k : DimmKey) (e : MemoryCall) : ℕ × ℕ :=
  if e.Covered then
    (if c.memdbEnabled ∧ e.key ≠ socketKey e.socket ∧ e.key = k then oneError e.m else 0) +
      (if c.sockdbEnabled ∧ socketKey e.socket = k then (e.lost, 0) + oneError e.m else 0)
  else 0

/-- From `db` to `db'` the entry `k` has gained so many corrected and uncorrected errors. -/
structure Gains (db db' : Memdb) (k : DimmKey) (n : ℕ × ℕ) : Prop where
  ce : db'.ceTotal k = db.ceTotal k + .ofNat n.1
  uc : db'.ucTotal k = db.ucTotal k + .ofNat n.2

section

variable {c : MemdbConf} {db : Memdb} {k : DimmKey} {md : Memdimm} {now : ℤ}

/-! ## The map -/

theorem map_key_setInChain (md : Memdimm) (chain : List Memdimm) :
    (setInChain md chain).map Memdimm.key = chain.map Memdimm.key := by
  induction chain with
  | nil => rfl
  | cons x rest ih =>
    rw [setInChain]
    split_ifs with hx
    · rw [List.map_cons, List.map_cons, hx]
    · rw [List.map_cons, List.map_cons, ih]

/-- Entries that are changed under their keys. -/
theorem IsMap.congr {db' : Memdb} (h : IsMap db) (hnum : db'.mdNumdimms = db.mdNumdimms)
    (hkeys : ∀ i, (db'.mdDimms i).map Memdimm.key = (db.mdDimms i).map Memdimm.key) :
    IsMap db' := by
  have hlength : db'.entries.length = db.entries.length := by
    have hall := congrArg List.length (map_chained_congr hkeys)
    rwa [List.length_map, List.length_map] at hall
  exact ⟨h.hashed.congr hkeys, by rw [hnum, hlength, h.count]⟩

theorem isMap_set (h : IsMap db) (md : Memdimm) : IsMap (db.set md) := by
  refine h.congr rfl fun i => ?_
  by_cases hi : i = md.key.hash
  · subst hi
    rw [Memdb.set]
    dsimp only
    rw [Function.update_self, map_key_setInChain]
  · rw [Memdb.set]
    dsimp only
    rw [Function.update_of_ne hi]

theorem isMap_getMemdimm (h : IsMap db) (k : DimmKey) (now : ℤ) :
    IsMap (getMemdimm db k now).1 := by
  have hcall := isMap_getCall h ⟨k, true, now⟩
  unfold getCall at hcall
  unfold getMemdimm at hcall ⊢
  dsimp only at hcall
  cases hfind : db.find k with
  | some md => exact h
  | none =>
    rw [hfind] at hcall
    exact hcall

/-- A call of `memory_error` keeps the map. -/
theorem isMap_memoryStep (h : IsMap db) (e : MemoryCall) : IsMap (memoryStep c db e).1 := by
  have hdimm : IsMap (accountDimm c db e.now e.m e.ch e.dimm).1 :=
    isMap_set (isMap_getMemdimm h _ _) _
  have hsocket : ∀ db, IsMap db → IsMap (accountSocket c db e.now e.m e.corrErrCnt).1 :=
    fun db h => isMap_set (isMap_getMemdimm h _ _) _
  rw [memoryStep, memoryError]
  by_cases hlen : e.recordlen < endofSocketid
  · rw [if_pos hlen]
    exact h
  · rw [if_neg hlen]
    obtain ⟨p, hp, hmap⟩ : ∃ p, (if c.memdbEnabled ∧ (e.ch ≠ -1 ∨ e.dimm ≠ -1) then
        accountDimm c db e.now e.m e.ch e.dimm else (db, [])) = p ∧ IsMap p.1 := by
      refine ⟨_, rfl, ?_⟩
      split_ifs
      · exact hdimm
      · exact h
    rw [hp]
    dsimp only
    split_ifs
    · exact hsocket _ hmap
    · exact hmap

/-- A dump leaves the keys alone. -/
theorem dumpDimm_key (flags : PrintFlags) (md : Memdimm) :
    (dumpDimm c flags now md).1.key = md.key := by
  unfold dumpDimm
  split_ifs <;> rfl

theorem isMap_dumpMemoryErrors (h : IsMap db) (flags : PrintFlags) :
    IsMap (dumpMemoryErrors c db flags now).1 := by
  refine h.congr rfl fun i => ?_
  rw [dumpMemoryErrors]
  dsimp only
  rw [List.map_map]
  exact List.map_congr_left fun md _ => dumpDimm_key flags md

/-! ## The totals -/

theorem Gains.refl (db : Memdb) (k : DimmKey) : Gains db db k 0 :=
  ⟨(UInt32.add_zero _).symm, (UInt32.add_zero _).symm⟩

theorem Gains.trans {db₁ db₂ : Memdb} {n n' : ℕ × ℕ} (h : Gains db db₁ k n)
    (h' : Gains db₁ db₂ k n') : Gains db db₂ k (n + n') := by
  constructor
  · rw [h'.ce, h.ce, Prod.fst_add, UInt32.ofNat_add, UInt32.add_assoc]
  · rw [h'.uc, h.uc, Prod.snd_add, UInt32.ofNat_add, UInt32.add_assoc]

/-- The entry of a location. -/
theorem IsMap.totals_eq (h : IsMap db) (hmd : md ∈ db.entries) :
    md.ce.count = db.ceTotal md.key ∧ md.uc.count = db.ucTotal md.key := by
  have hfind := h.find_eq_some.mpr ⟨hmd, rfl⟩
  rw [Memdb.ceTotal, Memdb.ucTotal, hfind]
  exact ⟨rfl, rfl⟩

/-- A new entry has no errors. -/
theorem gains_getMemdimm (db : Memdb) (k : DimmKey) (now : ℤ) (k' : DimmKey) :
    Gains db (getMemdimm db k now).1 k' 0 := by
  have hce := getMemdimm_ce db k now
  have huc := getMemdimm_uc db k now
  refine ⟨Eq.trans ?_ (UInt32.add_zero _).symm, Eq.trans ?_ (UInt32.add_zero _).symm⟩
  · rw [Memdb.ceTotal, find_getMemdimm]
    split_ifs with hk
    · rw [Option.map_some, Option.getD_some, hce, hk]
    · rfl
  · rw [Memdb.ucTotal, find_getMemdimm]
    split_ifs with hk
    · rw [Option.map_some, Option.getD_some, huc, hk]
    · rfl

theorem gains_accountDimm (db : Memdb) (e : MemoryCall) (k : DimmKey) :
    Gains db (accountDimm c db e.now e.m e.ch e.dimm).1 k
      (if e.key = k then oneError e.m else 0) := by
  obtain ⟨hce, huc⟩ := totals_accountDimm c db e.now e.m e.ch e.dimm k
  have hkey : k = ⟨e.m.socketid.toInt32, e.ch, e.dimm⟩ ↔ e.key = k := eq_comm
  rw [oneError]
  constructor
  · rw [hce]
    simp only [hkey]
    split_ifs <;> rfl
  · rw [huc]
    simp only [hkey]
    split_ifs <;> rfl

theorem gains_accountSocket (db : Memdb) (e : MemoryCall) (k : DimmKey) :
    Gains db (accountSocket c db e.now e.m e.corrErrCnt).1 k
      (if socketKey e.socket = k then (e.lost, 0) + oneError e.m else 0) := by
  obtain ⟨hce, huc⟩ := totals_accountSocket c db e.now e.m e.corrErrCnt k
  have hkey : k = socketKey e.m.socketid.toInt32 ↔ socketKey e.socket = k := eq_comm
  rw [oneError]
  constructor
  · rw [hce]
    simp only [hkey]
    split_ifs
    · rw [Prod.fst_add, UInt32.ofNat_add]
      rfl
    · rw [Prod.fst_add, UInt32.ofNat_add]
      rfl
    · rfl
  · rw [huc]
    simp only [hkey]
    split_ifs <;> rfl

/-- **A call adds what it reports.** -/
theorem gains_memoryStep (db : Memdb) (e : MemoryCall) (k : DimmKey) :
    Gains db (memoryStep c db e).1 k (e.gain c k) := by
  rw [memoryStep, memoryError, MemoryCall.gain]
  by_cases hcov : e.Covered
  · have hlen : ¬ e.recordlen < endofSocketid := not_lt.mpr hcov
    have hown : (e.ch ≠ -1 ∨ e.dimm ≠ -1) ↔ e.key ≠ socketKey e.socket := by
      rw [← not_and_or, not_iff_not, MemoryCall.key, socketKey, MemoryCall.socket,
        DimmKey.mk.injEq]
      exact (and_iff_right rfl).symm
    rw [if_neg hlen, if_pos hcov]
    obtain ⟨p, hp, hgains⟩ : ∃ p, (if c.memdbEnabled ∧ (e.ch ≠ -1 ∨ e.dimm ≠ -1) then
        accountDimm c db e.now e.m e.ch e.dimm else (db, [])) = p ∧ Gains db p.1 k
          (if c.memdbEnabled ∧ e.key ≠ socketKey e.socket ∧ e.key = k then oneError e.m
          else 0) := by
      refine ⟨_, rfl, ?_⟩
      by_cases hd : c.memdbEnabled = true ∧ (e.ch ≠ -1 ∨ e.dimm ≠ -1)
      · have hgains := gains_accountDimm (c := c) db e k
        rw [if_pos hd]
        simpa only [hd.1, ne_eq, hown.mp hd.2, not_false_eq_true, true_and] using hgains
      · rw [if_neg hd, if_neg fun h => hd ⟨h.1, hown.mpr h.2.1⟩]
        exact Gains.refl db k
    rw [hp]
    refine hgains.trans ?_
    dsimp only
    by_cases hs : c.sockdbEnabled = true
    · have hsocket := gains_accountSocket (c := c) p.1 e k
      rw [if_pos hs]
      simpa only [hs, true_and] using hsocket
    · rw [if_neg hs, if_neg fun h => hs h.1]
      exact Gains.refl p.1 k
  · have hlen : e.recordlen < endofSocketid := not_le.mp hcov
    rw [if_pos hlen, if_neg hcov]
    exact Gains.refl db k

theorem dumpDimm_counts (flags : PrintFlags) (md : Memdimm) :
    (dumpDimm c flags now md).1.ce.count = md.ce.count ∧
      (dumpDimm c flags now md).1.uc.count = md.uc.count := by
  unfold dumpDimm
  by_cases hdump : md.isDumped flags = true
  · rw [if_pos hdump]
    exact ⟨rfl, rfl⟩
  · rw [if_neg hdump]
    exact ⟨rfl, rfl⟩

/-- **A dump changes no total.** -/
theorem gains_dumpMemoryErrors (db : Memdb) (flags : PrintFlags) (k : DimmKey) :
    Gains db (dumpMemoryErrors c db flags now).1 k 0 := by
  have hfind : (dumpMemoryErrors c db flags now).1.find k =
      (db.find k).map fun md => (dumpDimm c flags now md).1 := by
    have hkey : (fun md => decide (md.key = k)) ∘ (fun md => (dumpDimm c flags now md).1) =
        fun md => decide (md.key = k) := by
      funext md
      rw [Function.comp_apply, dumpDimm_key]
    rw [Memdb.find, dumpMemoryErrors]
    dsimp only
    rw [List.find?_map, Memdb.find, hkey]
  refine ⟨Eq.trans ?_ (UInt32.add_zero _).symm, Eq.trans ?_ (UInt32.add_zero _).symm⟩
  · rw [Memdb.ceTotal, hfind, Option.map_map, Memdb.ceTotal]
    exact congrArg (Option.getD · 0) (Option.map_congr fun md _ => (dumpDimm_counts flags md).1)
  · rw [Memdb.ucTotal, hfind, Option.map_map, Memdb.ucTotal]
    exact congrArg (Option.getD · 0) (Option.map_congr fun md _ => (dumpDimm_counts flags md).2)

end

end Mcelog.Memory
