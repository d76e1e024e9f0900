import Mcelog.Common.Walk
import Mcelog.Daemon.Setup
import Mcelog.Dmi.BankLocator

/-!
# Filling the DIMM database from SMBIOS

`prefill_memdb` goes over the memory devices of the table. It takes the key of each one from
its bank locator, and stores the device with the entry of the database for this key. The
variables of the key live from device to device, and a locator of AMI does not set all of
them.

* `map_view_prefillDevices`: without locators of AMI, the loop does one update of the
  database for each device, by what the device is.
* `prefillDevices_perm`: such updates of different keys can be reordered.
* `prefill_by_entries_iff`: the lists of devices for which the order does not matter.
-/

namespace Mcelog.Dmi

open Mcelog.Common Mcelog.Memory

/-! ## The loop -/

/-- The strings that `prefill_memdb` asks for of a memory device: NULL is `some none`, and `none`
    is a string number that is not in the entry. -/
structure DimmStrings where
  bank : Option (Option (List Char))
  name : Option (Option (List Char))
  deriving DecidableEq, Repr

/-- The locals of `prefill_memdb`, and the database. -/
structure PrefillState where
  addr : DimmAddr
  db : Memdb
  missed : ℕ

/-- The arguments of `get_memdimm`, as `int`. -/
def DimmAddr.key (a : DimmAddr) : DimmKey :=
  ⟨a.socketid.toInt32, a.channel.toInt32, a.dimm.toInt32⟩

/-- The body of the loop (memdb.c:424-441). An entry has a `memdev` where it has a `location`.
    `xstrdup` of NULL goes wrong. -/
def prefillDevice (now : ℤ) (st : PrefillState) (d : DimmStrings) : Option PrefillState := do
  let bl ← d.bank
  let (addr, parsed) := parseDimmAddr st.addr bl
  if parsed then
    let (db, md) := getMemdimm st.db addr.key now
    if md.location.isSome then return ⟨addr, db, st.missed + 1⟩
    else
      let name ← (← d.name)
      let md := { md with location := bl.map String.ofList, name := some (String.ofList name) }
      return ⟨addr, db.set md, st.missed⟩
  else return ⟨addr, st.db, st.missed + 1⟩

/-- The loop of `prefill_memdb` (memdb.c:419-441). -/
def prefillDevices (now : ℤ) (st : PrefillState) (ds : List DimmStrings) : Option PrefillState :=
  ds.foldlM (prefillDevice now) st

/-- The keys that the loop comes to, with the variables `a` before. -/
def resultingKeys (a : DimmAddr) : List DimmStrings → List DimmKey
  | [] => []
  | d :: ds =>
    let (a, parsed) := parseDimmAddr a d.bank.join
    (if parsed then [a.key] else []) ++ resultingKeys a ds

/-! ## The database that is built -/

/-- What the database says: the entry of each key, and how many entries there are. -/
def view (db : Memdb) : (DimmKey → Option Memdimm) × ℕ := (db.find, db.mdNumdimms)

/-- The database depends on what the devices are: the locators that are parsed say what the
    numbers are, and for devices with different keys all orders build the same database,
    whatever the variables have before. -/
structure ByEntries (ds : List DimmStrings) : Prop where
  determined : ∀ d ∈ ds, ∀ bl, d.bank = some (some bl) → Determined bl
  order : ∀ now addr addr' db missed missed' ds', ds'.Perm ds → (resultingKeys addr ds).Nodup →
    (prefillDevices now ⟨addr', db, missed'⟩ ds').map (fun st => view st.db) =
      (prefillDevices now ⟨addr, db, missed⟩ ds).map (fun st => view st.db)

/-- No locator has a format of AMI. -/
def NoAmiBank (ds : List DimmStrings) : Prop :=
  ∀ d ∈ ds, ∀ bl, d.bank = some (some bl) → ¬ AmiBank bl

/-! ## One update for each device -/

/-- The key that a locator is parsed to with the variables `a` before. -/
def parsedKey (a : DimmAddr) (bl : Option (List Char)) : Option DimmKey :=
  if (parseDimmAddr a bl).2 = true then some (parseDimmAddr a bl).1.key else none

/-- The key of a device, if its locator is parsed. -/
def keyOf (d : DimmStrings) : Option DimmKey := parsedKey ⟨0, 0, 0⟩ d.bank.join

/-- The entry of a device, from the one that the database has for its key. -/
def fillEntry (now : ℤ) (d : DimmStrings) (k : DimmKey) (found : Option Memdimm) :
    Option Memdimm :=
  let md := found.getD (newMemdimm k now)
  if md.location.isSome then some md
  else d.name.join.map fun name =>
    { md with location := d.bank.join.map String.ofList, name := some (String.ofList name) }

/-- The entries that `get_memdimm` adds. -/
def added : Option Memdimm → ℕ
  | none => 1
  | some _ => 0

/-- What a device does to the database. -/
def viewDevice (now : ℤ) (v : (DimmKey → Option Memdimm) × ℕ) (d : DimmStrings) :
    Option ((DimmKey → Option Memdimm) × ℕ) :=
  if d.bank = none then none
  else
    match keyOf d with
    | none => some v
    | some k => (fillEntry now d k (v.1 k)).map fun md =>
      (Function.update v.1 k (some md), v.2 + added (v.1 k))

section

variable {now : ℤ} {st : PrefillState} {d e : DimmStrings} {ds ds' : List DimmStrings}
  {db : Memdb} {k : DimmKey} {md : Memdimm} {a : DimmAddr}

theorem getMemdimm_eq (db : Memdb) (k : DimmKey) (now : ℤ) :
    (getMemdimm db k now).2 = (db.find k).getD (newMemdimm k now) := by
  unfold getMemdimm
  cases db.find k <;> rfl

/-- `get_memdimm` has the key in the database afterwards. -/
theorem view_getMemdimm (db : Memdb) (k : DimmKey) (now : ℤ) : view (getMemdimm db k now).1 =
    (Function.update db.find k (some ((db.find k).getD (newMemdimm k now))),
      db.mdNumdimms + added (db.find k)) := by
  refine Prod.ext (funext fun k' => ?_) ?_
  · show (getMemdimm db k now).1.find k' = _
    rw [find_getMemdimm, getMemdimm_eq]
    exact (Function.update_apply _ _ _ _).symm
  · show (getMemdimm db k now).1.mdNumdimms = _
    unfold getMemdimm
    cases db.find k <;> rfl

theorem view_set (h : db.find md.key ≠ none) :
    view (db.set md) = (Function.update db.find md.key (some md), db.mdNumdimms) := by
  refine Prod.ext (funext fun k' => ?_) rfl
  show (db.set md).find k' = _
  rw [find_set h]
  exact (Function.update_apply _ _ _ _).symm

/-- A locator that is not of AMI is parsed alike after all other locators. -/
theorem parsedKey_eq {bl : Option (List Char)} (h : ∀ text, bl = some text → ¬ AmiBank text)
    (a a' : DimmAddr) : parsedKey a bl = parsedKey a' bl := by
  cases bl with
  | none => rfl
  | some text =>
    have hdet := determined_of_not_amiBank (h text rfl)
    unfold parsedKey
    by_cases ha : (parseDimmAddr a (some text)).2 = true
    · rw [hdet a a' ha]
    · have ha' : ¬ (parseDimmAddr a' (some text)).2 = true := by
        intro ha'
        rw [hdet a' a ha'] at ha
        exact ha ha'
      rw [if_neg ha, if_neg ha']

/-- The body of the loop, for a device that has its number in the entry. -/
theorem prefillDevice_eq {bl : Option (List Char)} (hbank : d.bank = some bl) :
    prefillDevice now st d =
      if (parseDimmAddr st.addr bl).2 = true then
        if (getMemdimm st.db (parseDimmAddr st.addr bl).1.key now).2.location.isSome = true then
          some ⟨(parseDimmAddr st.addr bl).1,
            (getMemdimm st.db (parseDimmAddr st.addr bl).1.key now).1, st.missed + 1⟩
        else d.name.join.map fun name => ⟨(parseDimmAddr st.addr bl).1,
          (getMemdimm st.db (parseDimmAddr st.addr bl).1.key now).1.set
            { (getMemdimm st.db (parseDimmAddr st.addr bl).1.key now).2 with
              location := bl.map String.ofList, name := some (String.ofList name) }, st.missed⟩
      else some ⟨(parseDimmAddr st.addr bl).1, st.db, st.missed + 1⟩ := by
  rw [prefillDevice, hbank]
  simp only [Option.bind_eq_bind, Option.bind_some, Option.pure_def]
  split_ifs with hparsed hthere
  · rfl
  · cases d.name with
    | none => rfl
    | some name => cases name <;> rfl
  · rfl

/-- A device goes well when its number is in the entry, and when it has a name for an entry that
    is new. -/
theorem prefillDevice_isSome : (prefillDevice now st d).isSome = true ↔
    ∃ bl, d.bank = some bl ∧ ∀ k, parsedKey st.addr bl = some k →
      ((st.db.find k).bind fun md => md.location) = none → d.name.join ≠ none := by
  cases hbank : d.bank with
  | none =>
    rw [prefillDevice, hbank]
    simp
  | some bl =>
    have hlocation : (getMemdimm st.db (parseDimmAddr st.addr bl).1.key now).2.location =
        (st.db.find (parseDimmAddr st.addr bl).1.key).bind fun md => md.location := by
      rw [getMemdimm_eq]
      cases st.db.find (parseDimmAddr st.addr bl).1.key <;> rfl
    have hjust : (∃ bl', some bl = some bl' ∧ ∀ k, parsedKey st.addr bl' = some k →
          ((st.db.find k).bind fun md => md.location) = none → d.name.join ≠ none) ↔
        ∀ k, parsedKey st.addr bl = some k →
          ((st.db.find k).bind fun md => md.location) = none → d.name.join ≠ none :=
      ⟨fun ⟨_, hbl, h⟩ => Option.some.inj hbl ▸ h, fun h => ⟨bl, rfl, h⟩⟩
    rw [hjust, prefillDevice_eq hbank, hlocation, parsedKey]
    split_ifs with hparsed hthere
    · refine iff_of_true rfl fun k hk hnone => ?_
      rw [Option.some.inj hk, hnone] at hthere
      exact absurd hthere Bool.false_ne_true
    · rw [Option.isSome_map, ← Option.ne_none_iff_isSome]
      refine ⟨fun hname k hk _ => hname, fun h => h _ rfl ?_⟩
      exact Option.not_isSome_iff_eq_none.mp hthere
    · exact iff_of_true rfl fun k hk => by cases hk

/-- The entry that is filled has the key, and the database has an entry for it. -/
theorem view_fill {location name : Option String} (db : Memdb) (k : DimmKey) (now : ℤ) :
    view ((getMemdimm db k now).1.set
      { (db.find k).getD (newMemdimm k now) with location := location, name := name }) =
    (Function.update db.find k
      (some { (db.find k).getD (newMemdimm k now) with location := location, name := name }),
      db.mdNumdimms + added (db.find k)) := by
  have hkey := getMemdimm_key db k now
  have hview := view_getMemdimm db k now
  have hfind : (getMemdimm db k now).1.find k ≠ none := by
    rw [find_getMemdimm, if_pos rfl]
    exact Option.some_ne_none _
  rw [view, Prod.mk.injEq] at hview
  rw [← getMemdimm_eq, view_set (by rw [hkey]; exact hfind)]
  dsimp only
  rw [hkey, hview.1, hview.2, Function.update_idem]

theorem viewDevice_of_missed {v : (DimmKey → Option Memdimm) × ℕ} (hbank : d.bank ≠ none)
    (hkey : keyOf d = none) : viewDevice now v d = some v := by
  rw [viewDevice, if_neg hbank, hkey]

theorem viewDevice_of_key {v : (DimmKey → Option Memdimm) × ℕ} (hbank : d.bank ≠ none)
    (hkey : keyOf d = some k) : viewDevice now v d = (fillEntry now d k (v.1 k)).map fun md =>
      (Function.update v.1 k (some md), v.2 + added (v.1 k)) := by
  rw [viewDevice, if_neg hbank, hkey]

theorem fillEntry_of_there {found : Option Memdimm}
    (h : (found.getD (newMemdimm k now)).location.isSome = true) :
    fillEntry now d k found = some (found.getD (newMemdimm k now)) := if_pos h

theorem fillEntry_of_new {found : Option Memdimm}
    (h : ¬ (found.getD (newMemdimm k now)).location.isSome = true) :
    fillEntry now d k found = d.name.join.map fun name =>
      { found.getD (newMemdimm k now) with
        location := d.bank.join.map String.ofList, name := some (String.ofList name) } := if_neg h

/-- A device does to the database what it is, if its locator is not of AMI. -/
theorem map_view_prefillDevice (h : ∀ bl, d.bank = some (some bl) → ¬ AmiBank bl) :
    (prefillDevice now st d).map (fun st => view st.db) = viewDevice now (view st.db) d := by
  cases hbank : d.bank with
  | none =>
    rw [viewDevice, if_pos hbank, prefillDevice, hbank]
    rfl
  | some bl =>
    have hsome : d.bank ≠ none := by rw [hbank]; exact Option.some_ne_none _
    have hjoin : d.bank.join = bl := by rw [hbank]; rfl
    have hkey : keyOf d = parsedKey st.addr bl := by
      rw [keyOf, hjoin]
      exact parsedKey_eq (fun text htext => h text (by rw [hbank, htext])) _ _
    rw [parsedKey] at hkey
    rw [prefillDevice_eq hbank, getMemdimm_eq]
    split_ifs at hkey ⊢ with hparsed hthere
    · have hentry := fillEntry_of_there (d := d) hthere
      rw [viewDevice_of_key hsome hkey, Option.map_some, view_getMemdimm, view]
      dsimp only
      rw [hentry, Option.map_some]
    · have hentry := fillEntry_of_new (d := d) hthere
      rw [viewDevice_of_key hsome hkey, Option.map_map, view]
      dsimp only
      rw [hentry, Option.map_map, hjoin]
      exact congrArg (fun f => d.name.join.map f) (funext fun name => view_fill _ _ _)
    · rw [viewDevice_of_missed hsome hkey]
      rfl

/-- The loop does one update after the other. -/
theorem map_view_prefillDevices (h : NoAmiBank ds) :
    (prefillDevices now st ds).map (fun st => view st.db) =
      ds.foldlM (viewDevice now) (view st.db) := by
  induction ds generalizing st with
  | nil => rfl
  | cons d ds ih =>
    have hstep : (prefillDevice now st d).map (fun st => view st.db) =
        viewDevice now (view st.db) d :=
      map_view_prefillDevice (h d List.mem_cons_self)
    rw [prefillDevices, List.foldlM_cons, List.foldlM_cons, ← hstep]
    cases prefillDevice now st d with
    | none => rfl
    | some st' => exact ih fun d' hd' => h d' (List.mem_cons_of_mem _ hd')

/-! ## Reordering the updates -/

/-- A device at which the loop stops stops it in both orders. -/
theorem viewDevice_comm_of_fault (hd : d.bank = none) (v : (DimmKey → Option Memdimm) × ℕ) :
    (viewDevice now v d).bind (viewDevice now · e) =
      (viewDevice now v e).bind (viewDevice now · d) := by
  have hfault : ∀ v, viewDevice now v d = none := fun v => if_pos hd
  rw [hfault, Option.bind_none]
  cases viewDevice now v e with
  | none => rfl
  | some v' => exact (hfault v').symm

/-- A device without a key does nothing in both orders. -/
theorem viewDevice_comm_of_missed (hd : d.bank ≠ none) (hkey : keyOf d = none)
    (v : (DimmKey → Option Memdimm) × ℕ) :
    (viewDevice now v d).bind (viewDevice now · e) =
      (viewDevice now v e).bind (viewDevice now · d) := by
  rw [viewDevice_of_missed hd hkey, Option.bind_some]
  cases viewDevice now v e with
  | none => rfl
  | some v' => rw [Option.bind_some, viewDevice_of_missed hd hkey]

/-- Two keys: each device finds at its own key what was there before the other. -/
theorem viewDevice_comm_of_keys {k' : DimmKey} (hd : d.bank ≠ none) (he : e.bank ≠ none)
    (hdkey : keyOf d = some k) (hekey : keyOf e = some k') (hne : k' ≠ k)
    (v : (DimmKey → Option Memdimm) × ℕ) :
    (viewDevice now v d).bind (viewDevice now · e) =
      (viewDevice now v e).bind (viewDevice now · d) := by
  rw [viewDevice_of_key hd hdkey, viewDevice_of_key he hekey]
  cases hfd : fillEntry now d k (v.1 k) with
  | none =>
    cases fillEntry now e k' (v.1 k') with
    | none => rfl
    | some md' =>
      rw [Option.map_none, Option.bind_none, Option.map_some, Option.bind_some,
        viewDevice_of_key hd hdkey]
      dsimp only
      rw [Function.update_of_ne (Ne.symm hne), hfd, Option.map_none]
  | some md =>
    rw [Option.map_some, Option.bind_some, viewDevice_of_key he hekey]
    dsimp only
    rw [Function.update_of_ne hne]
    cases fillEntry now e k' (v.1 k') with
    | none => rfl
    | some md' =>
      rw [Option.map_some, Option.map_some, Option.bind_some, viewDevice_of_key hd hdkey]
      dsimp only
      rw [Function.update_of_ne (Ne.symm hne), hfd, Option.map_some, Function.update_comm hne,
        Nat.add_right_comm]

/-- Devices with different keys can change places. -/
theorem viewDevice_comm (hkeys : ∀ k, keyOf d = some k → keyOf e ≠ some k)
    (v : (DimmKey → Option Memdimm) × ℕ) :
    (viewDevice now v d).bind (viewDevice now · e) =
      (viewDevice now v e).bind (viewDevice now · d) := by
  by_cases hd : d.bank = none
  · exact viewDevice_comm_of_fault hd v
  by_cases he : e.bank = none
  · exact (viewDevice_comm_of_fault he v).symm
  cases hdkey : keyOf d with
  | none => exact viewDevice_comm_of_missed hd hdkey v
  | some k =>
    cases hekey : keyOf e with
    | none => exact (viewDevice_comm_of_missed he hekey v).symm
    | some k' =>
      have hne : k' ≠ k := fun heq => hkeys k hdkey (heq ▸ hekey)
      exact viewDevice_comm_of_keys hd he hdkey hekey hne v

/-- The keys of the run are the keys of the devices. -/
theorem resultingKeys_eq (h : NoAmiBank ds) (a : DimmAddr) :
    resultingKeys a ds = ds.filterMap keyOf := by
  induction ds generalizing a with
  | nil => rfl
  | cons d ds ih =>
    have hkey : parsedKey a d.bank.join = keyOf d := by
      refine parsedKey_eq (fun text htext => h d List.mem_cons_self text ?_) _ _
      exact Option.join_eq_some_iff.mp htext
    have hrest := ih (fun d' hd' => h d' (List.mem_cons_of_mem _ hd'))
      (parseDimmAddr a d.bank.join).1
    rw [parsedKey] at hkey
    rw [List.filterMap_cons, ← hkey, ← hrest]
    show (if (parseDimmAddr a d.bank.join).2 = true then [(parseDimmAddr a d.bank.join).1.key]
      else []) ++ resultingKeys (parseDimmAddr a d.bank.join).1 ds = _
    split_ifs <;> rfl

/-- Devices with different keys build the same database in every order. -/
theorem prefillDevices_perm (h : NoAmiBank ds) (hperm : ds'.Perm ds) {st' : PrefillState}
    (hdb : st'.db = st.db) (hkeys : (ds.filterMap keyOf).Nodup) :
    (prefillDevices now st' ds').map (fun st => view st.db) =
      (prefillDevices now st ds).map (fun st => view st.db) := by
  have h' : NoAmiBank ds' := fun d hd => h d (hperm.mem_iff.mp hd)
  rw [map_view_prefillDevices h, map_view_prefillDevices h', hdb]
  have hpair := List.pairwise_filterMap.mp hkeys
  have hsymm : Std.Symm fun d e : DimmStrings =>
      ∀ k, keyOf d = some k → ∀ k', keyOf e = some k' → k ≠ k' :=
    ⟨fun d e hde k hk k' hk' => Ne.symm (hde k' hk' k hk)⟩
  refine foldlM_perm hperm (fun d hd e he v => ?_) _
  by_cases hde : d = e
  · rw [hde]
  · have hne := hpair.forall (hperm.mem_iff.mp hd) (hperm.mem_iff.mp he) hde
    exact viewDevice_comm (fun k hk hk' => hne k hk k hk' rfl) v

/-- **Prefilling depends on each entry.** The numbers of the locators are determined by the
    locators, and devices with different keys build the same database in every order, exactly
    where no locator has a format of AMI. -/
theorem prefill_by_entries_iff (ds : List DimmStrings) : ByEntries ds ↔ NoAmiBank ds := by
  constructor
  · intro h d hd bl hbank
    exact determined_iff.mp (h.determined d hd bl hbank)
  · intro h
    refine ⟨fun d hd bl hbank => determined_iff.mpr (h d hd bl hbank), ?_⟩
    intro now addr addr' db missed missed' ds' hperm hkeys
    rw [resultingKeys_eq h] at hkeys
    exact prefillDevices_perm h hperm rfl hkeys

/-- A device that sets all numbers. -/
def channelFive : DimmStrings :=
  ⟨some (some "NODE 0 CHANNEL 5 DIMM 0".toList), some (some "DIMM0".toList)⟩

/-- A device that does not set the channel. -/
def bankZero : DimmStrings := ⟨some (some "Node1_Bank0".toList), some (some "DIMM1".toList)⟩

/-- The channel of the one is taken over by the other if it comes first. -/
theorem channel_of_the_device_before :
    (resultingKeys ⟨0, 0, 0⟩ [channelFive, bankZero]).Nodup ∧
    (prefillDevices 0 ⟨⟨0, 0, 0⟩, .empty, 0⟩ [channelFive, bankZero]).map (fun st => view st.db) ≠
      (prefillDevices 0 ⟨⟨0, 0, 0⟩, .empty, 0⟩ [bankZero, channelFive]).map
        (fun st => view st.db) ∧
    ¬ ByEntries [channelFive, bankZero] := by
  have hdiffer : (prefillDevices 0 ⟨⟨0, 0, 0⟩, .empty, 0⟩ [channelFive, bankZero]).map
        (fun st => view st.db) ≠
      (prefillDevices 0 ⟨⟨0, 0, 0⟩, .empty, 0⟩ [bankZero, channelFive]).map
        (fun st => view st.db) := by
    intro heq
    have hfound := congrArg (fun r => r.map fun v => (v.1 ⟨1, 5, 0⟩).isSome) heq
    revert hfound
    decide
  have hkeys : (resultingKeys ⟨0, 0, 0⟩ [channelFive, bankZero]).Nodup := by decide
  refine ⟨hkeys, hdiffer, fun h => ?_⟩
  have hswap : [bankZero, channelFive].Perm [channelFive, bankZero] := List.Perm.swap _ _ _
  exact hdiffer (h.order 0 ⟨0, 0, 0⟩ ⟨0, 0, 0⟩ .empty 0 0 _ hswap hkeys).symm

end

end Mcelog.Dmi
