import Mcelog.Page.Lru
import Mcelog.Page.Map

/-!
# When a page is offlined

The page trigger and the offline attempts over the life of one page counter.

* `PageCall`, `callsOn`: the calls of a run that charge a counter, and what each did.
* `Responds`: what a call does, as a function of the counter that it finds.
* `OffliningLaw`: which overflows of the bucket trigger and attempt to offline.
* `page_offlining_law`: the calls of every run on a counter, from the one that hands
  it out until it is handed out again, follow the law.
-/

namespace Mcelog.Page

open Mcelog.Bucket Mcelog.Common Mcelog.Machine Mcelog.Memory

/-! ## The calls on a counter -/

/-- The page trigger (page.c:368). -/
def isPageTrigger : Effect → Bool
  | .memdbTrigger run => run.reporter == "page"
  | .counterTrigger _ | .sysfsWrite .. | .memoryOffline .. => false

/-- The result of an offline attempt. -/
def offlineResult : Effect → Option Bool
  | .memoryOffline _ ok => some ok
  | .memdbTrigger _ | .counterTrigger _ | .sysfsWrite .. => none

/-- A call that charged a certain counter. -/
structure PageCall where
  e : PageEvent
  /-- `mempage_lookup` found the counter; else it was handed out by this call -/
  found : Bool
  /-- the bucket of the counter overflowed -/
  overflow : Bool
  effects : List Effect

/-- How often the page trigger fired. -/
def PageCall.pageTriggers (call : PageCall) : ℕ := call.effects.countP isPageTrigger

/-- The results of the offline attempts. -/
def PageCall.attempts (call : PageCall) : List Bool := call.effects.filterMap offlineResult

/-- `__bucket_account` of the call returns true (page.c:356). -/
def callOverflow (rb : Rebalance Slot) (c : PageConf) (s : Store) (e : PageEvent) : Bool :=
  match findCounter rb c s (pageOf e.m.addr) (timeT e.m) e.now with
  | some (s, sl, _) => (s.mp sl).overflows c e
  | none => false

/-- One `account_page_error`, observed at the counter `sl`. -/
def callStep (rb : Rebalance Slot) (c : PageConf) (cputype : CpuType) (sl : Slot) :
    Option (Memdb × Store) → PageEvent → Option (Memdb × Store) × Option PageCall
  | none, _ => (none, none)
  | some (db, s), e =>
    let (st, out) := pageStep rb c cputype (some (db, s)) e
    (st, if out.charged = some sl then
      some { e := e, found := (mempageLookup s (pageOf e.m.addr)).isSome
             overflow := callOverflow rb c s e, effects := out.effects }
      else none)

/-- The calls of a run that charge the counter `sl`. -/
def callsOn (rb : Rebalance Slot) (c : PageConf) (cputype : CpuType) (sl : Slot)
    (st : Option (Memdb × Store)) (es : List PageEvent) : List PageCall :=
  (runOut (callStep rb c cputype sl) st es).reduceOption

/-- The first call hands the counter out, and no later one does: it is not replaced. -/
def OneLife : List PageCall → Prop
  | [] => True
  | call :: calls => call.found = false ∧ ∀ later ∈ calls, later.found = true

instance : DecidablePred OneLife
  | [] => isTrue trivial
  | _ :: _ => inferInstanceAs (Decidable (_ ∧ _))

/-! ## The law -/

/-- The call fires the page trigger once and attempts once to offline the page if `P`,
    and does neither if not. -/
def PageCall.ActsIff (call : PageCall) (P : Prop) : Prop :=
  (P → call.pageTriggers = 1 ∧ call.attempts.length = 1) ∧
    (¬ P → call.pageTriggers = 0 ∧ call.attempts = [])

/-- When a page is triggered and offlined. -/
structure OffliningLaw (c : PageConf) (calls : List PageCall) : Prop where
  /-- only counting: each overflow triggers, none offlines -/
  account : c.offline = .account → ∀ call ∈ calls,
    call.pageTriggers = (if call.overflow then 1 else 0) ∧ call.attempts = []
  /-- without retries: the first overflow only -/
  noRetry : c.offline = .soft ∨ c.offline = .hard ∨ c.offline = .softThenHard →
    c.offlineRetryBackoffBase = 1 → ∀ (i : ℕ) (call : PageCall), calls[i]? = some call →
      call.ActsIff (call.overflow = true ∧ ∀ prev ∈ calls.take i, prev.overflow = false)
  /-- with retries: every overflow up to the first success -/
  retry : c.offline = .soft ∨ c.offline = .hard ∨ c.offline = .softThenHard →
    c.offlineRetryBackoffBase = 2 → ∀ (i : ℕ) (call : PageCall), calls[i]? = some call →
      call.ActsIff (call.overflow = true ∧ ∀ prev ∈ calls.take i, true ∉ prev.attempts)
  /-- the hard file is the second choice -/
  hardLast : c.offline = .softThenHard → ∀ call ∈ calls, ∀ addr,
    .sysfsWrite (kernelOffline .hard) addr ∈ call.effects → call.e.sysfs .soft = false

/-! ## One call -/

/-- The page is to be offlined, and not only counted. -/
def PageConf.Offlines (c : PageConf) : Prop := ¬ (c.offline = .off ∨ c.offline = .account)

instance (c : PageConf) : Decidable c.Offlines := inferInstanceAs (Decidable (¬ _))

/-- What a call does that charges the counter `mp`. -/
structure Responds (c : PageConf) (mp : Mempage) (call : PageCall) : Prop where
  overflow : call.overflow = mp.overflows c call.e
  acts : mp.overflows c call.e = true ∧ ¬ mp.Settled c → call.pageTriggers = 1
  rests : ¬ (mp.overflows c call.e = true ∧ ¬ mp.Settled c) →
    call.pageTriggers = 0 ∧ call.attempts = []
  attempts : mp.overflows c call.e = true ∧ ¬ mp.Settled c → c.Offlines →
    call.attempts = [(memoryOffline c.offline call.e.sysfs (pageOf call.e.m.addr)).1]
  noAttempts : ¬ c.Offlines → call.attempts = []
  hardLast : c.offline = .softThenHard → ∀ addr,
    .sysfsWrite (kernelOffline .hard) addr ∈ call.effects → call.e.sysfs .soft = false

section Effects

variable {c : PageConf}

theorem memoryOffline_effects (offline : OType) (sysfs : OType → Bool) (addr : UInt64) :
    (memoryOffline offline sysfs addr).2.countP isPageTrigger = 0 ∧
      (memoryOffline offline sysfs addr).2.filterMap offlineResult = [] ∧
      (offline = .softThenHard → ∀ a,
        .sysfsWrite (kernelOffline .hard) a ∈ (memoryOffline offline sysfs addr).2 →
          sysfs .soft = false) := by
  unfold memoryOffline
  split_ifs with hoff hsoft
  · refine ⟨rfl, rfl, fun _ a hmem => ?_⟩
    exact absurd (List.mem_singleton.mp hmem) (by simp [kernelOffline])
  · exact ⟨rfl, rfl, fun _ _ _ => by simpa using hsoft⟩
  · exact ⟨rfl, rfl, fun h => absurd h hoff⟩

/-- The effects of `offline_action`: one attempt, if the page is to be offlined. -/
theorem offlineAction_effects (c : PageConf) (sysfs : OType → Bool) (mp : Mempage)
    (addr : UInt64) :
    (offlineAction c sysfs mp addr).2.countP isPageTrigger = 0 ∧
      (c.Offlines → (offlineAction c sysfs mp addr).2.filterMap offlineResult =
        [(memoryOffline c.offline sysfs addr).1]) ∧
      (¬ c.Offlines → (offlineAction c sysfs mp addr).2 = []) ∧
      (c.offline = .softThenHard → ∀ a,
        .sysfsWrite (kernelOffline .hard) a ∈ (offlineAction c sysfs mp addr).2 →
          sysfs .soft = false) := by
  obtain ⟨hcount, hresults, hhard⟩ := memoryOffline_effects c.offline sysfs addr
  by_cases hoff : c.offline = .off ∨ c.offline = .account
  · rw [offlineAction, if_pos hoff]
    exact ⟨rfl, fun h => absurd hoff h, fun _ => rfl, fun _ _ hmem => absurd hmem List.not_mem_nil⟩
  · rw [offlineAction, if_neg hoff]
    generalize memoryOffline c.offline sysfs addr = p at hcount hresults hhard ⊢
    obtain ⟨ok, effects⟩ := p
    dsimp only at hcount hresults hhard
    refine ⟨?_, fun _ => ?_, fun h => absurd hoff h, fun hsth a hmem => ?_⟩
    · cases ok <;> simp [List.countP_append, hcount, isPageTrigger]
    · cases ok <;> simp [hresults, offlineResult]
    · refine hhard hsth a ?_
      cases ok <;> simpa using hmem

/-- The effects of the page trigger on a counter that is not settled. -/
theorem pageTriggered_effects {s : Store} {sl : Slot} (db : Memdb) (addr : UInt64)
    (e : PageEvent) (h : ¬ (s.mp sl).Settled c) :
    (pageTriggered c db s sl addr e).2.2.countP isPageTrigger = 1 ∧
      (c.Offlines → (pageTriggered c db s sl addr e).2.2.filterMap offlineResult =
        [(memoryOffline c.offline e.sysfs addr).1]) ∧
      (¬ c.Offlines → (pageTriggered c db s sl addr e).2.2.filterMap offlineResult = []) ∧
      (c.offline = .softThenHard → ∀ a,
        .sysfsWrite (kernelOffline .hard) a ∈ (pageTriggered c db s sl addr e).2.2 →
          e.sysfs .soft = false) := by
  obtain ⟨hcount, hresults, hnone, hhard⟩ :=
    offlineAction_effects c e.sysfs { s.mp sl with triggered := true } addr
  unfold pageTriggered
  dsimp only
  split_ifs with hdone hsoft
  · exact absurd hdone h
  · refine ⟨?_, fun hoff => ?_, fun hoff => ?_, fun hsth a hmem => ?_⟩
    · simp [List.countP_append, hcount, isPageTrigger, memdbTrigger]
    · simp only [List.cons_append, List.nil_append, List.filterMap_cons, List.filterMap_append,
        List.filterMap_nil, List.append_nil, offlineResult]
      exact hresults hoff
    · simp [List.filterMap_cons, hnone hoff, offlineResult]
    · refine hhard hsth a ?_
      simpa using hmem
  · refine ⟨?_, fun hoff => ?_, fun hoff => ?_, fun hsth a hmem => ?_⟩
    · simp [hcount, isPageTrigger, memdbTrigger]
    · simp only [List.filterMap_cons, offlineResult]
      exact hresults hoff
    · simp [List.filterMap_cons, hnone hoff, offlineResult]
    · refine hhard hsth a ?_
      simpa using hmem

end Effects

/-- The state of the page after the error. -/
theorem charge_offlined (c : PageConf) (e : PageEvent) (mp : Mempage) :
    (mp.charge c e).offlined =
      if (mp.overflows c e = true ∧ ¬ mp.Settled c) ∧ c.Offlines then
        if (memoryOffline c.offline e.sysfs (pageOf e.m.addr)).1 then .offline else .offlineFailed
      else mp.offlined := by
  unfold Mempage.charge
  by_cases hacts : mp.overflows c e = true ∧ ¬ mp.Settled c
  · rw [if_pos hacts]
    by_cases hoff : c.offline = .off ∨ c.offline = .account
    · rw [offlineAction, if_pos hoff, if_neg fun h => h.2 hoff]
      rfl
    · rw [offlineAction, if_neg hoff, if_pos ⟨hacts, hoff⟩]
      generalize memoryOffline c.offline e.sysfs (pageOf e.m.addr) = p
      obtain ⟨ok, effects⟩ := p
      cases ok <;> rfl
  · rw [if_neg hacts, if_neg fun h => hacts h.1]
    rfl

section Call

variable {rb : Rebalance Slot} {c : PageConf} {cputype : CpuType} {s s₁ : Store} {sl : Slot}
  {e : PageEvent}

/-- What a call does to the counter that it finds or hands out. -/
theorem responds_of_findCounter {runs : List Effect} (c : PageConf) (db : Memdb) (s₁ : Store)
    (sl : Slot) (e : PageEvent) (found : Bool)
    (hruns : ∀ effect ∈ runs, ∃ run, effect = Effect.counterTrigger run) :
    Responds c (s₁.mp sl)
      { e := e, found := found, overflow := (s₁.mp sl).overflows c e
        effects := runs ++ if (s₁.mp sl).overflows c e = true then
          (pageTriggered c db (s₁.update sl (Mempage.count c e)) sl (pageOf e.m.addr) e).2.2
          else [] } := by
  have hcount : runs.countP isPageTrigger = 0 := by
    rw [List.countP_eq_zero]
    intro effect hmem
    obtain ⟨run, rfl⟩ := hruns effect hmem
    exact Bool.false_ne_true
  have hresults : runs.filterMap offlineResult = [] := by
    rw [List.filterMap_eq_nil_iff]
    intro effect hmem
    obtain ⟨run, rfl⟩ := hruns effect hmem
    rfl
  have hwrites : ∀ a, Effect.sysfsWrite (kernelOffline .hard) a ∉ runs := by
    intro a hmem
    obtain ⟨run, hrun⟩ := hruns _ hmem
    cases hrun
  have hsettled : ((s₁.update sl (Mempage.count c e)).mp sl).Settled c ↔ (s₁.mp sl).Settled c := by
    rw [update_mp_self]
    rfl
  by_cases hacts : (s₁.mp sl).overflows c e = true ∧ ¬ (s₁.mp sl).Settled c
  · obtain ⟨hone, hoff, hnone, hhard⟩ :=
      pageTriggered_effects db (pageOf e.m.addr) e (fun h => hacts.2 (hsettled.mp h))
    rw [if_pos hacts.1]
    refine ⟨rfl, fun _ => ?_, fun h => absurd hacts h, fun _ h => ?_, fun h => ?_,
      fun hsth a hmem => ?_⟩
    · rw [PageCall.pageTriggers, List.countP_append, hcount, hone]
    · rw [PageCall.attempts, List.filterMap_append, hresults, hoff h]
      rfl
    · rw [PageCall.attempts, List.filterMap_append, hresults, hnone h]
      rfl
    · exact hhard hsth a ((List.mem_append.mp hmem).resolve_left (hwrites a))
  · have heffects : (if (s₁.mp sl).overflows c e = true then
        (pageTriggered c db (s₁.update sl (Mempage.count c e)) sl (pageOf e.m.addr) e).2.2
        else []) = [] := by
      split_ifs with hover
      · have hdone : (s₁.mp sl).Settled c := by
          by_contra hno
          exact hacts ⟨hover, hno⟩
        rw [pageTriggered_of_settled _ _ _ (hsettled.mpr hdone)]
      · rfl
    rw [heffects, List.append_nil]
    exact ⟨rfl, fun h => absurd h hacts, fun _ => ⟨hcount, hresults⟩, fun h => absurd h hacts,
      fun _ => hresults, fun _ a hmem => absurd hmem (hwrites a)⟩

theorem callStep_of_account {db : Memdb} {r : AccountResult}
    (h : accountPageError rb c cputype db s e = some r) (sl : Slot) :
    callStep rb c cputype sl (some (db, s)) e = (some (r.db, r.store),
      if r.charged = some sl then
        some { e := e, found := (mempageLookup s (pageOf e.m.addr)).isSome
               overflow := callOverflow rb c s e, effects := r.effects }
      else none) := by
  simp [callStep, pageStep, h]

/-- One call of a run, observed at the counter `sl`: it leaves the counter alone, or
    charges it. A counter that was not found is a fresh one. -/
theorem callStep_spec (rb : Rebalance Slot) (cputype : CpuType) (db : Memdb) (sl : Slot)
    (e : PageEvent) (h : MapInv c s)
    (hmul : ∃ q : ℕ, 0 < q ∧ c.maxCorrErrCounters = q * N) :
    ∃ db' s', (callStep rb c cputype sl (some (db, s)) e).1 = some (db', s') ∧ MapInv c s' ∧
      (((callStep rb c cputype sl (some (db, s)) e).2 = none ∧ s'.mp sl = s.mp sl) ∨
        ∃ mp call, (callStep rb c cputype sl (some (db, s)) e).2 = some call ∧
          (call.found = true → mp = s.mp sl) ∧
          (call.found = false → mp = .fresh (pageOf e.m.addr) e.now) ∧
          s'.mp sl = mp.charge c call.e ∧ Responds c mp call) := by
  cases hacc : accountsPage c cputype e.m with
  | false =>
    rw [callStep_of_account (accountPageError_of_not_accounts hacc)]
    exact ⟨db, s, rfl, h, Or.inl ⟨by simp, rfl⟩⟩
  | true =>
    obtain ⟨s₁, sl', runs, hfind, hinv, hfound, -, hmem⟩ :=
      h.findCounter rb (timeT e.m) e.now hmul (pageOf_pageOf e.m.addr)
    obtain ⟨db', hcall⟩ := accountPageError_of_findCounter db hacc hfind
    obtain ⟨hmp, hruns⟩ := findCounter_mp hfind
    have hover : callOverflow rb c s e = (s₁.mp sl').overflows c e := by
      rw [callOverflow, hfind]
    have hinv' := hinv.update ((hmem sl').mpr (Or.inl rfl)) (charge_addr c e (s₁.mp sl'))
    have hresponds := responds_of_findCounter c db s₁ sl' e
      (mempageLookup s (pageOf e.m.addr)).isSome hruns
    rw [callStep_of_account hcall]
    dsimp only
    refine ⟨db', _, rfl, hinv', ?_⟩
    by_cases hsl : sl' = sl
    · subst hsl
      have hcharged : (s₁.update sl' (Mempage.charge c e)).mp sl' = (s₁.mp sl').charge c e :=
        update_mp_self _
      rw [if_pos rfl, hover]
      refine Or.inr ⟨s₁.mp sl', _, rfl, ?_, ?_, hcharged, hresponds⟩
      · intro hsome
        rcases hmp with ⟨-, heq⟩ | ⟨hnone, -⟩
        · rw [heq]
        · rw [hnone] at hsome
          cases hsome
      · intro hnone
        cases hfound with
        | hit hsome =>
          rw [pageMap, Option.map_eq_some_iff] at hsome
          obtain ⟨tl, htl, -⟩ := hsome
          rw [htl] at hnone
          cases hnone
        | new _ _ hfresh => exact hfresh
        | recycled _ _ _ hfresh => exact hfresh
    · left
      have hne : sl ≠ sl' := fun heq => hsl heq.symm
      refine ⟨by simp [hsl], ?_⟩
      rw [update_mp_of_ne _ hne]
      rcases hmp with ⟨-, heq⟩ | ⟨-, -, heq⟩
      · rw [heq]
      · exact heq sl hne

end Call

/-! ## The life of a counter -/

/-- The calls are those on a counter that starts as `mp`. -/
def Chain (c : PageConf) : Mempage → List PageCall → Prop
  | _, [] => True
  | mp, call :: calls => Responds c mp call ∧ Chain c (mp.charge c call.e) calls

section Life

variable {rb : Rebalance Slot} {c : PageConf} {cputype : CpuType} {sl : Slot}
  {mp : Mempage} {calls : List PageCall}

/-- While the counter is found, the calls on it are a chain. -/
theorem chain_of_found (hmul : ∃ q : ℕ, 0 < q ∧ c.maxCorrErrCounters = q * N)
    (es : List PageEvent) : ∀ (db : Memdb) (s : Store), MapInv c s →
      (∀ call ∈ callsOn rb c cputype sl (some (db, s)) es, call.found = true) →
      Chain c (s.mp sl) (callsOn rb c cputype sl (some (db, s)) es) := by
  induction es with
  | nil =>
    intro db s _ _
    trivial
  | cons e es ih =>
    intro db s h hfound
    obtain ⟨db', s', hst, hinv, hcase⟩ := callStep_spec rb cputype db sl e h hmul
    unfold callsOn at hfound ⊢
    rw [runOut_cons, hst] at hfound ⊢
    rcases hcase with ⟨hnone, hmp⟩ | ⟨mp, call, hsome, hold, -, hmp, hresponds⟩
    · rw [hnone, List.reduceOption_cons_of_none] at hfound ⊢
      rw [← hmp]
      exact ih db' s' hinv hfound
    · rw [hsome, List.reduceOption_cons_of_some] at hfound ⊢
      obtain rfl := hold (hfound call List.mem_cons_self)
      refine ⟨hresponds, ?_⟩
      rw [← hmp]
      exact ih db' s' hinv fun later hlater => hfound later (List.mem_cons_of_mem _ hlater)

/-- The calls on a counter from the one that hands it out are those on a counter that
    starts online. -/
theorem chain_of_oneLife (hmul : ∃ q : ℕ, 0 < q ∧ c.maxCorrErrCounters = q * N)
    (es : List PageEvent) : ∀ (db : Memdb) (s : Store), MapInv c s →
      OneLife (callsOn rb c cputype sl (some (db, s)) es) →
      ∃ mp : Mempage, mp.offlined = .online ∧
        Chain c mp (callsOn rb c cputype sl (some (db, s)) es) := by
  induction es with
  | nil =>
    intro db s _ _
    exact ⟨.fresh 0 0, rfl, trivial⟩
  | cons e es ih =>
    intro db s h hlife
    obtain ⟨db', s', hst, hinv, hcase⟩ := callStep_spec rb cputype db sl e h hmul
    unfold callsOn at hlife ⊢
    rw [runOut_cons, hst] at hlife ⊢
    rcases hcase with ⟨hnone, -⟩ | ⟨mp, call, hsome, -, hnew, hmp, hresponds⟩
    · rw [hnone, List.reduceOption_cons_of_none] at hlife ⊢
      exact ih db' s' hinv hlife
    · rw [hsome, List.reduceOption_cons_of_some] at hlife ⊢
      obtain rfl := hnew hlife.1
      refine ⟨_, rfl, hresponds, ?_⟩
      rw [← hmp]
      exact chain_of_found hmul es db' s' hinv hlife.2

/-! ## What a chain of calls does -/

theorem Chain.account (hacc : c.offline = .account) (h : Chain c mp calls)
    (honline : mp.offlined = .online) : ∀ call ∈ calls,
      call.pageTriggers = (if call.overflow then 1 else 0) ∧ call.attempts = [] := by
  induction calls generalizing mp with
  | nil => exact fun _ hmem => nomatch hmem
  | cons call calls ih =>
    obtain ⟨hresponds, hrest⟩ := h
    have hoff : ¬ c.Offlines := fun hoff => hoff (Or.inr hacc)
    have hsettled : ¬ mp.Settled c := by simp [Mempage.Settled, honline]
    have hnext : (mp.charge c call.e).offlined = .online := by
      rw [charge_offlined, if_neg fun hc => hoff hc.2, honline]
    intro other hmem
    rcases List.mem_cons.mp hmem with rfl | hmem
    · refine ⟨?_, hresponds.noAttempts hoff⟩
      rw [hresponds.overflow]
      split_ifs with hover
      · exact hresponds.acts ⟨hover, hsettled⟩
      · exact (hresponds.rests fun hc => hover hc.1).1
    · exact ih hrest hnext other hmem

/-- A call acts exactly if the bucket overflows and the page is not settled. -/
theorem Responds.actsIff {call : PageCall} (h : Responds c mp call) (hoff : c.Offlines)
    {P : Prop} (hP : P ↔ mp.overflows c call.e = true ∧ ¬ mp.Settled c) : call.ActsIff P := by
  refine ⟨fun hp => ⟨h.acts (hP.mp hp), ?_⟩, fun hp => h.rests fun hc => hp (hP.mpr hc)⟩
  rw [h.attempts (hP.mp hp) hoff]
  rfl

/-- Without retries a page that is still online has seen no overflow. -/
theorem Chain.noRetry (hoff : c.Offlines) (hbase : c.offlineRetryBackoffBase = 1)
    (h : Chain c mp calls) (i : ℕ) (call : PageCall) (hi : calls[i]? = some call) :
    call.ActsIff (mp.offlined = .online ∧ call.overflow = true ∧
      ∀ prev ∈ calls.take i, prev.overflow = false) := by
  induction calls generalizing mp i with
  | nil => cases hi
  | cons first calls ih =>
    obtain ⟨hresponds, hrest⟩ := h
    have hsettled : mp.Settled c ↔ mp.offlined ≠ .online := by simp [Mempage.Settled, hbase]
    cases i with
    | zero =>
      obtain rfl : first = call := Option.some.inj hi
      refine hresponds.actsIff hoff ?_
      rw [hresponds.overflow, hsettled, not_not]
      simp [and_comm]
    | succ i =>
      have hnext : (mp.charge c first.e).offlined = .online ↔
          mp.offlined = .online ∧ first.overflow = false := by
        rw [charge_offlined, hresponds.overflow]
        split_ifs with hacts hok
        · simp [hacts.1.1]
        · simp [hacts.1.1]
        · refine ⟨fun honline => ⟨honline, ?_⟩, And.left⟩
          by_contra hover
          refine hacts ⟨⟨by simpa using hover, ?_⟩, hoff⟩
          rw [hsettled, not_not]
          exact honline
      have hlater := ih hrest i hi
      rw [hnext] at hlater
      simpa only [List.take_succ_cons, List.forall_mem_cons, and_assoc, and_left_comm] using hlater

/-- With retries a page that is not offline has seen no success. -/
theorem Chain.retry (hoff : c.Offlines) (hbase : c.offlineRetryBackoffBase = 2)
    (h : Chain c mp calls) (i : ℕ) (call : PageCall) (hi : calls[i]? = some call) :
    call.ActsIff (mp.offlined ≠ .offline ∧ call.overflow = true ∧
      ∀ prev ∈ calls.take i, true ∉ prev.attempts) := by
  induction calls generalizing mp i with
  | nil => cases hi
  | cons first calls ih =>
    obtain ⟨hresponds, hrest⟩ := h
    have hsettled : mp.Settled c ↔ mp.offlined = .offline := by simp [Mempage.Settled, hbase]
    cases i with
    | zero =>
      obtain rfl : first = call := Option.some.inj hi
      refine hresponds.actsIff hoff ?_
      rw [hresponds.overflow, hsettled]
      simp [and_comm]
    | succ i =>
      have hnext : (mp.charge c first.e).offlined ≠ .offline ↔
          mp.offlined ≠ .offline ∧ true ∉ first.attempts := by
        rw [charge_offlined]
        by_cases hacts : mp.overflows c first.e = true ∧ ¬ mp.Settled c
        · rw [if_pos ⟨hacts, hoff⟩, hresponds.attempts hacts hoff]
          have honline := mt hsettled.mpr hacts.2
          split_ifs with hok
          · simp [hok]
          · simp [hok, honline]
        · rw [if_neg fun hc => hacts hc.1, (hresponds.rests hacts).2]
          simp
      have hlater := ih hrest i hi
      rw [hnext] at hlater
      simpa only [List.take_succ_cons, List.forall_mem_cons, and_assoc, and_left_comm] using hlater

theorem Chain.hardLast (hsth : c.offline = .softThenHard) (h : Chain c mp calls) :
    ∀ call ∈ calls, ∀ addr, .sysfsWrite (kernelOffline .hard) addr ∈ call.effects →
      call.e.sysfs .soft = false := by
  induction calls generalizing mp with
  | nil => exact fun _ hmem => nomatch hmem
  | cons first calls ih =>
    intro call hmem
    rcases List.mem_cons.mp hmem with rfl | hmem
    · exact h.1.hardLast hsth
    · exact ih h.2 call hmem

/-- The calls on a counter that starts online follow the law. -/
theorem Chain.offliningLaw (mp : Mempage) (h : Chain c mp calls) (honline : mp.offlined = .online) :
    OffliningLaw c calls := by
  have hoffs : c.offline = .soft ∨ c.offline = .hard ∨ c.offline = .softThenHard → c.Offlines := by
    rintro (hc | hc | hc) <;> simp [PageConf.Offlines, hc]
  refine ⟨fun hacc => h.account hacc honline, fun hact hbase i call hi => ?_,
    fun hact hbase i call hi => ?_, fun hsth => h.hardLast hsth⟩
  · simpa [honline] using h.noRetry (hoffs hact) hbase i call hi
  · simpa [honline] using h.retry (hoffs hact) hbase i call hi

end Life

/-! ## Whole runs -/

/-- Without room for a counter the daemon has none, or has crashed. -/
def NoCounters (st : Option (Memdb × Store)) : Prop := ∀ p ∈ st, Untouched p.2

section NoCounters

variable {rb : Rebalance Slot} {c : PageConf} {cputype : CpuType} {sl : Slot}
  {st : Option (Memdb × Store)}

theorem callStep_state (st : Option (Memdb × Store)) (e : PageEvent) :
    (callStep rb c cputype sl st e).1 = (pageStep rb c cputype st e).1 := by
  cases st <;> rfl

theorem NoCounters.step (rb : Rebalance Slot) (cputype : CpuType) (sl : Slot)
    (hmax : ¬ 0 < c.maxCorrErrCounters) (h : NoCounters st) (e : PageEvent) :
    NoCounters (pageStep rb c cputype st e).1 ∧ (callStep rb c cputype sl st e).2 = none := by
  cases st with
  | none => exact ⟨h, rfl⟩
  | some p =>
    obtain ⟨db, s⟩ := p
    have hs : Untouched s := h (db, s) rfl
    cases hacc : accountsPage c cputype e.m with
    | false =>
      have hr : accountPageError rb c cputype db s e = _ := accountPageError_of_not_accounts hacc
      rw [callStep_of_account hr, pageStep, hr]
      exact ⟨h, by simp⟩
    | true =>
      have hr : accountPageError rb c cputype db s e = none := by
        cases hr : accountPageError rb c cputype db s e with
        | none => rfl
        | some r =>
          obtain ⟨s₁, sl', runs, mp', hfind, -⟩ := accountPageError_spec hacc hr
          exact absurd (hs.findCounter hfind).2.2 hmax
      rw [pageStep, hr]
      refine ⟨fun _ hp => absurd hp (Option.not_mem_none _), ?_⟩
      simp [callStep, pageStep, hr]

theorem NoCounters.callsOn_eq_nil (hmax : ¬ 0 < c.maxCorrErrCounters) (es : List PageEvent)
    (h : NoCounters st) : callsOn rb c cputype sl st es = [] := by
  unfold callsOn
  induction es generalizing st with
  | nil => rfl
  | cons e es ih =>
    obtain ⟨hnext, hnone⟩ := h.step rb cputype sl hmax e
    rw [runOut_cons, hnone, List.reduceOption_cons_of_none, callStep_state]
    exact ih hnext

end NoCounters

/-- **The offlining state machine.** For every setting and every run from `page_setup`,
    whatever happened before: the calls on a counter, from the one that hands it out and
    as long as it is not handed out again, follow the law, whatever the kernel answers
    and whatever errors on other pages come between. -/
theorem page_offlining_law (rb : Rebalance Slot) (c : PageConf) (n : Int32) (cputype : CpuType)
    (db : Memdb) (now : ℤ) (past es : List PageEvent) (sl : Slot)
    (hlife : OneLife (callsOn rb (c.setup n) cputype sl
      (runState (pageStep rb (c.setup n) cputype) (some (db, Store.setup now)) past) es)) :
    OffliningLaw (c.setup n) (callsOn rb (c.setup n) cputype sl
      (runState (pageStep rb (c.setup n) cputype) (some (db, Store.setup now)) past) es) := by
  by_cases hpos : 0 < (c.setup n).maxCorrErrCounters
  · have hmul := roundupCounters_clusters hpos
    obtain ⟨db', s', hrun, hinv, -⟩ := mapInv_run rb (c.setup n) cputype db now hmul past
    rw [hrun] at hlife ⊢
    obtain ⟨mp, honline, hchain⟩ := chain_of_oneLife hmul es db' s' hinv hlife
    exact Chain.offliningLaw mp hchain honline
  · have hnone : NoCounters
        (runState (pageStep rb (c.setup n) cputype) (some (db, Store.setup now)) past) := by
      refine runState_invariant (fun st e h => (h.step rb cputype sl hpos e).1) ?_ past
      intro p hp
      obtain rfl := Option.some.inj hp
      exact untouched_setup now
    rw [hnone.callsOn_eq_nil hpos es]
    exact Chain.offliningLaw (.fresh 0 0) trivial rfl

/-! ## One failure, then a success -/

/-- Soft, then hard offlining with retries, and a threshold of two errors a day. -/
def retrySoftThenHard : PageConf :=
  { pageTriggerConf := { capacity := 2, agetime := 86400, tunit := 'h' }
    mpReplacementTriggerConf := { capacity := 0, agetime := 0, tunit := '\x00' }
    offlineRetryBackoffBase := 2, offline := .softThenHard, maxCorrErrCounters := 0 }

/-- Two errors on a page that cannot be offlined, then eight after it can. -/
def tenErrors : List PageEvent :=
  List.replicate 2 { offlineableError 0x1000 with sysfs := fun _ => false } ++
    List.replicate 8 (offlineableError 0x1000)

/-- The second error makes an attempt that fails, the sixth one an attempt that
    succeeds, and the tenth one overflows the bucket to no effect. -/
theorem offlining_law_ten_errors :
    ((callsOn (Rebalance.plain Slot) (retrySoftThenHard.setup 4158) .nehalem ⟨0, 0⟩
        (some (Memdb.empty, Store.setup 0)) tenErrors).map fun call =>
      (call.overflow, call.attempts)) =
        [(false, []), (true, [false]), (false, []), (false, []), (false, []), (true, [true]),
          (false, []), (false, []), (false, []), (true, [])] ∧
    OffliningLaw (retrySoftThenHard.setup 4158)
      (callsOn (Rebalance.plain Slot) (retrySoftThenHard.setup 4158) .nehalem ⟨0, 0⟩
        (some (Memdb.empty, Store.setup 0)) tenErrors) :=
  ⟨by decide +kernel, page_offlining_law (Rebalance.plain Slot) retrySoftThenHard 4158 .nehalem
    Memdb.empty 0 [] tenErrors ⟨0, 0⟩ (by decide +kernel)⟩

end Mcelog.Page
