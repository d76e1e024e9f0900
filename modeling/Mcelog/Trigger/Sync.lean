import Mcelog.Common.Transition
import Mcelog.Page.Account
import Mcelog.Trigger.Model

/-!
# Synchronous triggers

`account_page_error` runs one trigger before and one after it soft-offlines a
page, both with `sync = true`. `run_trigger` has the parameter and never looks at
it: it returns once the child is forked, and the child is collected in `ppoll`
like any other.

* `SyncStep`: the daemon inside and outside of `account_page_error`, interleaved
  with the children.
* `brackets_iff_never_started`: in every run the synchronous triggers bracket the
  soft offline if no synchronous trigger is ever started; a run of whole calls in
  which one is started breaks it.
* `soft_offline_unbracketed`: the page is soft-offlined while the trigger that
  should have completed before it still runs.
-/

namespace Mcelog.Trigger

open Mcelog.Bucket Mcelog.Common Mcelog.Machine Mcelog.Memory Mcelog.Page

/-! ## The calls of `run_trigger` -/

/-- The `sync` argument of the `run_trigger` call that an effect makes. Without a
    configured trigger `memdb_trigger` and `counter_trigger` make none
    (memdb.c:152, page.c:267). -/
def runTriggerSync : Effect → Option Bool
  | .memdbTrigger run => run.conf.trigger.map fun _ => run.sync
  | .counterTrigger run => run.conf.trigger.map fun _ => false
  | .sysfsWrite .. | .memoryOffline .. => none

/-- The effect is the run of the trigger before soft offlining (page.c:389). -/
def isPreSoft : Effect → Bool
  | .memdbTrigger run => run.reporter == "page_pre_soft"
  | .counterTrigger _ | .sysfsWrite .. | .memoryOffline .. => false

/-- Where the daemon stands. -/
inductive Daemon
  /-- in its event loop -/
  | loop
  /-- in `account_page_error`, with these effects still to come; `pre` is the child
      that the call started before soft offlining -/
  | account (todo : List Effect) (pre : Option ℕ)
  /-- in `run_trigger`, with the child forked -/
  | runTrigger (sync : Bool) (child : ℕ) (todo : List Effect) (pre : Option ℕ)
  deriving DecidableEq, Repr

/-- The daemon with its accounting data, and the children. -/
structure SyncState where
  data : Option (Memdb × Store)
  daemon : Daemon
  children : State

/-- The daemon before its first error. -/
def SyncState.init (now : ℤ) : SyncState :=
  { data := some (Memdb.empty, Store.setup now), daemon := .loop, children := State.init }

/-- The steps of the system. -/
inductive SyncEvent
  /-- `account_page_error` is called -/
  | call (e : PageEvent)
  /-- `run_trigger` forks a child with this pid -/
  | fork (pid : ℕ)
  /-- `run_trigger` starts no child: there are too many, or `fork()` fails -/
  | refuse
  /-- `run_trigger` returns after it has started a child -/
  | return
  /-- the next effect, if it is no call of `run_trigger` -/
  | perform
  /-- `account_page_error` returns -/
  | done
  /-- a child exits -/
  | exit (pid : ℕ)
  /-- anything else that happens to the children while the daemon is in its loop -/
  | loop (e : Event)

/-- The step relation. The effects of a call do not depend on the children, so they
    are known when the call starts. -/
inductive SyncStep (rb : Rebalance Slot) (c : PageConf) (cputype : CpuType) (childrenMax : ℤ) :
    SyncState → SyncEvent → SyncState → Prop
  | call {s : SyncState} {e : PageEvent} : s.daemon = .loop → s.children.handler = .idle →
      s.children.aborted = false →
      SyncStep rb c cputype childrenMax s (.call e)
        { s with data := (pageStep rb c cputype s.data e).1
                 daemon := .account (pageStep rb c cputype s.data e).2.effects none }
  | fork {s : SyncState} {effect : Effect} {todo : List Effect} {pre : Option ℕ} {sync : Bool}
      {pid : ℕ} : s.daemon = .account (effect :: todo) pre → runTriggerSync effect = some sync →
      ¬ tooManyChildren childrenMax s.children → pid ∉ s.children.running →
      pid ∉ s.children.zombies →
      SyncStep rb c cputype childrenMax s (.fork pid)
        { s with daemon := .runTrigger sync pid todo (if isPreSoft effect then some pid else pre)
                 children := mcelogFork s.children pid }
  | refuse {s : SyncState} {effect : Effect} {todo : List Effect} {pre : Option ℕ} {sync : Bool} :
      s.daemon = .account (effect :: todo) pre → runTriggerSync effect = some sync →
      SyncStep rb c cputype childrenMax s .refuse { s with daemon := .account todo pre }
  /-- `sync` is not looked at -/
  | return {s : SyncState} {sync : Bool} {child : ℕ} {todo : List Effect} {pre : Option ℕ} :
      s.daemon = .runTrigger sync child todo pre →
      SyncStep rb c cputype childrenMax s .return { s with daemon := .account todo pre }
  | perform {s : SyncState} {effect : Effect} {todo : List Effect} {pre : Option ℕ} :
      s.daemon = .account (effect :: todo) pre → runTriggerSync effect = none →
      SyncStep rb c cputype childrenMax s .perform { s with daemon := .account todo pre }
  | done {s : SyncState} {pre : Option ℕ} : s.daemon = .account [] pre →
      SyncStep rb c cputype childrenMax s .done { s with daemon := .loop }
  | exit {s : SyncState} {pid : ℕ} : pid ∈ s.children.running →
      SyncStep rb c cputype childrenMax s (.exit pid)
        { s with children := childExit s.children pid }
  | loop {s : SyncState} {e : Event} {children : State} : s.daemon = .loop →
      Step childrenMax s.children e children →
      SyncStep rb c cputype childrenMax s (.loop e) { s with children := children }

/-! ## The property and its condition -/

/-- What a synchronous trigger is for. The soft offline file is not written while
    the child that the call started before it still runs, and `run_trigger` with
    `sync` returns only when its child neither runs nor is a zombie. -/
def Brackets (s : SyncState) : SyncEvent → Prop
  | .perform => ∀ addr todo pre,
      s.daemon = .account (.sysfsWrite (kernelOffline .soft) addr :: todo) (some pre) →
        pre ∉ s.children.running
  | .return => ∀ child todo pre, s.daemon = .runTrigger true child todo pre →
      child ∉ s.children.running ∧ child ∉ s.children.zombies
  | .call _ | .fork _ | .refuse | .done | .exit _ | .loop _ => True

/-- No child is started for a synchronous trigger: `run_trigger` finds too many
    children, or `fork()` fails. -/
def NotStarted (s : SyncState) : SyncEvent → Prop
  | .fork _ => ∀ effect todo pre, s.daemon = .account (effect :: todo) pre →
      runTriggerSync effect ≠ some true
  | .call _ | .refuse | .return | .perform | .done | .exit _ | .loop _ => True

/-! ## The effects of a call -/

/-- The trigger before soft offlining is run synchronously, if it is run. -/
def PreIsSync (effects : List Effect) : Prop :=
  ∀ effect ∈ effects, isPreSoft effect = true → runTriggerSync effect ≠ some false

theorem preIsSync_nil : PreIsSync [] := fun _ hmem => nomatch hmem

theorem preIsSync_of_not_isPreSoft {effects : List Effect}
    (h : ∀ effect ∈ effects, isPreSoft effect = false) : PreIsSync effects := by
  intro effect hmem hpre
  rw [h effect hmem] at hpre
  cases hpre

theorem PreIsSync.append {l r : List Effect} (hl : PreIsSync l) (hr : PreIsSync r) :
    PreIsSync (l ++ r) := by
  intro effect hmem
  rcases List.mem_append.mp hmem with hmem | hmem
  · exact hl effect hmem
  · exact hr effect hmem

theorem PreIsSync.cons {effect : Effect} {todo : List Effect}
    (h : isPreSoft effect = true → runTriggerSync effect ≠ some false) (ht : PreIsSync todo) :
    PreIsSync (effect :: todo) := by
  intro effect' hmem
  rcases List.mem_cons.mp hmem with rfl | hmem
  · exact h
  · exact ht effect' hmem

theorem PreIsSync.tail {effect : Effect} {todo : List Effect} (h : PreIsSync (effect :: todo)) :
    PreIsSync todo :=
  fun effect' hmem => h effect' (List.mem_cons_of_mem _ hmem)

section

variable {rb : Rebalance Slot} {c : PageConf} {cputype : CpuType}

theorem memoryOffline_not_isPreSoft (offline : OType) (sysfs : OType → Bool) (addr : UInt64) :
    ∀ effect ∈ (memoryOffline offline sysfs addr).2, isPreSoft effect = false := by
  unfold memoryOffline
  split_ifs <;> simp [isPreSoft]

theorem offlineAction_not_isPreSoft (c : PageConf) (sysfs : OType → Bool) (mp : Mempage)
    (addr : UInt64) : ∀ effect ∈ (offlineAction c sysfs mp addr).2, isPreSoft effect = false := by
  have hwrites := memoryOffline_not_isPreSoft c.offline sysfs addr
  unfold offlineAction
  split_ifs
  · simp
  · generalize memoryOffline c.offline sysfs addr = p at hwrites ⊢
    obtain ⟨ok, effects⟩ := p
    intro effect hmem
    cases ok with
    | false =>
      rcases List.mem_append.mp hmem with hmem | hmem
      · exact hwrites effect hmem
      · rw [List.mem_singleton.mp hmem]
        rfl
    | true =>
      rcases List.mem_append.mp hmem with hmem | hmem
      · exact hwrites effect hmem
      · rw [List.mem_singleton.mp hmem]
        rfl

theorem pageTriggered_preIsSync (c : PageConf) (db : Memdb) (s : Store) (sl : Slot)
    (addr : UInt64) (e : PageEvent) : PreIsSync (pageTriggered c db s sl addr e).2.2 := by
  have hoffline (mp : Mempage) :=
    preIsSync_of_not_isPreSoft (offlineAction_not_isPreSoft c e.sysfs mp addr)
  have hsync (run : TriggerRun) (hrun : run.sync = true) :
      runTriggerSync (.memdbTrigger run) ≠ some false := by
    simp [runTriggerSync, hrun]
  unfold pageTriggered
  dsimp only
  split_ifs with hdone hsoft
  · exact preIsSync_nil
  · refine ((PreIsSync.cons ?_ (PreIsSync.cons ?_ preIsSync_nil)).append (hoffline _)).append
      (PreIsSync.cons ?_ preIsSync_nil)
    · exact fun hpre => absurd hpre (by simp [isPreSoft, memdbTrigger])
    · exact fun _ => hsync _ rfl
    · exact fun _ => hsync _ rfl
  · exact PreIsSync.cons (fun hpre => absurd hpre (by simp [isPreSoft, memdbTrigger])) (hoffline _)

theorem findCounter_not_isPreSoft {s s₁ : Store} {addr : UInt64} {t now : ℤ} {sl : Slot}
    {runs : List Effect} (h : findCounter rb c s addr t now = some (s₁, sl, runs)) :
    ∀ effect ∈ runs, isPreSoft effect = false := by
  intro effect hmem
  obtain ⟨run, rfl⟩ := (findCounter_mp h).2 effect hmem
  rfl

/-- In the effects of a call the trigger before soft offlining is synchronous. -/
theorem pageStep_preIsSync (st : Option (Memdb × Store)) (e : PageEvent) :
    PreIsSync (pageStep rb c cputype st e).2.effects := by
  unfold pageStep
  split
  · exact preIsSync_nil
  · split
    · exact preIsSync_nil
    · rename_i r hr
      cases hacc : accountsPage c cputype e.m with
      | false =>
        rw [accountPageError_of_not_accounts hacc] at hr
        obtain rfl := Option.some.inj hr
        exact preIsSync_nil
      | true =>
        rw [accountPageError, if_pos hacc] at hr
        obtain ⟨⟨s₁, sl, runs⟩, hfind, heq⟩ := Option.bind_eq_some_iff.mp hr
        have hruns := preIsSync_of_not_isPreSoft (findCounter_not_isPreSoft hfind)
        dsimp only at heq
        split_ifs at heq
        · obtain rfl := Option.some.inj heq
          exact hruns.append (pageTriggered_preIsSync _ _ _ _ _ _)
        · obtain rfl := Option.some.inj heq
          exact hruns

end

/-! ## Runs without a synchronous child -/

/-- What holds while no synchronous trigger is started. -/
def NoSyncChild : Daemon → Prop
  | .loop => True
  | .account todo pre => PreIsSync todo ∧ pre = none
  | .runTrigger sync _ todo pre => sync = false ∧ PreIsSync todo ∧ pre = none

/-- A synchronous child that was not collected keeps the daemon in `run_trigger`. -/
def SyncChild (s : SyncState) : Prop :=
  ∃ child todo pre, s.daemon = .runTrigger true child todo pre ∧
    (child ∈ s.children.running ∨ child ∈ s.children.zombies)

section

variable {rb : Rebalance Slot} {c : PageConf} {cputype : CpuType} {childrenMax : ℤ}
  {s s' : SyncState} {e : SyncEvent}

theorem NoSyncChild.step (h : NoSyncChild s.daemon) (hC : NotStarted s e)
    (hs : SyncStep rb c cputype childrenMax s e s') : NoSyncChild s'.daemon := by
  cases hs with
  | call => exact ⟨pageStep_preIsSync _ _, rfl⟩
  | @fork effect todo pre sync pid hd hsync =>
    rw [hd] at h
    obtain ⟨htodo, rfl⟩ := h
    have hnot := hC _ _ _ hd
    rw [hsync] at hnot
    cases sync with
    | true => exact absurd rfl hnot
    | false =>
      -- the trigger before soft offlining would have been a synchronous one
      have hpre : isPreSoft effect = false := by
        by_contra hpre
        exact htodo effect List.mem_cons_self (by simpa using hpre) hsync
      refine ⟨rfl, htodo.tail, ?_⟩
      rw [hpre]
      rfl
  | refuse hd =>
    rw [hd] at h
    exact ⟨h.1.tail, h.2⟩
  | «return» hd =>
    rw [hd] at h
    exact h.2
  | perform hd =>
    rw [hd] at h
    exact ⟨h.1.tail, h.2⟩
  | done => trivial
  | exit => exact h
  | loop hd => exact h

theorem NoSyncChild.brackets (h : NoSyncChild s.daemon) : Brackets s e := by
  cases e with
  | perform =>
    intro addr todo pre hd
    rw [hd] at h
    cases h.2
  | «return» =>
    intro child todo pre hd
    rw [hd] at h
    cases h.1
  | call | fork | refuse | done | exit | loop => trivial

/-- The synchronous child stays until `run_trigger` returns, which is too early. -/
theorem SyncChild.step (h : SyncChild s) (hb : Brackets s e)
    (hs : SyncStep rb c cputype childrenMax s e s') : SyncChild s' := by
  obtain ⟨child, todo, pre, hd, hchild⟩ := h
  cases hs with
  | call hd' | fork hd' | refuse hd' | perform hd' | done hd' | loop hd' =>
    rw [hd] at hd'
    cases hd'
  | «return» =>
    obtain ⟨hrun, hzom⟩ := hb child todo pre hd
    exact absurd hchild (not_or.mpr ⟨hrun, hzom⟩)
  | exit =>
    rename_i pid hpid
    refine ⟨child, todo, pre, hd, ?_⟩
    by_cases heq : child = pid
    · right
      rw [heq]
      exact List.mem_cons_self
    · rcases hchild with hrun | hzom
      · left
        exact (List.mem_erase_of_ne heq).mpr hrun
      · right
        exact List.mem_cons_of_mem _ hzom

/-- Where a step first starts a synchronous trigger. -/
theorem syncChild_of_started (h : ¬ NotStarted s e)
    (hs : SyncStep rb c cputype childrenMax s e s') : SyncChild s' := by
  cases hs with
  | @fork effect todo pre sync pid hd hsync =>
    cases sync with
    | true => exact ⟨pid, todo, _, rfl, Or.inl List.mem_cons_self⟩
    | false =>
      refine absurd ?_ h
      intro effect' todo' pre' hd'
      rw [hd] at hd'
      cases hd'
      rw [hsync]
      simp
  | call | refuse | «return» | perform | done | exit | loop => exact absurd trivial h

end

/-! ## Whole runs -/

/-- **When synchronous triggers bracket the soft offline.** For every configuration,
    every `children_max` and every interleaving of the daemon with its children: if
    no child is ever started for a synchronous trigger, no soft offline happens
    while the trigger before it runs and no synchronous `run_trigger` returns too
    early. In a run that ends in the event loop this is also necessary. -/
theorem brackets_iff_never_started (rb : Rebalance Slot) (c : PageConf) (cputype : CpuType)
    (childrenMax now : ℤ) (tr : List (SyncState × SyncEvent)) (s : SyncState)
    (h : Trace (SyncStep rb c cputype childrenMax) (SyncState.init now) tr s) :
    ((∀ p ∈ tr, NotStarted p.1 p.2) → ∀ p ∈ tr, Brackets p.1 p.2) ∧
      (s.daemon = .loop → (∀ p ∈ tr, Brackets p.1 p.2) → ∀ p ∈ tr, NotStarted p.1 p.2) := by
  refine ⟨fun hC => ?_, fun hloop hB => ?_⟩
  · exact h.forall_of_invariant (I := fun s => NoSyncChild s.daemon) hC (by trivial)
      (fun _ _ _ hi hc hs => hi.step hc hs) (fun _ _ _ hi _ _ => hi.brackets)
  · have hstarted : (∀ p ∈ tr, NotStarted p.1 p.2) ∨ SyncChild s := by
      clear hloop
      induction h with
      | nil => exact Or.inl fun _ hp => nomatch hp
      | snoc e htr hs ih =>
        have hlast := hB _ (List.mem_append_right _ (List.mem_singleton_self _))
        rcases ih fun p hp => hB p (List.mem_append_left _ hp) with hnone | hsome
        · rename_i tr s s'
          by_cases hC : NotStarted s e
          · left
            intro p hp
            rcases List.mem_append.mp hp with hp | hp
            · exact hnone p hp
            · obtain rfl := List.mem_singleton.mp hp
              exact hC
          · exact Or.inr (syncChild_of_started hC hs)
        · exact Or.inr (hsome.step hlast hs)
    refine hstarted.resolve_right ?_
    rintro ⟨child, todo, pre, hd, -⟩
    rw [hloop] at hd
    cases hd

/-! ## A page that is offlined at its first error -/

/-- Soft offlining at the first error of a page, with both synchronous triggers
    configured. -/
def softConf (pageTrigger : Option String) : PageConf :=
  { pageTriggerConf := { capacity := 1, agetime := 86400, tunit := 'h', trigger := pageTrigger }
    mpReplacementTriggerConf := { capacity := 0, agetime := 0, tunit := '\x00' }
    pageErrorPreSoftTrigger := some "page-error-pre-sync-soft-trigger"
    pageErrorPostSoftTrigger := some "page-error-post-sync-soft-trigger"
    offline := .soft, maxCorrErrCounters := 63 }

/-- A corrected error on a page that the kernel can offline. -/
def softError : PageEvent :=
  { m := { status := mciStatusAddrv, addr := 0x1000 }, channel := -1, dimm := -1, now := 0,
    sysfs := fun _ => true }

/-- The first call. -/
def softCall (pageTrigger : Option String) : Option (Memdb × Store) × PageOut :=
  pageStep (Rebalance.plain Slot) (softConf pageTrigger) .nehalem
    (some (Memdb.empty, Store.setup 0)) softError

theorem softCall_effects (pageTrigger : Option String) : ∃ page pre post : TriggerRun,
    (softCall pageTrigger).2.effects =
      [.memdbTrigger page, .memdbTrigger pre, .sysfsWrite (kernelOffline .soft) 0x1000,
        .memoryOffline 0x1000 true, .memdbTrigger post] ∧
    runTriggerSync (.memdbTrigger page) = pageTrigger.map (fun _ => false) ∧
    runTriggerSync (.memdbTrigger pre) = some true ∧ isPreSoft (.memdbTrigger pre) = true ∧
    runTriggerSync (.memdbTrigger post) = some true :=
  ⟨_, _, _, rfl, rfl, rfl, rfl, rfl⟩

/-- With `children-max = 1` the page trigger fills the table. The synchronous
    triggers are refused, and there is nothing to wait for. -/
theorem brackets_with_full_table : ∃ tr s,
    Trace (SyncStep (Rebalance.plain Slot) (softConf (some "page-error-trigger")) .nehalem 1)
      (SyncState.init 0) tr s ∧ tr.length = 8 ∧ s.children.running = [1] ∧
      ∀ p ∈ tr, Brackets p.1 p.2 := by
  obtain ⟨page, pre, post, heff, hpage, hpre, -, hpost⟩ :=
    softCall_effects (some "page-error-trigger")
  have h1 : Trace (SyncStep (Rebalance.plain Slot) (softConf (some "page-error-trigger"))
      .nehalem 1) (SyncState.init 0) _ _ := Trace.nil.snoc (.call softError) (.call rfl rfl rfl)
  have h2 := h1.snoc (.fork 1) (.fork (congrArg (Daemon.account · none) heff) hpage (by decide)
    (by decide) (by decide))
  have h3 := h2.snoc .return (.return rfl)
  have h4 := h3.snoc .refuse (.refuse rfl hpre)
  have h5 := h4.snoc .perform (.perform rfl rfl)
  have h6 := h5.snoc .perform (.perform rfl rfl)
  have h7 := h6.snoc .refuse (.refuse rfl hpost)
  have h8 := h7.snoc .done (.done rfl)
  refine ⟨_, _, h8, rfl, rfl, (brackets_iff_never_started _ _ _ _ _ _ _ h8).1 ?_⟩
  simp only [List.nil_append, List.cons_append, List.forall_mem_cons]
  refine ⟨trivial, ?_, trivial, trivial, trivial, trivial, trivial, trivial, ?_⟩
  · intro effect todo pre' hd
    have heq := (congrArg (Daemon.account · none) heff).symm.trans hd
    cases heq
    rw [hpage]
    simp
  · exact fun _ hp => nomatch hp

/-- **The soft offline is not bracketed.** The trigger before soft offlining is
    started with `sync = true`; `run_trigger` returns and the page is soft-offlined
    while the child runs. -/
theorem soft_offline_unbracketed : ∃ tr s,
    Trace (SyncStep (Rebalance.plain Slot) (softConf none) .nehalem 4) (SyncState.init 0) tr s ∧
    (∃ before todo, (before, .return) ∈ tr ∧
      before.daemon = .runTrigger true 1 todo (some 1) ∧ before.children.running = [1]) ∧
    (∃ before todo, (before, .perform) ∈ tr ∧ before.daemon =
      .account (.sysfsWrite (kernelOffline .soft) 0x1000 :: todo) (some 1) ∧
      before.children.running = [1]) ∧
    ¬ ∀ p ∈ tr, Brackets p.1 p.2 := by
  obtain ⟨page, pre, post, heff, hpage, hpre, hsoft, hpost⟩ := softCall_effects none
  have h1 : Trace (SyncStep (Rebalance.plain Slot) (softConf none) .nehalem 4)
      (SyncState.init 0) _ _ := Trace.nil.snoc (.call softError) (.call rfl rfl rfl)
  have h2 := h1.snoc .perform (.perform (congrArg (Daemon.account · none) heff) hpage)
  have hfree : ¬ tooManyChildren 4 State.init ∧ 1 ∉ State.init.running ∧
      1 ∉ State.init.zombies := by decide
  have h3 := h2.snoc (.fork 1) (.fork rfl hpre hfree.1 hfree.2.1 hfree.2.2)
  rw [hsoft] at h3
  have h4 := h3.snoc .return (.return rfl)
  have h5 := h4.snoc .perform (.perform rfl rfl)
  refine ⟨_, _, h5, ?_, ?_, ?_⟩
  · refine ⟨_, _, List.mem_append_left _ (List.mem_append_right _ List.mem_cons_self), rfl, rfl⟩
  · refine ⟨_, _, List.mem_append_right _ List.mem_cons_self, rfl, rfl⟩
  · intro hB
    have hwrite := hB _ (List.mem_append_right _ (List.mem_singleton_self _))
    exact hwrite _ _ _ rfl List.mem_cons_self

end Mcelog.Trigger
