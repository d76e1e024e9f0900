import Mcelog.Common.Transition
import Mcelog.Trigger.Children

/-!
# The child table

Whether `childlist` and `num_children` stay consistent over all interleavings of
`run_trigger`, exits, `child_handler` and a final `trigger_wait`.

* `TableInv`: the invariant. A `SIGCHLD`, pending or in the handler, never names a
  running child.
* `table_consistent`: while no pid is reused for which a `SIGCHLD` is pending, the
  table is consistent in every state reached, and `finish_child` never aborts.
-/

namespace Mcelog.Trigger

open Mcelog.Common

/-! ## The system with `trigger_wait` -/

/-- Where the program stands: in its event loop, or in `trigger_wait`
    (trigger.c:158-165). -/
inductive Phase
  | loop
  /-- before `waitpid((pid_t)-1, &status, 0)` -/
  | waitAny
  /-- before `finish_child(pid, status)` -/
  | finishAny (pid : ℕ)
  /-- after `trigger_wait` -/
  | done
  deriving DecidableEq, Repr

structure TableState where
  daemon : State
  phase : Phase
  deriving DecidableEq, Repr

def TableState.init : TableState := ⟨State.init, .loop⟩

/-- The steps of the system. -/
inductive TableEvent
  /-- a step of the event loop -/
  | loop (e : Event)
  /-- `trigger_wait` is called -/
  | triggerWait
  /-- a child exits during `trigger_wait` -/
  | exit (pid : ℕ)
  /-- `waitpid(-1)` returns this child -/
  | collect (pid : ℕ)
  /-- `finish_child` in `trigger_wait` -/
  | finish
  /-- `waitpid(-1)` fails: there is no child -/
  | noChild
  deriving DecidableEq, Repr

/-- The step relation. `SIGCHLD` is blocked outside `ppoll`, so that
    `child_handler` does not run in `trigger_wait`. -/
inductive TableStep (childrenMax : ℤ) : TableState → TableEvent → TableState → Prop
  | loop {d d' : State} {e : Event} : Step childrenMax d e d' →
      TableStep childrenMax ⟨d, .loop⟩ (.loop e) ⟨d', .loop⟩
  | triggerWait {d : State} : d.aborted = false → d.handler = .idle →
      TableStep childrenMax ⟨d, .loop⟩ .triggerWait ⟨d, .waitAny⟩
  | exit {d : State} {phase : Phase} {pid : ℕ} : phase ≠ .loop → pid ∈ d.running →
      TableStep childrenMax ⟨d, phase⟩ (.exit pid) ⟨childExit d pid, phase⟩
  | collect {d : State} {pid : ℕ} : pid ∈ d.zombies →
      TableStep childrenMax ⟨d, .waitAny⟩ (.collect pid)
        ⟨{ d with zombies := d.zombies.erase pid }, .finishAny pid⟩
  | finish {d : State} {pid : ℕ} :
      TableStep childrenMax ⟨d, .finishAny pid⟩ .finish ⟨finishChild d pid .idle, .waitAny⟩
  | noChild {d : State} : d.running = [] → d.zombies = [] →
      TableStep childrenMax ⟨d, .waitAny⟩ .noChild ⟨d, .done⟩

/-- `fork()` returns no pid for which a `SIGCHLD` is pending. -/
def PidFresh (s : TableState) : TableEvent → Prop
  | .loop (.fork pid) => s.daemon.pending ≠ some pid
  | _ => True

/-! ## Consistency -/

/-- The children that `waitpid` returned and `finish_child` is about to be called
    for. -/
def TableState.inHand (s : TableState) : List ℕ :=
  match s.phase with
  | .loop => s.daemon.handler.inHand
  | .finishAny pid => [pid]
  | .waitAny | .done => []

/-- The child table of a state, and what the next step can do to it. -/
structure TableConsistent (childrenMax : ℤ) (s : TableState) : Prop where
  count : s.daemon.numChildren = s.daemon.childlist.length
  bound : 0 < childrenMax → s.daemon.numChildren ≤ childrenMax
  /-- one entry for each child -/
  nodup : s.daemon.childlist.Nodup
  /-- `finish_child` is called only for a child on the list, which has exited -/
  finish : ∀ pid ∈ s.inHand,
    pid ∈ s.daemon.childlist ∧ pid ∉ s.daemon.running ∧ pid ∉ s.daemon.zombies
  /-- an entry is removed only by that call -/
  removed : ∀ e s', TableStep childrenMax s e s' →
    ∀ pid ∈ s.daemon.childlist, pid ∉ s'.daemon.childlist → pid ∈ s.inHand
  /-- and comes back only with another child -/
  added : ∀ e s', TableStep childrenMax s e s' →
    ∀ pid ∈ s'.daemon.childlist, pid ∉ s.daemon.childlist → e = .loop (.fork pid)
  /-- `abort()` was not called -/
  alive : s.daemon.aborted = false

/-- What holds in every state of a run without reused pids. -/
structure TableInv (childrenMax : ℤ) (s : TableState) : Prop where
  child : ChildInv s.daemon s.inHand
  bound : 0 < childrenMax → s.daemon.numChildren ≤ childrenMax
  /-- a pending `SIGCHLD` names no running child -/
  pending : ∀ p, s.daemon.pending = some p → p ∉ s.daemon.running
  /-- nor does the one that the handler works on -/
  waited : ∀ p, s.daemon.handler = .waitSi p → p ∉ s.daemon.running
  idle : s.phase ≠ .loop → s.daemon.handler = .idle

/-! ## One step -/

section Steps

variable {childrenMax : ℤ} {d d' : State} {phase : Phase} {pid : ℕ}

theorem tableInv_init (childrenMax : ℤ) : TableInv childrenMax TableState.init where
  child := childInv_init
  bound := fun h => h.le
  pending := fun _ h => nomatch h
  waited := fun _ h => nomatch h
  idle := fun _ => rfl

theorem TableInv.fork (h : TableInv childrenMax ⟨d, .loop⟩) (hidle : d.handler = .idle)
    (hroom : ¬ tooManyChildren childrenMax d) (hr : pid ∉ d.running) (hz : pid ∉ d.zombies)
    (hfresh : d.pending ≠ some pid) : TableInv childrenMax ⟨mcelogFork d pid, .loop⟩ := by
  have hchild : ChildInv d d.handler.inHand := h.child
  rw [hidle] at hchild
  have hidle' : (mcelogFork d pid).handler = .idle := hidle
  refine ⟨?_, ?_, ?_, ?_, fun hne => absurd rfl hne⟩
  · show ChildInv (mcelogFork d pid) (mcelogFork d pid).handler.inHand
    rw [hidle']
    exact hchild.fork hr hz
  · intro hmax
    have hlt : ¬ d.numChildren ≥ childrenMax := fun hge => hroom ⟨hmax, hge⟩
    show d.numChildren + 1 ≤ childrenMax
    omega
  · intro p hp hmem
    rcases List.mem_cons.mp hmem with rfl | hmem
    · exact hfresh hp
    · exact h.pending p hp hmem
  · intro p hp
    dsimp only at hp
    rw [hidle'] at hp
    cases hp

theorem TableInv.exit (h : TableInv childrenMax ⟨d, phase⟩) (hr : pid ∈ d.running) :
    TableInv childrenMax ⟨childExit d pid, phase⟩ := by
  have hnodup : d.running.Nodup := h.child.disjoint.1
  refine ⟨h.child.exit hr, h.bound, ?_, ?_, h.idle⟩
  · intro p hp hmem
    have hpending : d.pending.getD pid = p := Option.some.inj hp
    cases hold : d.pending with
    | none =>
      rw [hold] at hpending
      exact hnodup.not_mem_erase (hpending ▸ hmem)
    | some q =>
      rw [hold] at hpending
      have hq : q = p := hpending
      exact h.pending q hold (hq ▸ List.mem_of_mem_erase hmem)
  · intro p hp hmem
    exact h.waited p hp (List.mem_of_mem_erase hmem)

theorem TableInv.deliver (h : TableInv childrenMax ⟨d, .loop⟩) (hidle : d.handler = .idle)
    (hp : d.pending = some pid) :
    TableInv childrenMax ⟨{ d with pending := none, handler := .waitSi pid }, .loop⟩ := by
  have hchild : ChildInv d d.handler.inHand := h.child
  rw [hidle] at hchild
  refine ⟨⟨hchild.children, hchild.nodup, hchild.count, hchild.alive⟩, h.bound,
    (fun _ hnone => nomatch hnone), ?_, fun hne => absurd rfl hne⟩
  intro p hwait
  cases hwait
  exact h.pending pid hp

/-- The handler takes a zombie. -/
theorem TableInv.reap {handler : Handler} (h : TableInv childrenMax ⟨d, .loop⟩)
    (hz : pid ∈ d.zombies) (hnone : d.handler.inHand = []) (hhand : handler.inHand = [pid])
    (hwait : ∀ p, handler ≠ .waitSi p) :
    TableInv childrenMax
      ⟨{ d with zombies := d.zombies.erase pid, handler := handler }, .loop⟩ := by
  have hchild : ChildInv d d.handler.inHand := h.child
  rw [hnone] at hchild
  refine ⟨?_, h.bound, h.pending, fun p hp => absurd hp (hwait p), fun hne => absurd rfl hne⟩
  show ChildInv _ handler.inHand
  rw [hhand]
  exact hchild.reap hz handler

/-- What `finish_child` leaves, for a child that is in hand. -/
theorem finishChild_of_inHand (h : ChildInv d [pid]) (next : Handler) : finishChild d pid next =
    { d with
      childlist := d.childlist.erase pid
      numChildren := d.numChildren - 1
      handler := next } := by
  rw [finishChild, if_pos (h.hand_mem pid (List.mem_singleton_self _))]

/-- The handler removes the child it has in hand. -/
theorem TableInv.finish (h : TableInv childrenMax ⟨d, .loop⟩) (hhand : d.handler.inHand = [pid]) :
    TableInv childrenMax ⟨finishChild d pid .sweep, .loop⟩ := by
  have hchild : ChildInv d d.handler.inHand := h.child
  rw [hhand] at hchild
  have hfinish := hchild.finish .sweep
  rw [finishChild_of_inHand hchild] at hfinish ⊢
  refine ⟨hfinish, ?_, h.pending, (fun _ hp => nomatch hp), fun hne => absurd rfl hne⟩
  intro hmax
  have := h.bound hmax
  dsimp only at this ⊢
  omega

/-- The handler returns. -/
theorem TableInv.return (h : TableInv childrenMax ⟨d, .loop⟩) (hnone : d.handler.inHand = []) :
    TableInv childrenMax ⟨{ d with handler := .idle }, .loop⟩ := by
  have hchild : ChildInv d d.handler.inHand := h.child
  rw [hnone] at hchild
  exact ⟨⟨hchild.children, hchild.nodup, hchild.count, hchild.alive⟩, h.bound, h.pending,
    (fun _ hp => nomatch hp), fun hne => absurd rfl hne⟩

/-- A step of the event loop. -/
theorem TableInv.loopStep {e : Event} (h : TableInv childrenMax ⟨d, .loop⟩)
    (hfresh : PidFresh ⟨d, .loop⟩ (.loop e)) (hs : Step childrenMax d e d') :
    TableInv childrenMax ⟨d', .loop⟩ := by
  cases hs with
  | fork _ hidle hroom hr hz => exact h.fork hidle hroom hr hz hfresh
  | refuse => exact h
  | exit hr => exact h.exit hr
  | ready => exact h
  | deliver _ hidle hp => exact h.deliver hidle hp
  | waitSiZombie hh hz => exact h.reap hz (by rw [hh]; rfl) rfl (fun _ hp => nomatch hp)
  | waitSiRunning hh _ hr => exact absurd hr (h.waited _ hh)
  | waitSiFail hh => exact h.return (by rw [hh]; rfl)
  | finishSi hh => exact h.finish (by rw [hh]; rfl)
  | sweep hh hz => exact h.reap hz (by rw [hh]; rfl) rfl (fun _ hp => nomatch hp)
  | sweepDone hh => exact h.return (by rw [hh]; rfl)
  | finishSweep hh => exact h.finish (by rw [hh]; rfl)

/-- A step without a reused pid keeps the invariant. -/
theorem TableInv.step {s s' : TableState} {e : TableEvent} (h : TableInv childrenMax s)
    (hfresh : PidFresh s e) (hs : TableStep childrenMax s e s') : TableInv childrenMax s' := by
  cases hs with
  | loop hstep => exact h.loopStep hfresh hstep
  | triggerWait _ hidle =>
    have hchild := h.child
    simp only [TableState.inHand, hidle] at hchild
    exact ⟨hchild, h.bound, h.pending, h.waited, fun _ => hidle⟩
  | exit _ hr => exact h.exit hr
  | @collect d pid hz =>
    have hidle : d.handler = .idle := h.idle (fun hp => nomatch hp)
    have hchild := ChildInv.reap h.child hz d.handler
    exact ⟨hchild, h.bound, h.pending, h.waited, fun _ => hidle⟩
  | @finish d pid =>
    have hchild : ChildInv d [pid] := h.child
    have hfinish := hchild.finish .idle
    rw [finishChild_of_inHand hchild] at hfinish ⊢
    refine ⟨hfinish, ?_, h.pending, (fun _ hp => nomatch hp), fun _ => rfl⟩
    intro hmax
    have := h.bound hmax
    dsimp only at this ⊢
    omega
  | noChild => exact ⟨h.child, h.bound, h.pending, h.waited, fun _ => h.idle (fun hp => nomatch hp)⟩

/-- `finish_child` removes the child that is in hand, and nothing else. -/
theorem childlist_finishChild (h : ChildInv d [pid]) (next : Handler) :
    (finishChild d pid next).childlist = d.childlist.erase pid := by
  rw [finishChild_of_inHand h]

/-- What a step does to the list. -/
theorem TableInv.childlist_cases {s s' : TableState} {e : TableEvent}
    (h : TableInv childrenMax s) (hs : TableStep childrenMax s e s') :
    s'.daemon.childlist = s.daemon.childlist ∨
    (∃ p, e = .loop (.fork p) ∧ s'.daemon.childlist = s.daemon.childlist ++ [p]) ∨
    ∃ p ∈ s.inHand, s'.daemon.childlist = s.daemon.childlist.erase p := by
  have hfinish : ∀ {d : State} {p : ℕ} (next : Handler), s.daemon = d → s.inHand = [p] →
      ∃ q ∈ s.inHand, (finishChild d p next).childlist = s.daemon.childlist.erase q := by
    rintro d p next rfl hhand
    have hchild := h.child
    rw [hhand] at hchild ⊢
    exact ⟨p, List.mem_singleton_self _, childlist_finishChild hchild next⟩
  cases hs with
  | loop hstep =>
    cases hstep with
    | fork => exact Or.inr (Or.inl ⟨_, rfl, rfl⟩)
    | finishSi hh =>
      exact Or.inr (Or.inr (hfinish _ rfl (by simp [TableState.inHand, hh, Handler.inHand])))
    | finishSweep hh =>
      exact Or.inr (Or.inr (hfinish _ rfl (by simp [TableState.inHand, hh, Handler.inHand])))
    | _ => exact Or.inl rfl
  | finish => exact Or.inr (Or.inr (hfinish _ rfl rfl))
  | _ => exact Or.inl rfl

theorem TableInv.consistent {s : TableState} (h : TableInv childrenMax s) :
    TableConsistent childrenMax s where
  count := h.child.count
  bound := h.bound
  nodup := h.child.nodup
  finish := fun p hp => ⟨h.child.hand_mem p hp, h.child.disjoint.2.2 p hp⟩
  removed := by
    intro e s' hs p hp hnot
    rcases h.childlist_cases hs with heq | ⟨q, -, heq⟩ | ⟨q, hq, heq⟩
    · exact absurd (heq ▸ hp) hnot
    · exact absurd (heq ▸ List.mem_append_left _ hp) hnot
    · by_cases hpq : p = q
      · exact hpq ▸ hq
      · rw [heq] at hnot
        exact absurd ((List.mem_erase_of_ne hpq).mpr hp) hnot
  added := by
    intro e s' hs p hp hnot
    rcases h.childlist_cases hs with heq | ⟨q, he, heq⟩ | ⟨q, -, heq⟩
    · exact absurd (heq ▸ hp) hnot
    · rw [heq] at hp
      rcases List.mem_append.mp hp with hp | hp
      · exact absurd hp hnot
      · rw [List.mem_singleton.mp hp, he]
    · rw [heq] at hp
      exact absurd (List.mem_of_mem_erase hp) hnot
  alive := h.child.alive

end Steps

/-! ## Whole runs -/

/-- **The child table.** For every `children_max` and every interleaving of
    `run_trigger`, exits, merged signals, `child_handler` and `trigger_wait` in which
    no pid is reused while a `SIGCHLD` for it is pending: in every state reached,
    `num_children` is the length of `childlist` and within `children_max`, an entry
    is removed once and only after its child exited, and `finish_child` is called
    for no other pid. -/
theorem table_consistent {childrenMax : ℤ} {s : TableState}
    (h : ReachVia (TableStep childrenMax) PidFresh TableState.init s) :
    TableConsistent childrenMax s :=
  (h.invariant (tableInv_init childrenMax) fun _ _ _ hi hc hs => hi.step hc hs).consistent

/-- One trigger exits and is about to be collected by `trigger_wait`, while its
    `SIGCHLD` is still pending. -/
def collecting : TableState :=
  ⟨{ childlist := [1], numChildren := 1, running := [], zombies := [], pending := some 1,
     handler := .idle, aborted := false }, .finishAny 1⟩

theorem table_consistent_collecting :
    TableConsistent 4 collecting ∧ collecting.inHand = [1] := by
  have h1 : ReachVia (TableStep 4) PidFresh TableState.init ⟨mcelogFork State.init 1, .loop⟩ :=
    .step .refl (.loop (.fork 1)) (fun h => nomatch h)
      (.loop (.fork rfl rfl (by decide) (by decide) (by decide)))
  have h2 := h1.step (.loop (.exit 1)) trivial (.loop (.exit (by decide)))
  have h3 := h2.step .triggerWait trivial (.triggerWait rfl rfl)
  have h4 := h3.step (.collect 1) trivial (.collect (by decide))
  exact ⟨table_consistent h4, rfl⟩

end Mcelog.Trigger
