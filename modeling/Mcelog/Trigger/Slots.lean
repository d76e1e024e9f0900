import Mcelog.Common.Transition
import Mcelog.Trigger.Children

/-!
# Trigger slots

Whether `child_handler` gives back the slot of every trigger that exited.

* `SlotInv`: the invariant. The children on `childlist` are the running ones,
  the zombies and the one the handler has in hand, and a zombie is on record:
  a `SIGCHLD` is pending or the handler will still reach it.
* `no_slot_leaked`: in every run in which a delivered `SIGCHLD` names a child
  that can still be waited for, or finds no zombie at all, no slot is leaked.
* `slot_leaked_by_stale_signal`: a `SIGCHLD` that names a child which an earlier
  sweep reaped makes `child_handler` return before its sweep, and a zombie keeps
  its slot with nothing left to reap it.
-/

namespace Mcelog.Trigger

open Mcelog.Common

/-- With no `SIGCHLD` pending and `child_handler` not running, every child on
    `childlist` is running and `num_children` counts the running triggers. -/
def NoSlotLeaked (s : State) : Prop :=
  s.pending = none → s.handler = .idle →
    (∀ pid ∈ s.childlist, pid ∈ s.running ∧ pid ∉ s.zombies) ∧ s.numChildren = s.running.length

/-- A delivered `SIGCHLD` carries a pid that is still a zombie, or one that is
    no child any more while there is no zombie to miss. -/
def SignalFresh (s : State) : Event → Prop
  | .deliver => ∀ p, s.pending = some p → p ∈ s.zombies ∨ (p ∉ s.running ∧ s.zombies = [])
  | _ => True

instance (s : State) (e : Event) : Decidable (SignalFresh s e) :=
  match e with
  | .deliver => decidable_of_iff
      (∀ p ∈ s.pending, p ∈ s.zombies ∨ (p ∉ s.running ∧ s.zombies = []))
      ⟨fun h p hp => h p hp, fun h p hp => h p hp⟩
  | .fork _ | .refuse | .exit _ | .ready | .handle _ => isTrue trivial

/-! ## The invariant -/

/-- The handler reaches the zombies before it returns. -/
def Handler.WillSweep (zombies : List ℕ) : Handler → Prop
  | .finishSi _ | .sweep | .finishSweep _ => True
  | .waitSi p => p ∈ zombies
  | .idle => False

/-- What holds in every state of a run with fresh signals. -/
structure SlotInv (s : State) : Prop where
  /-- the entries of `childlist` -/
  children : s.childlist.Perm (s.running ++ s.zombies ++ s.handler.inHand)
  nodup : s.childlist.Nodup
  count : s.numChildren = s.childlist.length
  alive : s.aborted = false
  /-- no zombie is forgotten -/
  recorded : s.zombies ≠ [] → s.pending ≠ none ∨ s.handler.WillSweep s.zombies
  /-- `waitpid(si->si_pid)` never meets a running child -/
  waited : ∀ p, s.handler = .waitSi p → p ∈ s.zombies ∨ p ∉ s.running

theorem slotInv_init : SlotInv State.init where
  children := List.Perm.refl _
  nodup := List.nodup_nil
  count := rfl
  alive := rfl
  recorded := fun h => absurd rfl h
  waited := fun _ h => nomatch h

section

variable {s : State} {pid : ℕ}

theorem SlotInv.childInv (h : SlotInv s) : ChildInv s s.handler.inHand :=
  ⟨h.children, h.nodup, h.count, h.alive⟩

/-- The invariant from its part about the list. -/
theorem ChildInv.slotInv {hand : List ℕ} (h : ChildInv s hand) (hhand : s.handler.inHand = hand)
    (hrec : s.zombies ≠ [] → s.pending ≠ none ∨ s.handler.WillSweep s.zombies)
    (hwait : ∀ p, s.handler = .waitSi p → p ∈ s.zombies ∨ p ∉ s.running) : SlotInv s :=
  ⟨hhand ▸ h.children, h.nodup, h.count, h.alive, hrec, hwait⟩

/-! ## One step -/

theorem SlotInv.fork (h : SlotInv s) (hidle : s.handler = .idle) (hr : pid ∉ s.running)
    (hz : pid ∉ s.zombies) : SlotInv (mcelogFork s pid) := by
  have hchild := h.childInv
  rw [hidle] at hchild
  have hidle' : (mcelogFork s pid).handler = .idle := hidle
  refine (hchild.fork hr hz).slotInv (by rw [hidle']; rfl) h.recorded ?_
  intro p hp
  rw [hidle'] at hp
  cases hp

theorem SlotInv.exit (h : SlotInv s) (hr : pid ∈ s.running) : SlotInv (childExit s pid) := by
  refine (h.childInv.exit hr).slotInv rfl ?_ ?_
  · intro _
    left
    simp [childExit]
  · intro p hp
    rcases h.waited p hp with hz | hz
    · left
      exact List.mem_cons_of_mem _ hz
    · right
      intro hmem
      exact hz (List.mem_of_mem_erase hmem)

theorem SlotInv.deliver {siPid : ℕ} (h : SlotInv s) (hidle : s.handler = .idle)
    (hfresh : siPid ∈ s.zombies ∨ (siPid ∉ s.running ∧ s.zombies = [])) :
    SlotInv { s with pending := none, handler := .waitSi siPid } := by
  refine ⟨?_, h.nodup, h.count, h.alive, ?_, ?_⟩
  · simpa [hidle, Handler.inHand] using h.children
  · intro hz
    right
    exact hfresh.resolve_right (fun hno => hz hno.2)
  · intro p hp
    cases hp
    exact hfresh.imp_right And.left

/-- `waitpid` moves a zombie into the handler's hand. -/
theorem SlotInv.reap {handler : Handler} (h : SlotInv s) (hz : pid ∈ s.zombies)
    (hnone : s.handler.inHand = []) (hhand : handler.inHand = [pid])
    (hsweep : ∀ zs, handler.WillSweep zs) (hwait : ∀ p, handler ≠ .waitSi p) :
    SlotInv { s with zombies := s.zombies.erase pid, handler := handler } := by
  have hchild := h.childInv
  rw [hnone] at hchild
  exact (hchild.reap hz handler).slotInv hhand (fun _ => Or.inr (hsweep _))
    (fun p hp => absurd hp (hwait p))

/-- `finish_child` finds the child it has in hand and gives the slot back. -/
theorem SlotInv.finish (h : SlotInv s) (hhand : s.handler.inHand = [pid]) :
    SlotInv (finishChild s pid .sweep) := by
  have hchild := h.childInv
  rw [hhand] at hchild
  have hsweep : (finishChild s pid .sweep).handler = .sweep := by
    rw [finishChild, if_pos (hchild.hand_mem pid (List.mem_singleton_self _))]
  refine (hchild.finish .sweep).slotInv (by rw [hsweep]; rfl) ?_ ?_
  · intro _
    right
    rw [hsweep]
    trivial
  · intro p hp
    rw [hsweep] at hp
    cases hp

/-- The handler returns without a sweep. -/
theorem SlotInv.return (h : SlotInv s) (hnone : s.handler.inHand = [])
    (hrec : s.zombies ≠ [] → s.pending ≠ none) : SlotInv { s with handler := .idle } := by
  refine ⟨?_, h.nodup, h.count, h.alive, fun hz => Or.inl (hrec hz), fun _ hp => nomatch hp⟩
  have hchildren := h.children
  rw [hnone] at hchildren
  exact hchildren

end

/-- A step with a fresh signal keeps the invariant. -/
theorem SlotInv.step {childrenMax : ℤ} {s s' : State} {e : Event} (h : SlotInv s)
    (hfresh : SignalFresh s e) (hs : Step childrenMax s e s') : SlotInv s' := by
  cases hs with
  | fork _ hidle _ hr hz => exact h.fork hidle hr hz
  | refuse => exact h
  | exit hr => exact h.exit hr
  | ready => exact h
  | deliver _ hidle hp => exact h.deliver hidle (hfresh _ hp)
  | waitSiZombie hh hz =>
    exact h.reap hz (by rw [hh]; rfl) rfl (fun _ => trivial) (fun _ hp => nomatch hp)
  | waitSiRunning hh hz hr => exact absurd hr ((h.waited _ hh).resolve_left hz)
  | waitSiFail hh hz =>
    refine h.return (by rw [hh]; rfl) ?_
    intro hne
    -- the early return is harmless here: a later exit made the signal pending again
    refine (h.recorded hne).resolve_right ?_
    rw [hh]
    exact hz
  | finishSi hh => exact h.finish (by rw [hh]; rfl)
  | sweep hh hz => exact h.reap hz (by rw [hh]; rfl) rfl (fun _ => trivial) (fun _ hp => nomatch hp)
  | sweepDone hh hz => exact h.return (by rw [hh]; rfl) (fun hne => absurd hz hne)
  | finishSweep hh => exact h.finish (by rw [hh]; rfl)

/-! ## Whole runs -/

theorem SlotInv.noSlotLeaked {s : State} (h : SlotInv s) : NoSlotLeaked s := by
  intro hpend hidle
  have hz : s.zombies = [] := by
    by_contra hne
    rcases h.recorded hne with hp | hw
    · exact hp hpend
    · rw [hidle] at hw
      exact hw
  have hchildren : s.childlist.Perm s.running := by
    simpa [hz, hidle, Handler.inHand] using h.children
  refine ⟨?_, ?_⟩
  · intro pid hpid
    refine ⟨hchildren.mem_iff.mp hpid, ?_⟩
    rw [hz]
    exact List.not_mem_nil
  · rw [h.count, hchildren.length_eq]

/-- **No leak with fresh signals.** In every run, for every `children_max` and
    every interleaving, in which each delivered `SIGCHLD` names a child that is
    still a zombie, or one that is gone while no zombie is left, no slot is
    leaked in any state reached. -/
theorem no_slot_leaked {childrenMax : ℤ} {s : State}
    (h : ReachVia (Step childrenMax) SignalFresh State.init s) : NoSlotLeaked s :=
  (h.invariant slotInv_init fun _ _ _ hi hc hs => hi.step hc hs).noSlotLeaked

/-- Two triggers are started; the first one exits and is reaped. -/
theorem no_slot_leaked_two_triggers : NoSlotLeaked (mcelogFork State.init 2) := by
  have h1 : ReachVia (Step 4) SignalFresh State.init (mcelogFork State.init 1) :=
    .step .refl (.fork 1) trivial (.fork rfl rfl (by decide) (by decide) (by decide))
  have h2 := h1.step (.fork 2) trivial (.fork rfl rfl (by decide) (by decide) (by decide))
  have h3 := h2.step (.exit 1) trivial (.exit (by decide))
  have h4 := h3.step .deliver (by decide) (.deliver rfl rfl rfl)
  have h5 := h4.step (.handle 0) trivial (.waitSiZombie rfl (by decide))
  have h6 := h5.step (.handle 0) trivial (.finishSi rfl)
  exact no_slot_leaked (h6.step (.handle 0) trivial (.sweepDone rfl rfl))

/-! ## The stale signal -/

/-- Triggers 1, 2 and 3 run. 1 exits; while `child_handler` works on its signal
    2 exits as well and is reaped by the sweep, but its own `SIGCHLD` stays
    pending. 3 exits and merges into that signal. -/
def staleSignal : State :=
  { childlist := [3], numChildren := 1, running := [], zombies := [3], pending := some 2,
    handler := .idle, aborted := false }

theorem staleSignal_reach : Reach (Step 4) State.init staleSignal := by
  have h1 : Reach (Step 4) State.init (mcelogFork State.init 1) :=
    Reach.step .refl (.fork 1) (.fork rfl rfl (by decide) (by decide) (by decide))
  have h2 := h1.step (.fork 2) (.fork rfl rfl (by decide) (by decide) (by decide))
  have h3 := h2.step (.fork 3) (.fork rfl rfl (by decide) (by decide) (by decide))
  have h4 := h3.step (.exit 1) (.exit (by decide))
  have h5 := h4.step .deliver (.deliver rfl rfl rfl)
  have h6 := h5.step (.exit 2) (.exit (by decide))
  have h7 := h6.step (.handle 0) (.waitSiZombie rfl (by decide))
  have h8 := h7.step (.handle 0) (.finishSi rfl)
  have h9 := h8.step (.handle 2) (.sweep rfl (by decide))
  have h10 := h9.step (.handle 0) (.finishSweep rfl)
  have h11 := h10.step (.handle 0) (.sweepDone rfl rfl)
  exact h11.step (.exit 3) (.exit (by decide))

/-- The `SIGCHLD` of `staleSignal` is delivered: `waitpid(2)` fails,
    `child_handler` returns before its sweep, and trigger 3 keeps its slot as a
    zombie with no signal pending. -/
theorem slot_leaked_by_stale_signal :
    ∃ s, Reach (Step 4) State.init s ∧ s.pending = none ∧ s.handler = .idle ∧
      s.childlist = [3] ∧ s.zombies = [3] ∧ s.running = [] ∧ ¬ NoSlotLeaked s := by
  have h1 := staleSignal_reach.step .deliver (.deliver rfl rfl rfl)
  have h2 := h1.step (.handle 0) (.waitSiFail rfl (by decide) (by decide))
  refine ⟨_, h2, rfl, rfl, rfl, rfl, rfl, ?_⟩
  intro h
  exact absurd (h rfl rfl).2 (by decide)

end Mcelog.Trigger
