import Mcelog.Trigger.Model

/-!
# The children on the list

The entries of `childlist` are the children that run, the zombies, and the child
that was waited for and is about to be removed.

* `ChildInv`: this, with `num_children` counting the entries.
* `ChildInv.fork`, `ChildInv.exit`, `ChildInv.reap`, `ChildInv.finish`: each
  operation keeps it. In particular `finish_child` finds its child.
-/

namespace Mcelog.Trigger

/-- The child that was waited for and is still on `childlist`. -/
def Handler.inHand : Handler → List ℕ
  | .finishSi pid | .finishSweep pid => [pid]
  | .idle | .waitSi _ | .sweep => []

/-- The list of the children, with `hand` waited for. -/
structure ChildInv (s : State) (hand : List ℕ) : Prop where
  /-- the entries of `childlist` -/
  children : s.childlist.Perm (s.running ++ s.zombies ++ hand)
  nodup : s.childlist.Nodup
  count : s.numChildren = s.childlist.length
  alive : s.aborted = false

section

variable {s : State} {hand : List ℕ} {pid : ℕ}

theorem childInv_init : ChildInv State.init [] :=
  ⟨List.Perm.refl _, List.nodup_nil, rfl, rfl⟩

/-- A child is only in one place. -/
theorem ChildInv.disjoint (h : ChildInv s hand) :
    s.running.Nodup ∧ (∀ p ∈ s.running, p ∉ s.zombies) ∧
      ∀ p ∈ hand, p ∉ s.running ∧ p ∉ s.zombies := by
  have hnodup : (s.running ++ s.zombies ++ hand).Nodup := h.children.nodup_iff.mp h.nodup
  rw [List.nodup_append, List.nodup_append] at hnodup
  obtain ⟨⟨hrun, -, hzom⟩, -, hhand⟩ := hnodup
  refine ⟨hrun, fun p hp hz => hzom p hp p hz rfl, fun p hp => ⟨fun hr => ?_, fun hz => ?_⟩⟩
  · exact hhand p (List.mem_append_left _ hr) p hp rfl
  · exact hhand p (List.mem_append_right _ hz) p hp rfl

theorem ChildInv.hand_mem (h : ChildInv s hand) : ∀ p ∈ hand, p ∈ s.childlist :=
  fun _ hp => h.children.mem_iff.mpr (List.mem_append_right _ hp)

theorem ChildInv.fork (h : ChildInv s []) (hr : pid ∉ s.running) (hz : pid ∉ s.zombies) :
    ChildInv (mcelogFork s pid) [] := by
  have hnot : pid ∉ s.childlist := by
    intro hmem
    rcases List.mem_append.mp (h.children.mem_iff.mp hmem) with hmem | hmem
    · exact (List.mem_append.mp hmem).elim hr hz
    · cases hmem
  refine ⟨?_, ?_, ?_, h.alive⟩
  · exact (h.children.append_right [pid]).trans (List.perm_append_singleton _ _)
  · simp only [mcelogFork]
    rw [List.nodup_append]
    refine ⟨h.nodup, List.nodup_singleton _, ?_⟩
    intro a ha b hb hab
    rw [List.mem_singleton] at hb
    exact hnot (hb ▸ hab ▸ ha)
  · simp [mcelogFork, h.count]

theorem ChildInv.exit (h : ChildInv s hand) (hr : pid ∈ s.running) :
    ChildInv (childExit s pid) hand := by
  refine ⟨?_, h.nodup, h.count, h.alive⟩
  have hmove : (s.running ++ s.zombies).Perm (s.running.erase pid ++ pid :: s.zombies) :=
    ((List.perm_cons_erase hr).append_right _).trans List.perm_middle.symm
  exact h.children.trans (hmove.append_right _)

/-- `waitpid` takes a zombie. -/
theorem ChildInv.reap (h : ChildInv s []) (hz : pid ∈ s.zombies) (handler : Handler) :
    ChildInv { s with zombies := s.zombies.erase pid, handler := handler } [pid] := by
  refine ⟨?_, h.nodup, h.count, h.alive⟩
  have hchildren := h.children
  rw [List.append_nil] at hchildren
  have hmove : s.zombies.Perm (s.zombies.erase pid ++ [pid]) :=
    (List.perm_cons_erase hz).trans (List.perm_append_singleton _ _).symm
  simp only [List.append_assoc]
  exact hchildren.trans (hmove.append_left _)

/-- `finish_child` finds the child it has in hand and gives the slot back. -/
theorem ChildInv.finish (h : ChildInv s [pid]) (next : Handler) :
    ChildInv (finishChild s pid next) [] := by
  have hmem : pid ∈ s.childlist := h.hand_mem pid (List.mem_singleton_self _)
  have hlen : (s.childlist.erase pid).length + 1 = s.childlist.length :=
    List.length_erase_add_one hmem
  have hcount := h.count
  rw [finishChild, if_pos hmem]
  refine ⟨?_, h.nodup.erase _, ?_, h.alive⟩
  · have hcons : (pid :: s.childlist.erase pid).Perm (pid :: (s.running ++ s.zombies)) :=
      (List.perm_cons_erase hmem).symm.trans
        (h.children.trans (List.perm_append_singleton _ _))
    simpa using hcons.cons_inv
  · simp only
    omega

end

end Mcelog.Trigger
