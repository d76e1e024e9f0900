import Mcelog.Event.Loop

/-!
# Callbacks run on what `ppoll` reported

Whether `poll_callbacks` calls only descriptors that the `ppoll` of this round found
ready. `register_pollcb` leaves `revents` of its slot as it is, so a descriptor that a
callback registers may look ready from an earlier use of the slot; it is called if the
loop gets there with events left, which happens when a callback unregistered a slot and
a ready one moved past the loop index.

* `RoundExact`: the calls of a round are among the descriptors reported ready.
* `callbacks_on_reported`: every round of every run is exact in which no callback
  registers into a slot with left over `revents`, or no callback unregisters.
* `stale_readiness`: a client that was just accepted is called with the hangup of
  another one.
-/

namespace Mcelog.Event

open Mcelog.Common

/-! ## The property and its condition -/

/-- The descriptors that `ppoll` reports ready, with their `revents` and as they were
    registered. -/
def reported (regs : List Registration) (revents : List ℕ) : List Call :=
  readyOf (regs.mapIdx fun j reg =>
    { fd := reg.fd, revents := revents.getD j 0, cb := reg.cb, data := reg.data })

/-- Each call is for a reported descriptor, with the reported `revents` and the
    registered callback and data; and none is called twice. -/
def RoundExact (regs : List Registration) (revents : List ℕ) (calls : List Call) : Prop :=
  calls.Sublist (reported regs revents) ∧
    ((regs.map Registration.fd).Nodup → (calls.map Call.fd).Nodup)

/-- A slot that is registered has no `revents` left over. -/
def opClean (t : PollTable) : TableOp → Bool
  | .register _ _ _ _ cloexec =>
    !cloexec || t.maxPollfd ≥ pollfdLimit || (t.slot t.maxPollfd).revents = 0
  | .unregister _ | .setEvents _ _ => true

/-- All operations of a callback are clean. -/
def opsClean (t : PollTable) : List TableOp → Bool
  | [] => true
  | op :: ops => opClean t op && ((applyOp t op).map fun t => opsClean t ops).getD true

/-- All operations of the callbacks that `poll_callbacks` calls are clean. -/
def callbacksClean (t : PollTable) (n : ℕ) (behaviour : List (List TableOp)) : ℕ → Bool
  | 0 => true
  | rest + 1 =>
    let k := pollfdLimit - (rest + 1)
    if k < t.maxPollfd ∧ n > 0 then
      if (t.slot k).revents ≠ 0 then
        let ops := behaviour.headD []
        opsClean t ops &&
          ((applyOps t ops).map fun t => callbacksClean t (n - 1) behaviour.tail rest).getD true
      else callbacksClean t n behaviour rest
    else true

/-- No callback unregisters. -/
def keepsAll (behaviour : List (List TableOp)) : Bool :=
  behaviour.all fun ops => ops.all fun op =>
    match op with
    | .unregister _ => false
    | .register .. | .setEvents .. => true

/-- In the round, no callback registers into a slot with left over `revents`, or no
    callback unregisters. -/
def RoundSafe : Option PollTable → LoopEvent → Prop
  | some t, .round revents behaviour =>
    callbacksClean (ppoll t revents) (readyOf (ppoll t revents).view).length behaviour
      pollfdLimit = true ∨ keepsAll behaviour = true
  | some _, .op _ | none, _ => True

instance (st : Option PollTable) (e : LoopEvent) : Decidable (RoundSafe st e) :=
  match st, e with
  | some _, .round _ _ => inferInstanceAs (Decidable (_ ∨ _))
  | some _, .op _ | none, _ => isTrue trivial

/-! ## Rounds with clean registrations -/

theorem drop_eraseIdx_sublist {α : Type*} (l : List α) (i m : ℕ) :
    ((l.eraseIdx i).drop m).Sublist (l.drop m) := by
  induction m generalizing l i with
  | zero => exact List.eraseIdx_sublist l i
  | succ m ih =>
    cases l with
    | nil => simp
    | cons a l =>
      cases i with
      | zero => exact List.drop_sublist_drop_left l (Nat.le_succ m)
      | succ i => exact ih l i

section Clean

variable {t t' : PollTable}

theorem readyOf_cons_of_ready {s : PollSlot} (h : s.revents ≠ 0) (l : List Call) :
    readyOf (s.call :: l) = s.call :: readyOf l :=
  List.filter_cons_of_pos (decide_eq_true h)

theorem readyOf_cons_of_not_ready {s : PollSlot} (h : ¬ s.revents ≠ 0) (l : List Call) :
    readyOf (s.call :: l) = readyOf l :=
  List.filter_cons_of_neg (by rw [decide_eq_true_iff]; exact h)

/-- Behind any index, a clean operation makes nothing ready. -/
theorem applyOp_ready {op : TableOp} (h : applyOp t op = some t') (hclean : opClean t op = true)
    (m : ℕ) : (readyOf (t'.view.drop m)).Sublist (readyOf (t.view.drop m)) := by
  cases op with
  | register fd events cb data cloexec =>
    obtain rfl := Option.some.inj h
    cases cloexec with
    | false => exact List.Sublist.refl _
    | true =>
      simp only [opClean, Bool.not_true, Bool.false_or, Bool.or_eq_true, decide_eq_true_eq]
        at hclean
      simp only [if_true, view_register]
      split_ifs with hroom
      · have hzero := hclean.resolve_left (by omega)
        have hlast : readyOf (List.drop (m - t.view.length)
            [{ fd := fd, revents := (t.slot t.maxPollfd).revents, cb := cb, data := data }]) =
              [] := by
          rw [readyOf, List.filter_eq_nil_iff]
          intro call hmem
          rw [List.mem_singleton.mp (List.mem_of_mem_drop hmem)]
          simp [hzero]
        rw [List.drop_append, readyOf, List.filter_append]
        unfold readyOf at hlast
        rw [hlast, List.append_nil]
        exact List.Sublist.refl _
      · exact List.Sublist.refl _
  | unregister i =>
    rw [view_unregister h]
    exact (drop_eraseIdx_sublist _ _ _).filter _
  | setEvents i events =>
    rw [view_setEvents h]

theorem applyOps_ready {ops : List TableOp} (h : applyOps t ops = some t')
    (hclean : opsClean t ops = true) (m : ℕ) :
    (readyOf (t'.view.drop m)).Sublist (readyOf (t.view.drop m)) := by
  induction ops generalizing t with
  | nil =>
    obtain rfl := Option.some.inj h
    exact List.Sublist.refl _
  | cons op ops ih =>
    obtain ⟨t₁, h₁, h₂⟩ := Option.bind_eq_some_iff.mp h
    rw [opsClean, h₁, Bool.and_eq_true] at hclean
    exact (ih h₂ hclean.2).trans (applyOp_ready h₁ hclean.1 m)

theorem view_drop {k : ℕ} (h : k < t.maxPollfd) :
    t.view.drop k = (t.slot k).call :: t.view.drop (k + 1) := by
  have hk : k < t.view.length := by simpa using h
  rw [List.drop_eq_getElem_cons hk]
  congr 1
  simp [PollTable.view]

/-- From index `k` on, the calls are among the ready slots behind it. -/
theorem calls_of_clean {behaviour : List (List TableOp)} {n rest : ℕ}
    (hclean : callbacksClean t n behaviour rest = true) (hrest : rest ≤ pollfdLimit) :
    (pollCallbacksFrom t n behaviour rest).calls.Sublist
      (readyOf (t.view.drop (pollfdLimit - rest))) := by
  induction rest generalizing t n behaviour with
  | zero => exact List.nil_sublist _
  | succ rest ih =>
    have hnext : pollfdLimit - (rest + 1) + 1 = pollfdLimit - rest := by omega
    rw [callbacksClean] at hclean
    rw [pollCallbacksFrom]
    dsimp only at hclean ⊢
    split_ifs at hclean ⊢ with hloop hready
    · rw [view_drop hloop.1, hnext, readyOf_cons_of_ready hready]
      rw [Bool.and_eq_true] at hclean
      cases hops : applyOps t (behaviour.headD []) with
      | none => exact (List.nil_sublist _).cons_cons _
      | some t₁ =>
        rw [hops] at hclean
        refine ((ih hclean.2 (by omega)).trans ?_).cons_cons _
        exact applyOps_ready hops hclean.1 _
    · rw [view_drop hloop.1, hnext, readyOf_cons_of_not_ready hready]
      exact ih hclean (by omega)
    · exact List.nil_sublist _

end Clean

/-! ## Rounds without removals -/

section Keeps

variable {t t' : PollTable} {l : List Call}

theorem applyOps_of_keeps {ops : List TableOp} (hkeep : keepsAll [ops] = true)
    (hview : l <+: t.view) : ∃ t', applyOps t ops = some t' ∧ l <+: t'.view := by
  induction ops generalizing t with
  | nil => exact ⟨t, rfl, hview⟩
  | cons op ops ih =>
    simp only [keepsAll, List.all_cons, List.all_nil, Bool.and_true, Bool.and_eq_true] at hkeep ih
    have hop : ∃ t₁, applyOp t op = some t₁ ∧ l <+: t₁.view := by
      cases op with
      | register fd events cb data cloexec =>
        refine ⟨_, rfl, ?_⟩
        cases cloexec with
        | false => exact hview
        | true =>
          simp only [if_true, view_register]
          split_ifs
          · exact hview.trans (List.prefix_append _ _)
          · exact hview
      | unregister i => exact absurd hkeep.1 Bool.false_ne_true
      | setEvents i events =>
        refine ⟨_, rfl, ?_⟩
        rw [view_setEvents rfl]
        exact hview
    obtain ⟨t₁, happly, hview₁⟩ := hop
    obtain ⟨t', happly', hview'⟩ := ih hkeep.2 hview₁
    exact ⟨t', by rw [applyOps, happly]; exact happly', hview'⟩

/-- If no slot moves, the loop calls the ready slots one by one and stops behind the
    last one, before it reaches a slot that was registered meanwhile. -/
theorem calls_of_keeps {behaviour : List (List TableOp)} {n rest : ℕ}
    (hkeep : keepsAll behaviour = true) (hview : l <+: t.view)
    (hn : n = (readyOf (l.drop (pollfdLimit - rest))).length) (hrest : rest ≤ pollfdLimit) :
    (pollCallbacksFrom t n behaviour rest).calls = readyOf (l.drop (pollfdLimit - rest)) := by
  have hlen : l.length ≤ t.maxPollfd := by simpa using hview.length_le
  induction rest generalizing t n behaviour with
  | zero =>
    have hend : l.drop pollfdLimit = [] := List.drop_eq_nil_of_le (hlen.trans t.inside)
    rw [pollCallbacksFrom, Nat.sub_zero, hend]
    rfl
  | succ rest ih =>
    have hnext : pollfdLimit - (rest + 1) + 1 = pollfdLimit - rest := by omega
    by_cases hk : pollfdLimit - (rest + 1) < l.length
    · have hslot : l[pollfdLimit - (rest + 1)] = (t.slot (pollfdLimit - (rest + 1))).call := by
        have hget := hview.getElem hk
        rw [hget]
        simp [PollTable.view]
      rw [List.drop_eq_getElem_cons hk, hnext, hslot] at hn ⊢
      rw [pollCallbacksFrom]
      dsimp only
      by_cases hready : (t.slot (pollfdLimit - (rest + 1))).revents ≠ 0
      · rw [readyOf_cons_of_ready hready] at hn ⊢
        rw [List.length_cons] at hn
        rw [if_pos ⟨by omega, by omega⟩, if_pos hready]
        have hops : keepsAll [behaviour.headD []] = true ∧ keepsAll behaviour.tail = true := by
          cases behaviour with
          | nil => exact ⟨rfl, rfl⟩
          | cons ops behaviour => simpa [keepsAll] using hkeep
        obtain ⟨t₁, happly, hview₁⟩ := applyOps_of_keeps hops.1 hview
        rw [happly]
        have hlen₁ : l.length ≤ t₁.maxPollfd := by simpa using hview₁.length_le
        exact congrArg _ (ih hops.2 hview₁ (by rw [hn]; rfl) (by omega) hlen₁)
      · rw [readyOf_cons_of_not_ready hready] at hn ⊢
        split_ifs with hloop
        · exact ih hkeep hview hn (by omega) hlen
        · have hzero : n = 0 := by omega
          rw [hzero] at hn
          exact (List.length_eq_zero_iff.mp hn.symm).symm
    · have hend : l.drop (pollfdLimit - (rest + 1)) = [] :=
        List.drop_eq_nil_of_le (not_lt.mp hk)
      rw [hend] at hn ⊢
      obtain rfl : n = 0 := hn
      rw [pollCallbacksFrom]
      dsimp only
      rw [if_neg fun hloop => lt_irrefl 0 hloop.2]
      rfl

end Keeps

/-! ## Whole runs -/

theorem readyOf_ppoll (t : PollTable) (revents : List ℕ) :
    readyOf (ppoll t revents).view = reported t.registrations revents := by
  have hview : (ppoll t revents).view = t.registrations.mapIdx fun j reg =>
      { fd := reg.fd, revents := revents.getD j 0, cb := reg.cb, data := reg.data } := by
    rw [view_ppoll, PollTable.registrations]
    refine List.ext_getElem? fun j => ?_
    simp only [List.getElem?_mapIdx, List.getElem?_map]
    cases t.view[j]? <;> rfl
  rw [hview]
  rfl

theorem roundExact_of_sublist {regs : List Registration} {revents : List ℕ} {calls : List Call}
    (h : calls.Sublist (reported regs revents)) : RoundExact regs revents calls := by
  refine ⟨h, fun hnodup => ?_⟩
  have hready : ((reported regs revents).map Call.fd).Sublist (regs.map Registration.fd) := by
    have hfds : regs.map Registration.fd = (regs.mapIdx fun j reg =>
        ({ fd := reg.fd, revents := revents.getD j 0, cb := reg.cb, data := reg.data } :
          Call)).map Call.fd := by
      refine List.ext_getElem? fun j => ?_
      simp only [List.getElem?_mapIdx, List.getElem?_map]
      cases regs[j]? <;> rfl
    rw [hfds]
    exact List.filter_sublist.map _
  exact ((h.map _).trans hready).nodup hnodup

/-- A safe round is exact. -/
theorem RoundSafe.exact {t : PollTable} {revents : List ℕ} {behaviour : List (List TableOp)}
    (h : RoundSafe (some t) (.round revents behaviour)) :
    RoundExact t.registrations revents (pollRound t revents behaviour).calls := by
  refine roundExact_of_sublist ?_
  rw [← readyOf_ppoll]
  rcases h with hclean | hkeep
  · exact calls_of_clean hclean le_rfl
  · rw [pollRound, calls_of_keeps hkeep (List.prefix_refl _) (by simp) le_rfl, Nat.sub_self,
      List.drop_zero]

/-- **No callback on stale readiness.** In every run of registrations, removals and
    rounds, with any readiness and any operations of the callbacks, in which each round
    is safe: every round calls only descriptors that its `ppoll` reported, with the
    `revents` it reported and the data that they were registered with, and none twice. -/
theorem callbacks_on_reported (es : List LoopEvent)
    (hsafe : Meets loopStep RoundSafe (some PollTable.init) es) (i : ℕ) (revents : List ℕ)
    (behaviour : List (List TableOp)) (hi : es[i]? = some (.round revents behaviour))
    (t : PollTable) (ht : runState loopStep (some PollTable.init) (es.take i) = some t) :
    RoundExact
      (((runOut loopStep (some PollTable.init) (es.take i)).flatMap Round.performed).foldl
        TableOp.register? [])
      revents (pollRound t revents behaviour).calls := by
  rw [← registrations_run _ ht]
  have hround := hsafe.getElem? hi
  rw [ht] at hround
  exact hround.exact

/-! ## Four clients -/

/-- The server socket 3 and the device 4 are registered; three clients 5, 6 and 7 are
    accepted, and the last one hangs up (`POLLIN | POLLHUP`). -/
def threeClients : List LoopEvent :=
  [.op (.register 3 0x001 .clientAccept 0 true), .op (.register 4 0x001 .processMcefd 0x100 true),
    .round [0x001] [[.register 5 0x001 .clientEvent 0x200 true]],
    .round [0x001] [[.register 6 0x001 .clientEvent 0x300 true]],
    .round [0x001] [[.register 7 0x001 .clientEvent 0x400 true]],
    .round [0, 0, 0, 0, 0x011] [[.unregister 4]]]

/-- The table after these events. -/
def threeClientsTable : PollTable :=
  (runState loopStep (some PollTable.init) threeClients).getD PollTable.init

/-- The round with the hangup is exact. -/
theorem hangup_round_exact : ∃ t,
    runState loopStep (some PollTable.init) (threeClients.take 5) = some t ∧
      RoundExact
        (((runOut loopStep (some PollTable.init) (threeClients.take 5)).flatMap
          Round.performed).foldl TableOp.register? [])
        [0, 0, 0, 0, 0x011] (pollRound t [0, 0, 0, 0, 0x011] [[.unregister 4]]).calls :=
  ⟨_, rfl, callbacks_on_reported threeClients (by decide) 5 _ _ rfl _ rfl⟩

/-- Then in one round a fourth client connects, client 5 hangs up, and client 6 sends a
    command. The fourth client is registered in the slot of client 7, whose hangup is
    still in it; the removal of client 5 moves both clients down, so client 6 is skipped
    and the new client is called with the hangup. -/
theorem stale_readiness :
    runState loopStep (some PollTable.init) threeClients = some threeClientsTable ∧
    (pollRound threeClientsTable [0x001, 0, 0x011, 0x001]
      [[.register 7 0x001 .clientEvent 0x500 true], [.unregister 2], [.unregister 3]]).calls =
      [{ fd := 3, revents := 0x001, cb := .clientAccept, data := 0 },
        { fd := 5, revents := 0x011, cb := .clientEvent, data := 0x200 },
        { fd := 7, revents := 0x011, cb := .clientEvent, data := 0x500 }] ∧
    reported threeClientsTable.registrations [0x001, 0, 0x011, 0x001] =
      [{ fd := 3, revents := 0x001, cb := .clientAccept, data := 0 },
        { fd := 5, revents := 0x011, cb := .clientEvent, data := 0x200 },
        { fd := 6, revents := 0x001, cb := .clientEvent, data := 0x300 }] ∧
    ¬ RoundExact threeClientsTable.registrations [0x001, 0, 0x011, 0x001]
      (pollRound threeClientsTable [0x001, 0, 0x011, 0x001]
        [[.register 7 0x001 .clientEvent 0x500 true], [.unregister 2], [.unregister 3]]).calls := by
  refine ⟨rfl, by decide, by decide, fun h => ?_⟩
  exact absurd h.1 (by decide)

end Mcelog.Event
