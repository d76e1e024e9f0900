import Mcelog.Common.Run

/-!
# The event loop

Model of `eventloop.c`: the table of poll descriptors and their callbacks, and one
round of `ppoll` and `poll_callbacks`.

`pollfds` and `pollcbs` are parallel arrays that every operation changes alike, so a
slot holds both. What a callback does to the table (`client_accept` registers a
descriptor, `client_event` unregisters its own or changes its `events`) is an input: a
list of operations for each invocation. A failed `assert` ends the daemon.

* `view`: the registered slots, as `poll_callbacks` sees them.
* `view_register`, `view_unregister`, `view_setEvents`: what each operation does to it.
* `registrations_run`: the table holds what was registered and not unregistered, in
  order.
-/

namespace Mcelog.Event

open Mcelog.Common

/-- `MAX_POLLFD` (eventloop.c:29). -/
def pollfdLimit : ℕ := 10

/-- The callbacks that the program registers. -/
inductive PollCb
  | null
  | clientAccept
  | clientEvent
  | processMcefd
  deriving DecidableEq, Repr

/-- `pollfds[i]` and `pollcbs[i]`. `data` is a pointer. -/
structure PollSlot where
  fd : ℤ
  events : ℕ
  revents : ℕ
  cb : PollCb
  data : ℕ
  deriving DecidableEq, Repr

/-- The table, with `max_pollfd`. -/
structure PollTable where
  slot : ℕ → PollSlot
  maxPollfd : ℕ
  inside : maxPollfd ≤ pollfdLimit

/-- The table in static memory. -/
def PollTable.init : PollTable :=
  { slot := fun _ => { fd := 0, events := 0, revents := 0, cb := .null, data := 0 }
    maxPollfd := 0, inside := Nat.zero_le _ }

/-! ## Operations -/

/-- `register_pollcb` (eventloop.c:53-71) once the descriptor is marked close-on-exec.
    `revents` is not written. -/
def registerPollcb (t : PollTable) (fd : ℤ) (events : ℕ) (cb : PollCb) (data : ℕ) : PollTable :=
  if h : t.maxPollfd ≥ pollfdLimit then t
  else
    { slot := Function.update t.slot t.maxPollfd
        { t.slot t.maxPollfd with fd := fd, events := events, cb := cb, data := data }
      maxPollfd := t.maxPollfd + 1
      inside := Nat.lt_of_not_le h }

/-- `unregister_pollcb` (eventloop.c:74-83): the later slots move down, the last one
    keeps its content. -/
def unregisterPollcb (t : PollTable) (i : ℕ) : Option PollTable :=
  if i < t.maxPollfd then
    some { slot := fun j => if i ≤ j ∧ j + 1 < t.maxPollfd then t.slot (j + 1) else t.slot j
           maxPollfd := t.maxPollfd - 1
           inside := (Nat.sub_le _ _).trans t.inside }
  else none

/-- What is done to the table. -/
inductive TableOp
  /-- `register_pollcb`; `cloexec` tells whether `closeonexec` succeeds -/
  | register (fd : ℤ) (events : ℕ) (cb : PollCb) (data : ℕ) (cloexec : Bool)
  /-- `unregister_pollcb(pollfds + i)` -/
  | unregister (i : ℕ)
  /-- `pollfds[i].events = events` -/
  | setEvents (i : ℕ) (events : ℕ)
  deriving DecidableEq, Repr

/-- One operation. No result means a failed assertion. -/
def applyOp (t : PollTable) : TableOp → Option PollTable
  | .register fd events cb data cloexec =>
    some (if cloexec then registerPollcb t fd events cb data else t)
  | .unregister i => unregisterPollcb t i
  | .setEvents i events =>
    some { t with slot := Function.update t.slot i { t.slot i with events := events } }

/-- The operations of one callback. -/
def applyOps (t : PollTable) : List TableOp → Option PollTable
  | [] => some t
  | op :: ops => (applyOp t op).bind fun t => applyOps t ops

/-! ## A round -/

/-- `c->cb(f, c->data)`, with the descriptor and the `revents` that it sees. -/
structure Call where
  fd : ℤ
  revents : ℕ
  cb : PollCb
  data : ℕ
  deriving DecidableEq, Repr

/-- A slot as its callback sees it. -/
def PollSlot.call (s : PollSlot) : Call :=
  { fd := s.fd, revents := s.revents, cb := s.cb, data := s.data }

/-- `ppoll` sets `revents` of the registered slots. -/
def ppoll (t : PollTable) (revents : List ℕ) : PollTable :=
  { t with slot := fun j =>
      if j < t.maxPollfd then { t.slot j with revents := revents.getD j 0 } else t.slot j }

/-- What is left of a round: the table, the calls made, and the operations performed. -/
structure Round where
  table : Option PollTable
  calls : List Call
  performed : List TableOp

/-- `poll_callbacks` (eventloop.c:85-97) from index `k = pollfdLimit - rest` on, with
    `n` events left. Call `i` performs the operations `behaviour[i]`. The loop ends at
    `max_pollfd`, which is at most `pollfdLimit` all the time. -/
def pollCallbacksFrom (t : PollTable) (n : ℕ) (behaviour : List (List TableOp)) : ℕ → Round
  | 0 => { table := some t, calls := [], performed := [] }
  | rest + 1 =>
    let k := pollfdLimit - (rest + 1)
    if k < t.maxPollfd ∧ n > 0 then
      if (t.slot k).revents ≠ 0 then
        let ops := behaviour.headD []
        match applyOps t ops with
        | none => { table := none, calls := [(t.slot k).call], performed := ops }
        | some t' =>
          let r := pollCallbacksFrom t' (n - 1) behaviour.tail rest
          { table := r.table, calls := (t.slot k).call :: r.calls, performed := ops ++ r.performed }
      else pollCallbacksFrom t n behaviour rest
    else { table := some t, calls := [], performed := [] }

/-- The registered slots, as `poll_callbacks` sees them. -/
def PollTable.view (t : PollTable) : List Call :=
  (List.range t.maxPollfd).map fun j => (t.slot j).call

/-- The calls of a list whose descriptor is ready. -/
def readyOf (l : List Call) : List Call := l.filter fun call => call.revents ≠ 0

/-- One round of `eventloop` (eventloop.c:136-150): `ppoll` returns the number of ready
    descriptors. -/
def pollRound (t : PollTable) (revents : List ℕ) (behaviour : List (List TableOp)) : Round :=
  pollCallbacksFrom (ppoll t revents) (readyOf (ppoll t revents).view).length behaviour pollfdLimit

/-- What happens to the table: an operation outside of the loop, or a round in which
    `ppoll` reports `revents`. -/
inductive LoopEvent
  | op (op : TableOp)
  | round (revents : List ℕ) (behaviour : List (List TableOp))

/-- One event of a run. Nothing happens after a failed assertion. -/
def loopStep : Option PollTable → LoopEvent → Option PollTable × Round
  | none, _ => (none, { table := none, calls := [], performed := [] })
  | some t, .op op =>
    (applyOp t op, { table := applyOp t op, calls := [], performed := [op] })
  | some t, .round revents behaviour =>
    ((pollRound t revents behaviour).table, pollRound t revents behaviour)

/-! ## What the operations do to the view -/

section View

variable {t t' : PollTable}

@[simp] theorem length_view (t : PollTable) : t.view.length = t.maxPollfd := by
  simp [PollTable.view]

theorem view_getElem? (t : PollTable) (j : ℕ) :
    t.view[j]? = if j < t.maxPollfd then some (t.slot j).call else none := by
  rw [PollTable.view, List.getElem?_map]
  by_cases hj : j < t.maxPollfd
  · simp [hj]
  · simp [hj]

/-- A free slot is taken at the end, with the `revents` that it has. -/
theorem view_register (t : PollTable) (fd : ℤ) (events : ℕ) (cb : PollCb) (data : ℕ) :
    (registerPollcb t fd events cb data).view =
      if t.maxPollfd < pollfdLimit then
        t.view ++ [{ fd := fd, revents := (t.slot t.maxPollfd).revents, cb := cb, data := data }]
      else t.view := by
  unfold registerPollcb
  split_ifs with hfull hroom hroom
  · omega
  · rfl
  · rw [PollTable.view, List.range_succ, List.map_append]
    congr 1
    · refine List.map_congr_left fun j hj => ?_
      have hne : j ≠ t.maxPollfd := (List.mem_range.mp hj).ne
      simp [Function.update_of_ne hne]
    · simp [PollSlot.call]
  · omega

/-- A slot is taken out. -/
theorem view_unregister {i : ℕ} (h : unregisterPollcb t i = some t') :
    t'.view = t.view.eraseIdx i := by
  unfold unregisterPollcb at h
  split_ifs at h with hi
  obtain rfl := Option.some.inj h
  refine List.ext_getElem? fun j => ?_
  rw [view_getElem?, List.getElem?_eraseIdx]
  dsimp only
  by_cases hji : j < i
  · rw [if_pos hji, view_getElem?, if_pos (show j < t.maxPollfd - 1 by omega),
      if_neg (show ¬ (i ≤ j ∧ j + 1 < t.maxPollfd) by omega),
      if_pos (show j < t.maxPollfd by omega)]
  · rw [if_neg hji, view_getElem?]
    by_cases hj : j + 1 < t.maxPollfd
    · rw [if_pos (show j < t.maxPollfd - 1 by omega), if_pos hj, if_pos ⟨not_lt.mp hji, hj⟩]
    · rw [if_neg (show ¬ j < t.maxPollfd - 1 by omega), if_neg hj]

theorem view_setEvents {i events : ℕ} (h : applyOp t (.setEvents i events) = some t') :
    t'.view = t.view := by
  obtain rfl := Option.some.inj h
  refine List.map_congr_left fun j _ => ?_
  by_cases hj : j = i
  · subst hj
    simp [PollSlot.call]
  · simp [Function.update_of_ne hj]

theorem view_ppoll (t : PollTable) (revents : List ℕ) : (ppoll t revents).view =
    t.view.mapIdx fun j call => { call with revents := revents.getD j 0 } := by
  refine List.ext_getElem? fun j => ?_
  rw [view_getElem?, List.getElem?_mapIdx, view_getElem?]
  by_cases hj : j < t.maxPollfd
  · have hj' : j < (ppoll t revents).maxPollfd := hj
    rw [if_pos hj, if_pos hj']
    simp [ppoll, hj, PollSlot.call]
  · have hj' : ¬ j < (ppoll t revents).maxPollfd := hj
    rw [if_neg hj, if_neg hj']
    rfl

end View

/-! ## Registrations -/

/-- A descriptor with the callback and the data pointer that it was registered with. -/
structure Registration where
  fd : ℤ
  cb : PollCb
  data : ℕ
  deriving DecidableEq, Repr

/-- The registration of a slot. -/
def Call.registration (call : Call) : Registration :=
  { fd := call.fd, cb := call.cb, data := call.data }

/-- The registrations in the table. -/
def PollTable.registrations (t : PollTable) : List Registration := t.view.map Call.registration

/-- What an operation means for the list of registrations: a new one comes to its end
    if there is room, and one that is unregistered is taken out. -/
def TableOp.register? (regs : List Registration) : TableOp → List Registration
  | .register fd _ cb data cloexec =>
    if cloexec ∧ regs.length < pollfdLimit then regs ++ [{ fd := fd, cb := cb, data := data }]
    else regs
  | .unregister i => regs.eraseIdx i
  | .setEvents _ _ => regs

section Registrations

variable {t t' : PollTable}

theorem registrations_applyOp {op : TableOp} (h : applyOp t op = some t') :
    t'.registrations = op.register? t.registrations := by
  unfold PollTable.registrations
  cases op with
  | register fd events cb data cloexec =>
    obtain rfl := Option.some.inj h
    cases cloexec with
    | false => simp [TableOp.register?]
    | true =>
      simp only [if_true, view_register, TableOp.register?, List.length_map, length_view, true_and]
      split_ifs
      · rw [List.map_append]
        rfl
      · rfl
  | unregister i =>
    rw [view_unregister h, TableOp.register?, List.eraseIdx_map]
  | setEvents i events => rw [view_setEvents h, TableOp.register?]

theorem registrations_applyOps {ops : List TableOp} (h : applyOps t ops = some t') :
    t'.registrations = ops.foldl TableOp.register? t.registrations := by
  induction ops generalizing t with
  | nil =>
    obtain rfl := Option.some.inj h
    rfl
  | cons op ops ih =>
    obtain ⟨t₁, h₁, h₂⟩ := Option.bind_eq_some_iff.mp h
    rw [ih h₂, registrations_applyOp h₁]
    rfl

theorem registrations_ppoll (t : PollTable) (revents : List ℕ) :
    (ppoll t revents).registrations = t.registrations := by
  rw [PollTable.registrations, view_ppoll]
  refine List.ext_getElem? fun j => ?_
  simp only [PollTable.registrations, List.getElem?_map, List.getElem?_mapIdx]
  cases t.view[j]? <;> rfl

theorem registrations_pollCallbacksFrom {behaviour : List (List TableOp)} {n rest : ℕ}
    (h : (pollCallbacksFrom t n behaviour rest).table = some t') :
    t'.registrations =
      (pollCallbacksFrom t n behaviour rest).performed.foldl TableOp.register? t.registrations := by
  induction rest generalizing t n behaviour with
  | zero =>
    obtain rfl := Option.some.inj h
    rfl
  | succ rest ih =>
    rw [pollCallbacksFrom] at h ⊢
    dsimp only at h ⊢
    split_ifs at h ⊢ with hloop hready
    · cases hops : applyOps t (behaviour.headD []) with
      | none =>
        rw [hops] at h
        cases h
      | some t₁ =>
        rw [hops] at h
        rw [List.foldl_append, ih h, registrations_applyOps hops]
    · exact ih h
    · obtain rfl := Option.some.inj h
      rfl

/-- **What is in the table.** After every run the table holds what was registered and
    not unregistered, in order, by the daemon and by its callbacks. -/
theorem registrations_run (es : List LoopEvent) : ∀ {t : PollTable},
    runState loopStep (some PollTable.init) es = some t →
      t.registrations = ((runOut loopStep (some PollTable.init) es).flatMap
        Round.performed).foldl TableOp.register? [] := by
  induction es using List.reverseRecOn with
  | nil =>
    intro t h
    obtain rfl := Option.some.inj h
    rfl
  | append_singleton es e ih =>
    intro t h
    rw [runState_append] at h
    rw [runOut_append, List.flatMap_append, List.foldl_append]
    generalize runState loopStep (some PollTable.init) es = st at h ih ⊢
    cases st with
    | none => cases h
    | some t₁ =>
      rw [← ih rfl]
      simp only [runState_cons, runState_nil, runOut_cons, runOut_nil, List.flatMap_singleton]
        at h ⊢
      cases e with
      | op op => exact registrations_applyOp h
      | round revents behaviour =>
        rw [← registrations_ppoll t₁ revents]
        exact registrations_pollCallbacksFrom h

end Registrations

end Mcelog.Event
