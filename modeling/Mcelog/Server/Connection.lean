import Mcelog.Common.Run
import Mcelog.Server.Dispatch

/-!
# A client connection

Model of `client_event` (server.c): a connection alternates between reading a message
and writing its answer, which may take many calls of `send`. What the kernel does (the
`revents`, how much is sent, what is received and from whom) is the input of a call.
Running out of memory ends the daemon and is left out, and so are its own log messages.

* `clientEvent`: one call, with the bytes that it sends and the message that it reads.
* `clientEventOpen_cases`: what a call does, `Good.step` and `Good.run`: what holds after
  any number of calls.
* `connection_safe`: in every run the assertions hold, and the client gets the answers
  to the messages of allowed senders, in order; a sender that is not allowed gets a
  refusal after them, and the connection is closed.
-/

namespace Mcelog.Server

open Mcelog.Common

/-! ## Data -/

/-- `struct clientcon` (server.c:44-50). `inptr` is never read. -/
structure Clientcon where
  /-- 0 terminated -/
  inbuf : Option (List Char) := none
  outbuf : Option (List Char) := none
  outcur : ℕ := 0
  outlen : ℕ := 0
  deriving DecidableEq, Repr

/-- The values of `pfd->events` for a connection. -/
inductive PollEvents
  | pollin
  | pollout
  deriving DecidableEq, Repr

/-- A registered connection. -/
structure Connection where
  cc : Clientcon := {}
  events : PollEvents := .pollin
  deriving DecidableEq, Repr

/-- `struct ucred`, without the pid. -/
structure Ucred where
  uid : UInt32
  gid : UInt32
  deriving DecidableEq, Repr

/-- `struct config_cred`, with the defaults of `acc` (server.c:55). -/
structure ConfigCred where
  uid : UInt32 := 0
  gid : UInt32 := -1
  deriving DecidableEq, Repr

/-- A message as `recvmsg` returned it, and the daemon that reads it. -/
structure Message where
  text : List Char
  /-- the credentials in the control data, if there are any -/
  creds : Option Ucred
  daemon : Daemon

/-- The input of one call of `client_event`. -/
structure Wakeup where
  /-- `POLLIN`, `POLLOUT` and any other bit in `revents` -/
  pollin : Bool := false
  pollout : Bool := false
  error : Bool := false
  /-- what `send` returns, `none` for an error -/
  send : Option ℕ := none
  /-- what `FIONREAD` returns -/
  fionread : Option ℕ := none
  /-- what `recvmsg` stores, nothing if it fails -/
  recvmsg : List Char := []
  creds : Option Ucred := none
  /-- how much of a refusal is sent -/
  refused : ℕ := 0
  daemon : Daemon

/-- What one call did: the bytes that it sent and the message that it read. -/
structure Served where
  sent : List Char := []
  message : Option Message := none

/-- Where a connection stands. -/
inductive ConState
  | open (con : Connection)
  /-- closed, unregistered and freed -/
  | closed
  /-- an assertion has failed -/
  | aborted

/-! ## Input and output -/

/-- `free_outbuf` (server.c:57-62). -/
def freeOutbuf (cc : Clientcon) : Clientcon := { cc with outbuf := none, outcur := 0, outlen := 0 }

/-- `free_inbuf` (server.c:64-69). -/
def freeInbuf (cc : Clientcon) : Clientcon := { cc with inbuf := none }

/-- `process_cmd` (server.c:130-142). `strsep` finds nothing in a NULL pointer; the
    memory stream gives a buffer even if nothing is written to it. -/
def processCmd (d : Daemon) (cc : Clientcon) : Option Clientcon :=
  if cc.outbuf = none then
    let text := match cc.inbuf with
      | none => []
      | some line => (dispatchCommands d line).2
    some { cc with outbuf := some text, outcur := 0, outlen := text.length }
  else none

/-- The test of the credentials (server.c:161-163). -/
def isAllowed (acc : ConfigCred) (uc : Ucred) : Bool :=
  uc.uid == 0 || (acc.uid != -1 && uc.uid == acc.uid) || (acc.gid != -1 && uc.gid == acc.gid)

/-- The refusal (server.c:167). -/
def permissionDenied : List Char := "permission denied\n".toList

/-- `access_check` (server.c:145-169): its result, and what it sends. `sendstring` does
    not look at what `send` returns. -/
def accessCheck (acc : ConfigCred) (creds : Option Ucred) (refused : ℕ) : ℤ × List Char :=
  match creds with
  | none => (-1, [])
  | some uc => if isAllowed acc uc then (0, []) else (-1, permissionDenied.take refused)

/-- What `client_input` leaves behind. `result` is `none` for a negative one. -/
structure Input where
  cc : Clientcon
  result : Option ℕ
  served : Served

/-- `client_input` (server.c:172-200). `recvmsg` stores at most `n` bytes. -/
def clientInput (acc : ConfigCred) (cc : Clientcon) (w : Wakeup) : Option Input :=
  if cc.inbuf = none then
    match w.fionread with
    | none => some { cc := cc, result := none, served := {} }
    | some 0 => some { cc := cc, result := some 0, served := {} }
    | some (n + 1) =>
      let text := w.recvmsg.take (n + 1)
      let cc := { cc with inbuf := some text }
      if text.length < n + 1 then
        some { cc := cc, result := none, served := {} }
      else
        let message : Message := { text := text, creds := w.creds, daemon := w.daemon }
        let (ret, sent) := accessCheck acc w.creds w.refused
        some { cc := cc, result := if ret = 0 then some (n + 1) else none
               served := { sent := sent, message := some message } }
  else none

/-- The buffer is freed once all of it has been sent (server.c:226-227). -/
def finishOutput (cc : Clientcon) : Clientcon :=
  if cc.outcur = cc.outlen then freeOutbuf cc else cc

/-- The `POLLOUT` part of `client_event` (server.c:213-228), `none` if `send` fails. The
    kernel sends at most what it is given. -/
def clientOutput (cc : Clientcon) (w : Wakeup) : Option (Clientcon × List Char) :=
  if cc.outcur < cc.outlen then
    w.send.map fun n =>
      let n := min n (cc.outlen - cc.outcur)
      let sent := ((cc.outbuf.getD []).drop cc.outcur).take n
      (finishOutput { cc with outcur := cc.outcur + n }, sent)
  else some (finishOutput cc, [])

/-- `pfd->events` at the end of `client_event` (server.c:235). -/
def nextEvents (cc : Clientcon) : PollEvents := if cc.outbuf.isSome then .pollout else .pollin

/-- `client_event` (server.c:203-243) on an open connection. -/
def clientEventOpen (acc : ConfigCred) (con : Connection) (w : Wakeup) : ConState × Served :=
  if w.error then (.closed, {})
  else match if w.pollout then clientOutput con.cc w else some (con.cc, []) with
    | none => (.closed, {})
    | some (cc, sent) =>
      if w.pollin then
        match clientInput acc cc w with
        | none => (.aborted, { sent := sent })
        | some input =>
          let served := { input.served with sent := sent ++ input.served.sent }
          if input.result = none then (.closed, served)
          else match processCmd w.daemon input.cc with
            | none => (.aborted, served)
            | some cc => (.open { cc := freeInbuf cc, events := nextEvents (freeInbuf cc) }, served)
      else (.open { cc := cc, events := nextEvents cc }, { sent := sent })

/-- A call of `client_event`; a closed connection gets no more calls. -/
def clientEvent (acc : ConfigCred) : ConState → Wakeup → ConState × Served
  | .open con, w => clientEventOpen acc con w
  | .closed, _ => (.closed, {})
  | .aborted, _ => (.aborted, {})

/-! ## The answers to accepted messages -/

/-- The sender passes `access_check`. -/
def Message.accepted (acc : ConfigCred) (m : Message) : Bool := (accessCheck acc m.creds 0).1 == 0

/-- The sender has sent its credentials and they are not good enough. -/
def Message.refused (acc : ConfigCred) (m : Message) : Prop :=
  ∃ uc, m.creds = some uc ∧ isAllowed acc uc = false

/-- The response to a message. -/
def Message.response (m : Message) : List Char := (dispatchCommands m.daemon m.text).2

/-- The responses to the accepted ones among some messages, one after the other. -/
def responses (acc : ConfigCred) (ms : List Message) : List Char :=
  (ms.filter (·.accepted acc)).flatMap Message.response

theorem accessCheck_allowed {acc : ConfigCred} {uc : Ucred} (h : isAllowed acc uc = true)
    (refused : ℕ) : accessCheck acc (some uc) refused = (0, []) := by
  rw [accessCheck, if_pos h]

theorem accessCheck_not_allowed {acc : ConfigCred} {uc : Ucred} (h : isAllowed acc uc = false)
    (refused : ℕ) : accessCheck acc (some uc) refused = (-1, permissionDenied.take refused) := by
  rw [accessCheck, if_neg (by rw [h]; exact Bool.false_ne_true)]

theorem Message.accepted_iff {acc : ConfigCred} {m : Message} :
    m.accepted acc = true ↔ ∃ uc, m.creds = some uc ∧ isAllowed acc uc = true := by
  rw [Message.accepted, beq_iff_eq]
  cases m.creds with
  | none => exact iff_of_false (show ¬ (-1 : ℤ) = 0 by decide) nofun
  | some uc =>
    cases h : isAllowed acc uc with
    | false =>
      rw [accessCheck_not_allowed h]
      refine iff_of_false (by decide) ?_
      rintro ⟨_, ⟨⟩, h'⟩
      exact Bool.false_ne_true (h.symm.trans h')
    | true =>
      rw [accessCheck_allowed h]
      exact iff_of_true rfl ⟨uc, rfl, h⟩

theorem responses_append (acc : ConfigCred) (ms ms' : List Message) :
    responses acc (ms ++ ms') = responses acc ms ++ responses acc ms' := by
  rw [responses, List.filter_append, List.flatMap_append]
  rfl

theorem responses_accepted {acc : ConfigCred} {m : Message} (h : m.accepted acc = true) :
    responses acc [m] = m.response := by
  rw [responses, List.filter_cons_of_pos h, List.filter_nil, List.flatMap_cons, List.flatMap_nil,
    List.append_nil]

theorem responses_not_accepted {acc : ConfigCred} {m : Message}
    (h : ∀ uc, m.creds = some uc → isAllowed acc uc = false) : responses acc [m] = [] := by
  have hnot : ¬ m.accepted acc = true := by
    rw [Message.accepted_iff]
    rintro ⟨uc, huc, hallowed⟩
    exact Bool.false_ne_true ((h uc huc).symm.trans hallowed)
  rw [responses, List.filter_cons_of_neg hnot, List.filter_nil, List.flatMap_nil]

/-! ## What a call does -/

/-- The part of the response that has not been sent yet. -/
def Clientcon.unsent (cc : Clientcon) : List Char := (cc.outbuf.getD []).drop cc.outcur

/-- The buffers between two calls. -/
structure Clientcon.Buffers (cc : Clientcon) : Prop where
  inbuf : cc.inbuf = none
  outlen : cc.outlen = (cc.outbuf.getD []).length
  outcur : cc.outcur ≤ cc.outlen

/-- A connection between two calls: it waits for output exactly while it has some. -/
structure ConInv (con : Connection) : Prop where
  buffers : con.cc.Buffers
  events : con.events = nextEvents con.cc

theorem nextEvents_eq_pollin {cc : Clientcon} (h : nextEvents cc = .pollin) : cc.outbuf = none := by
  rw [nextEvents] at h
  cases hout : cc.outbuf with
  | none => rfl
  | some text =>
    rw [hout] at h
    cases h

theorem Clientcon.unsent_of_none {cc : Clientcon} (h : cc.outbuf = none) : cc.unsent = [] := by
  rw [Clientcon.unsent, h, Option.getD_none, List.drop_nil]

theorem finishOutput_spec {cc : Clientcon} (h : cc.Buffers) :
    (finishOutput cc).Buffers ∧ (finishOutput cc).unsent = cc.unsent := by
  rw [finishOutput]
  split_ifs with heq
  · refine ⟨⟨h.inbuf, rfl, le_rfl⟩, ?_⟩
    rw [Clientcon.unsent_of_none rfl, Clientcon.unsent, heq, h.outlen, List.drop_length]
  · exact ⟨h, rfl⟩

theorem clientOutput_spec {cc cc' : Clientcon} {w : Wakeup} {sent : List Char} (h : cc.Buffers)
    (hout : clientOutput cc w = some (cc', sent)) :
    cc'.Buffers ∧ cc.unsent = sent ++ cc'.unsent := by
  rw [clientOutput] at hout
  split_ifs at hout with hlt
  · obtain ⟨n, -, heq⟩ := Option.map_eq_some_iff.mp hout
    obtain ⟨rfl, rfl⟩ := Prod.mk.inj heq
    have hle : cc.outcur + min n (cc.outlen - cc.outcur) ≤ cc.outlen := by omega
    have hsent : Clientcon.Buffers
        { cc with outcur := cc.outcur + min n (cc.outlen - cc.outcur) } :=
      ⟨h.inbuf, h.outlen, hle⟩
    obtain ⟨hbuf, hunsent⟩ := finishOutput_spec hsent
    refine ⟨hbuf, ?_⟩
    rw [hunsent, Clientcon.unsent, Clientcon.unsent, ← List.drop_drop]
    exact (List.take_append_drop _ _).symm
  · obtain ⟨rfl, rfl⟩ := Prod.mk.inj (Option.some.inj hout)
    obtain ⟨hbuf, hunsent⟩ := finishOutput_spec h
    exact ⟨hbuf, by rw [hunsent, List.nil_append]⟩

/-- What `client_input` leaves behind if it reports an error: no response is due. -/
def Input.Failed (acc : ConfigCred) (i : Input) : Prop :=
  i.result = none ∧ responses acc i.served.message.toList = [] ∧
    (i.served.sent = [] ∨ ∃ m, i.served.message = some m ∧ m.refused acc ∧
      i.served.sent <+: permissionDenied)

/-- What it leaves behind otherwise: an accepted message, or none at all. -/
def Input.Read (acc : ConfigCred) (d : Daemon) (i : Input) : Prop :=
  i.result ≠ none ∧ i.served.sent = [] ∧
    (i.cc.inbuf = none ∧ i.served.message = none ∨
      ∃ m, i.served.message = some m ∧ m.accepted acc = true ∧ i.cc.inbuf = some m.text ∧
        m.daemon = d)

theorem clientInput_spec (acc : ConfigCred) {cc : Clientcon} (w : Wakeup) (h : cc.inbuf = none) :
    ∃ i, clientInput acc cc w = some i ∧ i.cc.outbuf = cc.outbuf ∧
      (i.Failed acc ∨ i.Read acc w.daemon) := by
  rw [clientInput, if_pos h]
  split
  · exact ⟨_, rfl, rfl, .inl ⟨rfl, rfl, .inl rfl⟩⟩
  · exact ⟨_, rfl, rfl, .inr ⟨nofun, rfl, .inl ⟨h, rfl⟩⟩⟩
  · rename_i n _
    dsimp only
    by_cases hshort : (w.recvmsg.take (n + 1)).length < n + 1
    · rw [if_pos hshort]
      exact ⟨_, rfl, rfl, .inl ⟨rfl, rfl, .inl rfl⟩⟩
    · rw [if_neg hshort]
      refine ⟨_, rfl, rfl, ?_⟩
      cases hcreds : w.creds with
      | none => exact .inl ⟨rfl, responses_not_accepted nofun, .inl rfl⟩
      | some uc =>
        cases hallowed : isAllowed acc uc with
        | false =>
          rw [accessCheck_not_allowed hallowed]
          refine .inl ⟨rfl, responses_not_accepted ?_, .inr ⟨_, rfl, ⟨uc, rfl, hallowed⟩, ?_⟩⟩
          · rintro _ ⟨⟩
            exact hallowed
          · exact List.take_prefix _ _
        | true =>
          rw [accessCheck_allowed hallowed]
          refine .inr ⟨nofun, rfl, .inr ⟨_, rfl, ?_, rfl, rfl⟩⟩
          exact Message.accepted_iff.mpr ⟨uc, rfl, hallowed⟩

/-! ## Runs -/

/-- `poll` reports what the connection waits for, and errors at any time. A closed
    connection is not polled. -/
def Delivered : ConState → Wakeup → Prop
  | .open con, w =>
    (w.pollin = true → con.events = .pollin) ∧ (w.pollout = true → con.events = .pollout)
  | .closed, _ | .aborted, _ => False

/-- A call that closes the connection: no response is due for what it read, and it has
    sent at most a refusal, after all responses. -/
structure Closes (acc : ConfigCred) (con : Connection) (served : Served) : Prop where
  noResponse : responses acc served.message.toList = []
  sent : served.sent = [] ∨ con.cc.unsent = [] ∧ ∃ m, served.message = some m ∧ m.refused acc ∧
    served.sent <+: permissionDenied

/-- A call after which the connection is open: what it sends and what it leaves to be
    sent are what was left and the response to what it read. -/
structure Continues (acc : ConfigCred) (con : Connection) (served : Served) (con' : Connection) :
    Prop where
  inv : ConInv con'
  bytes : con.cc.unsent ++ responses acc served.message.toList = served.sent ++ con'.cc.unsent

/-- Reading: there is nothing left to be sent. -/
theorem clientEventOpen_pollin {acc : ConfigCred} {con : Connection} {w : Wakeup}
    (h : ConInv con) (herr : w.error = false) (hin : w.pollin = true) (hout : w.pollout = false)
    (hev : con.events = .pollin) :
    ((clientEventOpen acc con w).1 = .closed ∧ Closes acc con (clientEventOpen acc con w).2) ∨
    ∃ con', (clientEventOpen acc con w).1 = .open con' ∧
      Continues acc con (clientEventOpen acc con w).2 con' := by
  have hnone : con.cc.outbuf = none := nextEvents_eq_pollin (h.events.symm.trans hev)
  have hunsent : con.cc.unsent = [] := Clientcon.unsent_of_none hnone
  obtain ⟨i, hi, hbuf, hfailed | hread⟩ := clientInput_spec acc w h.buffers.inbuf
  · obtain ⟨hresult, hresp, hsent⟩ := hfailed
    have hcall : clientEventOpen acc con w = (.closed, i.served) := by
      simp [clientEventOpen, herr, hin, hout, hi, hresult]
    rw [hcall]
    refine .inl ⟨rfl, ⟨hresp, ?_⟩⟩
    exact hsent.imp id fun hm => ⟨hunsent, hm⟩
  · obtain ⟨hresult, hsent, hmessage⟩ := hread
    have hcmd : ∃ cc, processCmd w.daemon i.cc = some cc ∧ (freeInbuf cc).Buffers ∧
        (freeInbuf cc).unsent = responses acc i.served.message.toList := by
      rw [processCmd, if_pos (hbuf.trans hnone)]
      refine ⟨_, rfl, ⟨rfl, rfl, Nat.zero_le _⟩, ?_⟩
      rcases hmessage with ⟨hinbuf, hm⟩ | ⟨m, hm, hacc, hinbuf, hd⟩
      · rw [hinbuf, hm]
        rfl
      · rw [hinbuf, hm, Option.toList_some, responses_accepted hacc, Message.response, hd]
        rfl
    obtain ⟨cc, hcc, hbuffers, hcc_unsent⟩ := hcmd
    have hcall : clientEventOpen acc con w =
        (.open { cc := freeInbuf cc, events := nextEvents (freeInbuf cc) }, i.served) := by
      simp [clientEventOpen, herr, hin, hout, hi, hresult, hcc]
    rw [hcall]
    refine .inr ⟨_, rfl, ⟨⟨hbuffers, rfl⟩, ?_⟩⟩
    rw [hunsent, hsent, List.nil_append, List.nil_append, hcc_unsent]

/-- Writing, and a call that finds nothing to do. -/
theorem clientEventOpen_not_pollin {acc : ConfigCred} {con : Connection} {w : Wakeup}
    (h : ConInv con) (herr : w.error = false) (hin : w.pollin = false) :
    ((clientEventOpen acc con w).1 = .closed ∧ Closes acc con (clientEventOpen acc con w).2) ∨
    ∃ con', (clientEventOpen acc con w).1 = .open con' ∧
      Continues acc con (clientEventOpen acc con w).2 con' := by
  cases hr : (if w.pollout then clientOutput con.cc w else some (con.cc, [])) with
  | none =>
    have hcall : clientEventOpen acc con w = (.closed, {}) := by
      rw [clientEventOpen, herr, hr]
      rfl
    rw [hcall]
    exact .inl ⟨rfl, ⟨rfl, .inl rfl⟩⟩
  | some r =>
    obtain ⟨cc, sent⟩ := r
    have hspec : cc.Buffers ∧ con.cc.unsent = sent ++ cc.unsent := by
      split_ifs at hr with hout
      · exact clientOutput_spec h.buffers hr
      · obtain ⟨rfl, rfl⟩ := Prod.mk.inj (Option.some.inj hr)
        exact ⟨h.buffers, rfl⟩
    have hcall : clientEventOpen acc con w =
        (.open { cc := cc, events := nextEvents cc }, { sent := sent }) := by
      rw [clientEventOpen, herr, hr, hin]
      rfl
    rw [hcall]
    refine .inr ⟨_, rfl, ⟨⟨hspec.1, rfl⟩, ?_⟩⟩
    rw [hspec.2]
    exact List.append_nil _

/-- One call of `client_event`. -/
theorem clientEventOpen_cases (acc : ConfigCred) {con : Connection} {w : Wakeup}
    (h : ConInv con) (hw : Delivered (.open con) w) :
    ((clientEventOpen acc con w).1 = .closed ∧ Closes acc con (clientEventOpen acc con w).2) ∨
    ∃ con', (clientEventOpen acc con w).1 = .open con' ∧
      Continues acc con (clientEventOpen acc con w).2 con' := by
  cases herr : w.error with
  | true =>
    have hcall : clientEventOpen acc con w = (.closed, {}) := by
      rw [clientEventOpen, herr]
      rfl
    rw [hcall]
    exact .inl ⟨rfl, ⟨rfl, .inl rfl⟩⟩
  | false =>
    cases hin : w.pollin with
    | false => exact clientEventOpen_not_pollin h herr hin
    | true =>
      have hev := hw.1 hin
      have hout : w.pollout = false := by
        cases hout : w.pollout with
        | false => rfl
        | true => exact absurd (hev.symm.trans (hw.2 hout)) (by decide)
      exact clientEventOpen_pollin h herr hin hout hev

/-- What holds of a connection after some calls that have sent `sent` and read
    `messages`. -/
def Good (acc : ConfigCred) (sent : List Char) (messages : List Message) : ConState → Prop
  | .open con => ConInv con ∧ responses acc messages = sent ++ con.cc.unsent
  | .closed => sent <+: responses acc messages ∨
      ∃ m p, messages.getLast? = some m ∧ m.refused acc ∧ p <+: permissionDenied ∧
        sent = responses acc messages ++ p
  | .aborted => False

theorem Good.step {acc : ConfigCred} {sent : List Char} {messages : List Message} {s : ConState}
    {w : Wakeup} (h : Good acc sent messages s) (hw : Delivered s w) :
    Good acc (sent ++ (clientEvent acc s w).2.sent)
      (messages ++ (clientEvent acc s w).2.message.toList) (clientEvent acc s w).1 := by
  cases s with
  | closed => exact hw.elim
  | aborted => exact hw.elim
  | «open» con =>
    obtain ⟨hinv, hbytes⟩ := h
    have hcall : clientEvent acc (.open con) w = clientEventOpen acc con w := rfl
    obtain ⟨hs, hcloses⟩ | ⟨con', hs, hcont⟩ := clientEventOpen_cases acc hinv hw
    · rw [hcall, hs]
      have hall : responses acc (messages ++ (clientEventOpen acc con w).2.message.toList) =
          sent ++ con.cc.unsent := by
        rw [responses_append, hcloses.noResponse, List.append_nil, hbytes]
      rcases hcloses.sent with hsent | ⟨hunsent, m, hm, hrefused, hp⟩
      · refine .inl ?_
        rw [hall, hsent, List.append_nil]
        exact List.prefix_append _ _
      · refine .inr ⟨m, _, ?_, hrefused, hp, ?_⟩
        · rw [hm, Option.toList_some, List.getLast?_concat]
        · rw [hall, hunsent, List.append_nil]
    · rw [hcall, hs]
      refine ⟨hcont.inv, ?_⟩
      rw [responses_append, hbytes, List.append_assoc, hcont.bytes, List.append_assoc]

theorem Good.run {acc : ConfigCred} {sent : List Char} {messages : List Message} {s : ConState}
    {ws : List Wakeup} (h : Good acc sent messages s)
    (hws : Meets (clientEvent acc) Delivered s ws) :
    Good acc (sent ++ (runOut (clientEvent acc) s ws).flatMap Served.sent)
      (messages ++ (runOut (clientEvent acc) s ws).filterMap Served.message)
      (runState (clientEvent acc) s ws) := by
  induction ws generalizing sent messages s with
  | nil => simpa using h
  | cons w ws ih =>
    have hrun := ih (h.step hws.1) hws.2
    rw [runOut_cons, List.flatMap_cons, runState_cons]
    rw [List.append_assoc, List.append_assoc] at hrun
    cases hm : (clientEvent acc s w).2.message with
    | none =>
      rw [List.filterMap_cons_none hm]
      simpa [hm] using hrun
    | some m =>
      rw [List.filterMap_cons_some hm]
      simpa [hm] using hrun

/-- All bytes that a connection sends in a run. -/
def sentBytes (acc : ConfigCred) (ws : List Wakeup) : List Char :=
  (runOut (clientEvent acc) (.open {}) ws).flatMap Served.sent

/-- All messages that it reads. -/
def receivedMessages (acc : ConfigCred) (ws : List Wakeup) : List Message :=
  (runOut (clientEvent acc) (.open {}) ws).filterMap Served.message

/-- **Safety of a connection.** Whatever `poll` reports of what the connection waits for,
    whatever is received and however much is sent at once, no assertion fails, and the
    client gets a prefix of the responses to its accepted messages. Only a sender that
    `access_check` refuses gets something else: all responses before, a prefix of the
    refusal, and the end of the connection. -/
theorem connection_safe (acc : ConfigCred) (ws : List Wakeup)
    (h : Meets (clientEvent acc) Delivered (.open {}) ws) :
    runState (clientEvent acc) (.open {}) ws ≠ .aborted ∧
    (sentBytes acc ws <+: responses acc (receivedMessages acc ws) ∨
      runState (clientEvent acc) (.open {}) ws = .closed ∧
        ∃ m p, (receivedMessages acc ws).getLast? = some m ∧ m.refused acc ∧
          p <+: permissionDenied ∧
          sentBytes acc ws = responses acc (receivedMessages acc ws) ++ p) := by
  have hinit : Good acc [] [] (.open {}) := ⟨⟨⟨rfl, rfl, le_rfl⟩, rfl⟩, rfl⟩
  have hgood := hinit.run h
  rw [List.nil_append, List.nil_append] at hgood
  change Good acc (sentBytes acc ws) (receivedMessages acc ws) _ at hgood
  cases hs : runState (clientEvent acc) (.open {}) ws with
  | aborted =>
    rw [hs] at hgood
    exact hgood.elim
  | «open» con =>
    rw [hs] at hgood
    refine ⟨nofun, .inl ?_⟩
    rw [hgood.2]
    exact List.prefix_append _ _
  | closed =>
    rw [hs] at hgood
    exact ⟨nofun, hgood.imp id fun hrefused => ⟨rfl, hrefused⟩⟩

/-- A message of five bytes from this user, with the default settings of the daemon. -/
def pingFrom (uid : UInt32) : Wakeup :=
  { pollin := true, fionread := some 5, recvmsg := "ping\n".toList, creds := some ⟨uid, 100⟩
    refused := 18, daemon := idleDaemon }

/-- The root user pings and gets the answer in two parts; then another user sends a
    message on the same connection. -/
def twoSenders : List Wakeup :=
  [pingFrom 0, { pollout := true, send := some 3, daemon := idleDaemon },
    { pollout := true, send := some 2, daemon := idleDaemon }, pingFrom 1000]

theorem delivered_twoSenders : Meets (clientEvent {}) Delivered (.open {}) twoSenders := by
  have hin : ∀ uid, Delivered (.open {}) (pingFrom uid) := fun _ => ⟨fun _ => rfl, nofun⟩
  exact ⟨hin 0, ⟨nofun, fun _ => rfl⟩, ⟨nofun, fun _ => rfl⟩, hin 1000, trivial⟩

/-- The run of the two senders. -/
theorem connection_safe_two_senders :
    sentBytes {} twoSenders = "pong\npermission denied\n".toList ∧
    runState (clientEvent {}) (.open {}) twoSenders ≠ .aborted :=
  ⟨rfl, (connection_safe {} twoSenders delivered_twoSenders).1⟩

/-- A user who is not allowed gets a text that is part of no response. -/
theorem refusal_is_sent :
    Meets (clientEvent {}) Delivered (.open {}) [pingFrom 1000] ∧
    ¬ sentBytes {} [pingFrom 1000] <+: responses {} (receivedMessages {} [pingFrom 1000]) := by
  refine ⟨⟨⟨fun _ => rfl, nofun⟩, trivial⟩, ?_⟩
  rw [show sentBytes {} [pingFrom 1000] = permissionDenied from rfl,
    show responses {} (receivedMessages {} [pingFrom 1000]) = [] from rfl]
  decide

end Mcelog.Server
