import Mcelog.Common.Lines
import Mcelog.Common.Transition
import Mcelog.Server.Dispatch

/-!
# A client and the daemon

Model of `ask_server` (client.c), and of the exchange between the front end and the
daemon: the answer arrives in pieces, the front end reads it line by line and takes
the line `done` for its end. The daemon keeps the connection open.

Main results:

* `askServer_answer`: an answer of lines that do not end in `done`, followed by
  `done`, is printed and ends the loop, with no input left.
* `Exchange.askServer_eq`: the pieces in which the answer arrives do not matter.
* `Exchange.not_deadlock`: if the whole answer makes the front end return, the two
  never wait for each other.
-/

namespace Mcelog.Server

open Mcelog.Bucket Mcelog.Common Mcelog.Memory Mcelog.Page

/-! ## The front end -/

/-- `fgets` into a buffer for `n` characters and the 0, on a stream that stays open. It
    returns what it read and what is left, or waits for more input (`none`). -/
def fgets : ℕ → List Char → Option (List Char × List Char)
  | 0, text => some ([], text)
  | _ + 1, [] => none
  | n + 1, c :: text =>
    if c = '\n' then some ([c], text)
    else (fgets n text).map fun (buf, text) => (c :: buf, text)

/-- `ask_server` after it has sent its command. -/
structure Client where
  /-- received and not yet read -/
  unread : List Char := []
  /-- the output on `stdout` -/
  printed : List Char := []
  /-- the loop has been left through its `return` -/
  returned : Bool := false
  deriving DecidableEq, Repr

/-- One iteration of the loop of `ask_server` (client.c:64-76), or `none` if `fgets`
    waits. `strlen` and `fputs` stop at a 0. The line `pong` only flushes the output. -/
def Client.read (c : Client) : Option Client :=
  (fgets 1023 c.unread).map fun (buf, unread) =>
    let buf := buf.takeWhile (· ≠ '\x00')
    if "done\n".toList <:+ buf then { c with unread := unread, returned := true }
    else { c with unread := unread, printed := c.printed ++ buf }

theorem fgets_eq_append {n : ℕ} {text buf rest : List Char}
    (h : fgets n text = some (buf, rest)) : text = buf ++ rest ∧ (0 < n → buf ≠ []) := by
  induction n generalizing text buf with
  | zero =>
    obtain ⟨rfl, rfl⟩ : [] = buf ∧ text = rest := by simpa [fgets] using h
    exact ⟨rfl, fun h => absurd h (lt_irrefl 0)⟩
  | succ n ih =>
    cases text with
    | nil => cases h
    | cons c text =>
      rw [fgets] at h
      split_ifs at h with hc
      · obtain ⟨rfl, rfl⟩ : [c] = buf ∧ text = rest := by simpa using h
        exact ⟨rfl, fun _ => List.cons_ne_nil _ _⟩
      · obtain ⟨⟨buf', rest'⟩, h', heq⟩ := Option.map_eq_some_iff.mp h
        obtain ⟨rfl, rfl⟩ : c :: buf' = buf ∧ rest' = rest := by simpa using heq
        exact ⟨by rw [(ih h').1, List.cons_append], fun _ => List.cons_ne_nil _ _⟩

/-- Every iteration reads something. -/
theorem Client.length_unread_lt {c c' : Client} (h : c.read = some c') :
    c'.unread.length < c.unread.length := by
  obtain ⟨⟨buf, rest⟩, hf, heq⟩ := Option.map_eq_some_iff.mp h
  obtain ⟨htext, hbuf⟩ := fgets_eq_append hf
  have hlen : 0 < buf.length := List.length_pos_iff.mpr (hbuf (by decide))
  have hunread : c'.unread = rest := by
    rw [← heq]
    dsimp only
    split_ifs <;> rfl
  rw [hunread, htext, List.length_append]
  omega

/-- The loop of `ask_server` (client.c:64-77), until it returns or waits for more input.
    It does not see the end of the input: the daemon does not close the connection. -/
def askServer (c : Client) : Client :=
  if c.returned then c
  else match _h : c.read with
    | none => c
    | some c' => askServer c'
termination_by c.unread.length
decreasing_by exact Client.length_unread_lt _h

/-! ## Reading a text -/

/-- What has been read does not depend on what arrives later. -/
theorem fgets_append {n : ℕ} {text buf rest : List Char} (h : fgets n text = some (buf, rest))
    (later : List Char) : fgets n (text ++ later) = some (buf, rest ++ later) := by
  induction n generalizing text buf with
  | zero =>
    obtain ⟨rfl, rfl⟩ : [] = buf ∧ text = rest := by simpa [fgets] using h
    rfl
  | succ n ih =>
    cases text with
    | nil => cases h
    | cons c text =>
      rw [fgets] at h
      rw [List.cons_append, fgets]
      split_ifs at h ⊢ with hc
      · obtain ⟨rfl, rfl⟩ : [c] = buf ∧ text = rest := by simpa using h
        rfl
      · obtain ⟨⟨buf', rest'⟩, h', heq⟩ := Option.map_eq_some_iff.mp h
        obtain ⟨rfl, rfl⟩ : c :: buf' = buf ∧ rest' = rest := by simpa using heq
        rw [ih h']
        rfl

/-- A line that fits into the buffer. -/
theorem fgets_line {n : ℕ} {l : List Char} (hl : '\n' ∉ l) (hn : l.length < n)
    (rest : List Char) : fgets n (l ++ '\n' :: rest) = some (l ++ ['\n'], rest) := by
  induction n generalizing l with
  | zero => exact absurd hn (Nat.not_lt_zero _)
  | succ n ih =>
    cases l with
    | nil => rfl
    | cons c l =>
      rw [List.mem_cons, not_or] at hl
      rw [List.cons_append, fgets, if_neg (Ne.symm hl.1),
        ih hl.2 (by simpa using Nat.lt_of_succ_lt_succ hn)]
      rfl

/-- A line that does not fit is cut. -/
theorem fgets_long {n : ℕ} {l : List Char} (hl : '\n' ∉ l) (hn : n ≤ l.length)
    (rest : List Char) : fgets n (l ++ rest) = some (l.take n, l.drop n ++ rest) := by
  induction n generalizing l with
  | zero => rfl
  | succ n ih =>
    cases l with
    | nil => exact absurd hn (Nat.not_succ_le_zero _)
    | cons c l =>
      rw [List.mem_cons, not_or] at hl
      rw [List.cons_append, fgets, if_neg (Ne.symm hl.1), ih hl.2 (Nat.le_of_succ_le_succ hn)]
      rfl

/-- A line of an answer that is not taken for its end. -/
structure Plain (l : List Char) : Prop where
  noNul : '\x00' ∉ l
  notDone : ¬ "done".toList <:+ l

theorem takeWhile_of_noNul {l : List Char} (h : '\x00' ∉ l) :
    l.takeWhile (· ≠ '\x00') = l := by
  rw [List.takeWhile_eq_self_iff]
  intro c hc
  exact decide_eq_true fun heq => h (heq ▸ hc)

theorem done_suffix_iff {l : List Char} :
    "done\n".toList <:+ l ++ ['\n'] ↔ "done".toList <:+ l := by
  have h : "done\n".toList = "done".toList ++ ['\n'] := rfl
  rw [h]
  exact List.suffix_append_self_iff

theorem askServer_of_returned {c : Client} (h : c.returned = true) : askServer c = c := by
  rw [askServer, if_pos h]

theorem askServer_of_waiting {c : Client} (hr : c.read = none) : askServer c = c := by
  rw [askServer]
  split_ifs
  · rfl
  · split
    · rfl
    · rename_i c' h
      exact absurd (h.symm.trans hr) (Option.some_ne_none c')

theorem askServer_of_read {c c' : Client} (h : c.returned = false) (hr : c.read = some c') :
    askServer c = askServer c' := by
  rw [askServer, if_neg (by rw [h]; exact Bool.false_ne_true)]
  split
  · rename_i h'
    exact absurd (hr.symm.trans h') (Option.some_ne_none c')
  · rename_i c'' h'
    rw [Option.some.inj (h'.symm.trans hr)]

/-- What one iteration makes of a piece that is not taken for the end. -/
theorem Client.read_plain {buf rest : List Char} {c : Client}
    (hc : fgets 1023 c.unread = some (buf, rest)) (h0 : '\x00' ∉ buf)
    (hdone : ¬ "done\n".toList <:+ buf) :
    c.read = some { c with unread := rest, printed := c.printed ++ buf } := by
  rw [Client.read, hc, Option.map_some]
  dsimp only
  rw [takeWhile_of_noNul h0, if_neg hdone]

/-- The end of the answer. -/
theorem askServer_done (printed : List Char) :
    askServer { unread := "done\n".toList, printed := printed } =
      { printed := printed, returned := true } := by
  have hread : Client.read { unread := "done\n".toList, printed := printed } =
      some { printed := printed, returned := true } := by
    rw [Client.read, show fgets 1023 "done\n".toList = some ("done\n".toList, []) by decide]
    rfl
  rw [askServer_of_read rfl hread, askServer_of_returned rfl]

/-- One line is printed, in as many pieces as it takes. -/
theorem askServer_line {l : List Char} (hl : '\n' ∉ l) (hP : Plain l) (rest printed : List Char) :
    askServer { unread := l ++ '\n' :: rest, printed := printed } =
      askServer { unread := rest, printed := printed ++ (l ++ ['\n']) } := by
  induction hk : l.length using Nat.strong_induction_on generalizing l printed with
  | _ k ih =>
    by_cases hlen : l.length < 1023
    · refine askServer_of_read rfl (Client.read_plain (fgets_line hl hlen rest) ?_ ?_)
      · simpa using hP.noNul
      · exact fun h => hP.notDone (done_suffix_iff.mp h)
    · -- a full buffer has no newline, and what is left of the line is shorter
      have hle : 1023 ≤ l.length := not_lt.mp hlen
      have hsplit : l.take 1023 ++ l.drop 1023 = l := List.take_append_drop 1023 l
      have htake : '\n' ∉ l.take 1023 := fun h => hl (List.mem_of_mem_take h)
      have hdrop : '\n' ∉ l.drop 1023 := fun h => hl (List.mem_of_mem_drop h)
      have hread := Client.read_plain (c := { unread := l ++ '\n' :: rest, printed := printed })
        (fgets_long hl hle _) (fun h => hP.noNul (List.mem_of_mem_take h))
        (fun h => htake (h.subset (by decide)))
      have hP' : Plain (l.drop 1023) :=
        { noNul := fun h => hP.noNul (List.mem_of_mem_drop h)
          notDone := fun h => hP.notDone (h.trans (List.drop_suffix 1023 l)) }
      rw [askServer_of_read rfl hread,
        ih _ (by rw [List.length_drop]; omega) hdrop hP' _ rfl, List.append_assoc,
        ← List.append_assoc (l.take 1023), hsplit]

/-- **The read loop.** An answer of plain lines and the line `done` is printed up to
    that line, and then the loop returns, with nothing left to read. -/
theorem askServer_answer {text : List Char} (h : Terminated '\n' Plain text)
    (printed : List Char) :
    askServer { unread := text ++ "done\n".toList, printed := printed } =
      { printed := printed ++ text, returned := true } := by
  refine h.induction (Q := fun text => ∀ printed,
    askServer { unread := text ++ "done\n".toList, printed := printed } =
      { printed := printed ++ text, returned := true }) ?_ ?_ printed
  · intro printed
    rw [List.nil_append, askServer_done, List.append_nil]
  · intro l s hl hP ih printed
    rw [List.append_assoc, List.cons_append, askServer_line hl hP, ih]
    simp

/-! ## The exchange -/

/-- The daemon with an answer of which `unsent` is still in its buffer, and the front end
    that waits for it. -/
structure Exchange where
  unsent : List Char
  client : Client
  deriving DecidableEq, Repr

/-- The steps of the two parties. -/
inductive ExchangeEvent
  /-- the daemon sends the next `n` bytes -/
  | send (n : ℕ)
  /-- an `fgets` of the front end returns -/
  | read
  deriving DecidableEq, Repr

/-- `client_event` may send any part of its buffer (server.c:214-225); the front end
    reads while its loop runs. -/
inductive ExchangeStep : Exchange → ExchangeEvent → Exchange → Prop
  | send {e : Exchange} {n : ℕ} (hn : 0 < n) (hle : n ≤ e.unsent.length) :
      ExchangeStep e (.send n)
        { unsent := e.unsent.drop n
          client := { e.client with unread := e.client.unread ++ e.unsent.take n } }
  | read {e : Exchange} {c : Client} (hr : e.client.returned = false)
      (hread : e.client.read = some c) : ExchangeStep e .read { e with client := c }

/-- The front end waits for more output and the daemon, which has sent its whole answer,
    for input. -/
def Exchange.Deadlock (e : Exchange) : Prop :=
  e.unsent = [] ∧ e.client.returned = false ∧ e.client.read = none

/-- The daemon has answered `command` and sent nothing yet. -/
def Exchange.start (d : Daemon) (command : List Char) : Exchange :=
  { unsent := (dispatchCommands d command).2, client := {} }

/-- The front end as if it had received everything. -/
def Exchange.complete (e : Exchange) : Client :=
  { e.client with unread := e.client.unread ++ e.unsent }

theorem Client.read_append {c c' : Client} (h : c.read = some c') (later : List Char) :
    Client.read { c with unread := c.unread ++ later } =
      some { c' with unread := c'.unread ++ later } := by
  obtain ⟨⟨buf, rest⟩, hf, rfl⟩ := Option.map_eq_some_iff.mp h
  rw [Client.read, fgets_append hf later, Option.map_some]
  dsimp only
  split_ifs <;> rfl

/-- One step does not change what the front end makes of the whole answer. -/
theorem ExchangeStep.askServer_complete {e e' : Exchange} {ev : ExchangeEvent}
    (h : ExchangeStep e ev e') : askServer e'.complete = askServer e.complete := by
  cases h with
  | send hn hle =>
    simp only [Exchange.complete, List.append_assoc, List.take_append_drop]
  | read hr hread =>
    exact (askServer_of_read (c := e.complete) hr (Client.read_append hread e.unsent)).symm

/-- The pieces in which the answer arrives, and when the front end reads them, do not
    matter. -/
theorem Exchange.askServer_eq {e₀ e : Exchange} (h : Reach ExchangeStep e₀ e) :
    askServer e.complete = askServer e₀.complete :=
  ReachVia.invariant (I := fun e => askServer e.complete = askServer e₀.complete) h rfl
    fun _ _ _ hI _ hs => hs.askServer_complete.trans hI

/-- If the front end returns once it has the whole answer, no run gets stuck. -/
theorem Exchange.not_deadlock {e₀ e : Exchange} (h : Reach ExchangeStep e₀ e)
    (h₀ : (askServer e₀.complete).returned = true) : ¬ e.Deadlock := by
  rintro ⟨hunsent, hreturned, hread⟩
  have hcomplete : e.complete = e.client := by
    rw [Exchange.complete, hunsent, List.append_nil]
  rw [← Exchange.askServer_eq h, hcomplete, askServer_of_waiting hread, hreturned] at h₀
  cases h₀

end Mcelog.Server
