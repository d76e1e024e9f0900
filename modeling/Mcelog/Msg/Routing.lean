import Mcelog.Msg.Syslog

/-!
# Where messages go

Model of the rest of msg.c: every message goes to syslog, to the log file, or to the standard
streams, as `syslog_opt` and the log file decide. SIGUSR1 opens the log file again, and it may
fail. A daemon in the background has no standard streams: what goes there is lost.

* `lost_iff`: a message of a background daemon is lost if there is neither a log file nor
  syslog for it.
* `runState_outputFh`: the log file stays open until it cannot be opened again.
* `logfile_run`: until then it holds every message.
-/

namespace Mcelog.Msg

open Mcelog.Common

/-! ## Model -/

/-- `enum syslog_opt` (mcelog.h:123-129), with a field for each bit. -/
structure SyslogOpt where
  log : Bool := false
  remark : Bool := false
  error : Bool := false
  force : Bool := false
  deriving DecidableEq, Repr

/-- `SYSLOG_ALL` (mcelog.h:127) -/
def SyslogOpt.all : SyslogOpt := { log := true, remark := true, error := true }

/-- The priorities that are used. -/
inductive Priority
  | err
  | warning
  deriving DecidableEq, Repr

/-- Where something is written. -/
inductive Sink
  | syslog (level : Priority)
  | logfile (name : List Char)
  | stdout
  | stderr
  deriving DecidableEq, Repr

/-- The variables of msg.c (msg.c:12-15) and the buffer of `vlinesyslog`. -/
structure LogState where
  syslogOpt : SyslogOpt := { remark := true }
  syslogLevel : Priority := .warning
  outputFh : Option (List Char) := none
  outputFn : Option (List Char) := none
  line : List Char := []
  deriving DecidableEq, Repr

/-- A call with the text that it formats; the format of `Eprintf`, and the text of `errno`. -/
inductive LogCall
  | lprintf (text : List Char)
  | eprintf (fmt text : List Char)
  | syserrprintf (text err : List Char)
  | wprintf (text : List Char)
  | gprintf (text : List Char)
  deriving DecidableEq, Repr

/-- `need_stdout` (msg.c:17-20) -/
def needStdout (st : LogState) : Bool := st.outputFh = none ∧ st.syslogOpt = {}

/-- `open_logfile` (msg.c:22-33), where `opens` tells whether `fopen` succeeds. -/
def openLogfile (st : LogState) (fn : List Char) (opens : Bool) : LogState × Bool :=
  if opens then ({ st with outputFh := some fn, outputFn := some fn }, true)
  else ({ st with outputFh := none }, false)

/-- `output_fh ? output_fh : f` -/
def LogState.file (st : LogState) (f : Sink) : Sink := (st.outputFh.map Sink.logfile).getD f

/-- `Lprintf` (msg.c:45-60) -/
def lprintf (st : LogState) (text : List Char) : LogState × List (Sink × List Char) :=
  let toSyslog := if st.syslogOpt.remark then [(Sink.syslog .err, text)] else []
  let toFile :=
    if st.outputFh.isSome || !st.syslogOpt.remark then [(st.file .stdout, text)] else []
  (st, toSyslog ++ toFile)

/-- What `Eprintf` writes to a file (msg.c:70-73). -/
def eprintfText (fmt text : List Char) : List Char :=
  "mcelog: ".toList ++ text ++ if fmt ≠ [] ∧ fmt.getLast? ≠ some '\n' then ['\n'] else []

/-- `Eprintf` (msg.c:63-82) -/
def eprintf (st : LogState) (fmt text : List Char) : LogState × List (Sink × List Char) :=
  let toFile :=
    if !st.syslogOpt.error || st.outputFh.isSome then [(st.file .stderr, eprintfText fmt text)]
    else []
  let toSyslog := if st.syslogOpt.error then [(Sink.syslog .err, text)] else []
  (st, toFile ++ toSyslog)

/-- `SYSERRprintf` (msg.c:84-107) -/
def syserrprintf (st : LogState) (text err : List Char) : LogState × List (Sink × List Char) :=
  let toFile :=
    if !st.syslogOpt.error || st.outputFh.isSome then
      [(st.file .stderr, "mcelog: ".toList ++ text ++ ": ".toList ++ err ++ ['\n'])]
    else []
  let toSyslog :=
    if st.syslogOpt.error then [(Sink.syslog .err, text ++ ": ".toList ++ err)] else []
  (st, toFile ++ toSyslog)

/-- `Wprintf` (msg.c:125-141) -/
def wprintf (st : LogState) (text : List Char) : LogState × List (Sink × List Char) :=
  let (line, sent) := if st.syslogOpt.log then vlinesyslog st.line text else (st.line, [])
  let toFile :=
    if !st.syslogOpt.log || st.outputFh.isSome then [(st.file .stdout, text)] else []
  ({ st with line }, sent.map (fun l => (Sink.syslog st.syslogLevel, l)) ++ toFile)

/-- `Gprintf` (msg.c:144-157) -/
def gprintf (st : LogState) (text : List Char) : LogState × List (Sink × List Char) :=
  let (line, sent) :=
    if st.syslogOpt.remark || st.syslogOpt.log then vlinesyslog st.line text else (st.line, [])
  let toFile :=
    if !st.syslogOpt.log || st.outputFh.isSome then [(st.file .stdout, text)] else []
  ({ st with line }, sent.map (fun l => (Sink.syslog st.syslogLevel, l)) ++ toFile)

/-- One call: the variables afterwards, and what is written where. -/
def LogCall.write (st : LogState) : LogCall → LogState × List (Sink × List Char)
  | .lprintf text => Msg.lprintf st text
  | .eprintf fmt text => Msg.eprintf st fmt text
  | .syserrprintf text err => Msg.syserrprintf st text err
  | .wprintf text => Msg.wprintf st text
  | .gprintf text => Msg.gprintf st text

/-- `reopenlog` (msg.c:165-173) -/
def reopenlog (st : LogState) (opens : Bool) (err : List Char) :
    LogState × List (Sink × List Char) :=
  match st.outputFn, st.outputFh with
  | some fn, some _ =>
    let (st, opened) := openLogfile { st with outputFh := none } fn opens
    if opened then (st, [])
    else syserrprintf st ("Cannot reopen logfile `".toList ++ fn ++ ['\'']) err
  | _, _ => (st, [])

/-- A message, or SIGUSR1 and whether the log file can be opened then. -/
inductive LogEvent
  | message (call : LogCall)
  | sigusr1 (opens : Bool) (err : List Char)
  deriving DecidableEq, Repr

/-- One event. -/
def logStep (st : LogState) : LogEvent → LogState × List (Sink × List Char)
  | .message call => call.write st
  | .sigusr1 opens err => reopenlog st opens err

/-! ## What is lost -/

/-- The call hands its text to syslog, at once or through the line buffer. -/
def LogCall.toSyslog (o : SyslogOpt) : LogCall → Bool
  | .lprintf _ => o.remark
  | .eprintf _ _ => o.error
  | .syserrprintf _ _ => o.error
  | .wprintf _ => o.log
  | .gprintf _ => o.remark || o.log

/-- What the call writes to the log file. -/
def LogCall.fileText : LogCall → List Char
  | .lprintf text => text
  | .eprintf fmt text => eprintfText fmt text
  | .syserrprintf text err => "mcelog: ".toList ++ text ++ ": ".toList ++ err ++ ['\n']
  | .wprintf text => text
  | .gprintf text => text

/-- `daemon` closed the standard streams. -/
def Sink.closed : Sink → Bool
  | .syslog _ => false
  | .logfile _ => false
  | .stdout => true
  | .stderr => true

/-- A message of a background daemon is not handed to syslog, and written to closed streams
    only. -/
def Lost (st : LogState) (call : LogCall) : Prop :=
  call.toSyslog st.syslogOpt = false ∧ ∀ w ∈ (call.write st).2, w.1.closed = true

/-- A SIGUSR1 after which the log file is not open. -/
def LogEvent.failed : LogEvent → Bool
  | .message _ => false
  | .sigusr1 opens _ => !opens

/-- What the event writes to the log file. -/
def LogEvent.fileText? : LogEvent → Option (List Char)
  | .message call => some call.fileText
  | .sigusr1 _ _ => none

/-- The part for the log file `fn`. -/
def inLogfile (fn : List Char) (ws : List (Sink × List Char)) : List (List Char) :=
  ws.filterMap fun w => if w.1 = .logfile fn then some w.2 else none

variable {st : LogState} {call : LogCall} {fn text : List Char} {evs : List LogEvent}

/-! ## One message -/

/-- `Wprintf` and `Gprintf` are those of the line buffer. -/
theorem printf_wprintf (st : LogState) (fh text : List Char) :
    printf ⟨st.syslogOpt.log, st.syslogOpt.remark, st.outputFh.isSome⟩ ⟨st.line, fh⟩
        (.wprintf text) =
      (⟨(wprintf st text).1.line,
          if !st.syslogOpt.log || st.outputFh.isSome then fh ++ text else fh⟩,
        if st.syslogOpt.log then (vlinesyslog st.line text).2 else []) := by
  unfold printf wprintf
  cases st.syslogOpt.log <;> rfl

/-- Only the line buffer changes. -/
theorem write_state (st : LogState) (call : LogCall) :
    ∃ line, (call.write st).1 = { st with line := line } := by
  cases call with
  | lprintf text => exact ⟨st.line, rfl⟩
  | eprintf fmt text => exact ⟨st.line, rfl⟩
  | syserrprintf text err => exact ⟨st.line, rfl⟩
  | wprintf text => exact ⟨_, rfl⟩
  | gprintf text => exact ⟨_, rfl⟩

theorem file_of_some (h : st.outputFh = some fn) (f : Sink) : st.file f = .logfile fn := by
  rw [LogState.file, h]
  rfl

/-- The lines of `vlinesyslog` do not go to the log file. -/
theorem inLogfile_sent (fn : List Char) (level : Priority) (sent : List (List Char)) :
    inLogfile fn (sent.map fun l => (Sink.syslog level, l)) = [] := by
  unfold inLogfile
  rw [List.filterMap_map, List.filterMap_eq_nil_iff]
  intro l _
  rfl

theorem inLogfile_append (fn : List Char) (ws ws' : List (Sink × List Char)) :
    inLogfile fn (ws ++ ws') = inLogfile fn ws ++ inLogfile fn ws' := List.filterMap_append

theorem inLogfile_self (fn text : List Char) : inLogfile fn [(Sink.logfile fn, text)] = [text] := by
  simp [inLogfile]

/-- An open log file gets every message. -/
theorem inLogfile_write (h : st.outputFh = some fn) (call : LogCall) :
    inLogfile fn (call.write st).2 = [call.fileText] := by
  have hsome : st.outputFh.isSome = true := by rw [h]; rfl
  cases call with
  | lprintf text =>
    simp only [LogCall.write, lprintf, hsome, Bool.true_or, if_true, file_of_some h,
      inLogfile_append, inLogfile_self]
    cases st.syslogOpt.remark <;> rfl
  | eprintf fmt text =>
    simp only [LogCall.write, eprintf, hsome, Bool.or_true, if_true, file_of_some h,
      inLogfile_append, inLogfile_self]
    cases st.syslogOpt.error <;> rfl
  | syserrprintf text err =>
    simp only [LogCall.write, syserrprintf, hsome, Bool.or_true, if_true, file_of_some h,
      inLogfile_append, inLogfile_self]
    cases st.syslogOpt.error <;> rfl
  | wprintf text =>
    simp only [LogCall.write, wprintf, hsome, Bool.or_true, if_true, file_of_some h,
      inLogfile_append, inLogfile_sent, inLogfile_self]
    rfl
  | gprintf text =>
    simp only [LogCall.write, gprintf, hsome, Bool.or_true, if_true, file_of_some h,
      inLogfile_append, inLogfile_sent, inLogfile_self]
    rfl

/-- Without a log file nothing goes into one. -/
theorem inLogfile_write_none (h : st.outputFh = none) (fn : List Char) (call : LogCall) :
    inLogfile fn (call.write st).2 = [] := by
  have hfile : ∀ f, st.file f = f := fun f => by rw [LogState.file, h]; rfl
  cases call with
  | lprintf text =>
    simp only [LogCall.write, lprintf, hfile, inLogfile_append]
    cases st.syslogOpt.remark <;> cases st.outputFh.isSome <;> rfl
  | eprintf fmt text =>
    simp only [LogCall.write, eprintf, hfile, inLogfile_append]
    cases st.syslogOpt.error <;> cases st.outputFh.isSome <;> rfl
  | syserrprintf text err =>
    simp only [LogCall.write, syserrprintf, hfile, inLogfile_append]
    cases st.syslogOpt.error <;> cases st.outputFh.isSome <;> rfl
  | wprintf text =>
    simp only [LogCall.write, wprintf, hfile, inLogfile_append, inLogfile_sent]
    cases st.syslogOpt.log <;> cases st.outputFh.isSome <;> rfl
  | gprintf text =>
    simp only [LogCall.write, gprintf, hfile, inLogfile_append, inLogfile_sent]
    cases st.syslogOpt.log <;> cases st.outputFh.isSome <;> rfl

/-- A text that is not handed to syslog is written once, to the log file or to a standard
    stream. -/
theorem write_of_not_toSyslog (h : call.toSyslog st.syslogOpt = false) :
    ∃ f, f.closed = true ∧ (call.write st).2 = [(st.file f, call.fileText)] := by
  cases call with
  | lprintf text =>
    have hr : st.syslogOpt.remark = false := h
    refine ⟨.stdout, rfl, ?_⟩
    rw [LogCall.write, lprintf, hr, Bool.not_false, Bool.or_true]
    rfl
  | eprintf fmt text =>
    have he : st.syslogOpt.error = false := h
    refine ⟨.stderr, rfl, ?_⟩
    rw [LogCall.write, eprintf, he, Bool.not_false, Bool.true_or]
    rfl
  | syserrprintf text err =>
    have he : st.syslogOpt.error = false := h
    refine ⟨.stderr, rfl, ?_⟩
    rw [LogCall.write, syserrprintf, he, Bool.not_false, Bool.true_or]
    rfl
  | wprintf text =>
    have hl : st.syslogOpt.log = false := h
    refine ⟨.stdout, rfl, ?_⟩
    rw [LogCall.write, wprintf, hl, Bool.not_false, Bool.true_or]
    rfl
  | gprintf text =>
    obtain ⟨hr, hl⟩ := Bool.or_eq_false_iff.mp h
    refine ⟨.stdout, rfl, ?_⟩
    rw [LogCall.write, gprintf, hr, hl, Bool.not_false, Bool.true_or]
    rfl

/-- A message is lost if there is neither a log file nor syslog for it. -/
theorem lost_iff (st : LogState) (call : LogCall) :
    Lost st call ↔ st.outputFh = none ∧ call.toSyslog st.syslogOpt = false := by
  constructor
  · rintro ⟨hsyslog, hclosed⟩
    refine ⟨?_, hsyslog⟩
    obtain ⟨f, -, hwrite⟩ := write_of_not_toSyslog hsyslog
    rw [hwrite] at hclosed
    have hfile : (st.file f).closed = true := hclosed _ List.mem_cons_self
    cases hfh : st.outputFh with
    | none => rfl
    | some fn =>
      rw [file_of_some hfh] at hfile
      cases hfile
  · rintro ⟨hfh, hsyslog⟩
    refine ⟨hsyslog, ?_⟩
    obtain ⟨f, hf, hwrite⟩ := write_of_not_toSyslog hsyslog
    intro w hw
    rw [hwrite] at hw
    obtain rfl := List.mem_singleton.mp hw
    rw [LogState.file, hfh]
    exact hf

/-! ## Runs -/

/-- The name of the open log file is kept. -/
def NamesLogfile (st : LogState) : Prop := ∀ fn, st.outputFh = some fn → st.outputFn = some fn

theorem namesLogfile_of_none (h : st.outputFh = none) : NamesLogfile st := by
  intro fn hfn
  rw [h] at hfn
  cases hfn

/-- SIGUSR1 with a log file. -/
theorem reopenlog_of_some (hname : NamesLogfile st) (h : st.outputFh = some fn) (opens : Bool)
    (err : List Char) :
    (reopenlog st opens err).1 =
      { st with outputFh := if opens then some fn else none, outputFn := some fn } := by
  unfold reopenlog
  rw [hname fn h, h]
  cases opens with
  | true => rfl
  | false => rfl

/-- What one event does to the variables. -/
theorem logStep_state (hname : NamesLogfile st) (ev : LogEvent) :
    (logStep st ev).1.syslogOpt = st.syslogOpt ∧
    (logStep st ev).1.outputFh = (if ev.failed then none else st.outputFh) ∧
    NamesLogfile (logStep st ev).1 := by
  cases ev with
  | message call =>
    obtain ⟨line, hline⟩ := write_state st call
    show (call.write st).1.syslogOpt = _ ∧ _
    rw [logStep, hline]
    exact ⟨rfl, rfl, hname⟩
  | sigusr1 opens err =>
    show (reopenlog st opens err).1.syslogOpt = _ ∧ (reopenlog st opens err).1.outputFh = _ ∧
      NamesLogfile (reopenlog st opens err).1
    cases hfh : st.outputFh with
    | none =>
      have hquiet : reopenlog st opens err = (st, []) := by
        unfold reopenlog
        rw [hfh]
        cases st.outputFn <;> rfl
      rw [hquiet, ite_self]
      exact ⟨rfl, hfh, hname⟩
    | some fn =>
      rw [reopenlog_of_some hname hfh]
      cases opens with
      | true => exact ⟨rfl, rfl, fun fn' h => h⟩
      | false => exact ⟨rfl, rfl, namesLogfile_of_none rfl⟩

/-- After a run: the log file stays open until it cannot be opened again. -/
theorem runState_outputFh (hname : NamesLogfile st) (evs : List LogEvent) :
    (runState logStep st evs).syslogOpt = st.syslogOpt ∧
    (runState logStep st evs).outputFh =
      (if evs.any LogEvent.failed then none else st.outputFh) := by
  induction evs generalizing st with
  | nil => exact ⟨rfl, rfl⟩
  | cons ev evs ih =>
    obtain ⟨hopt, hfh, hname'⟩ := logStep_state hname ev
    obtain ⟨hopt', hfh'⟩ := ih hname'
    rw [runState_cons, hopt', hfh', hopt, hfh, List.any_cons]
    refine ⟨rfl, ?_⟩
    cases ev.failed <;> cases evs.any LogEvent.failed <;> rfl

/-- Nothing is written to a log file that is not open. -/
theorem inLogfile_reopenlog (st : LogState) (opens : Bool) (err fn : List Char) :
    inLogfile fn (reopenlog st opens err).2 = [] := by
  unfold reopenlog
  cases st.outputFn with
  | none => rfl
  | some fn' =>
    cases st.outputFh with
    | none => rfl
    | some fh =>
      cases opens with
      | true => rfl
      | false => exact inLogfile_write_none rfl fn (.syserrprintf _ err)

/-- Without a log file, none is written by any run. -/
theorem logfile_run_none (h : st.outputFh = none) (fn : List Char) (evs : List LogEvent) :
    inLogfile fn (runOut logStep st evs).flatten = [] := by
  induction evs generalizing st with
  | nil => rfl
  | cons ev evs ih =>
    obtain ⟨-, hfh, -⟩ := logStep_state (namesLogfile_of_none h) ev
    rw [h, ite_self] at hfh
    rw [runOut_cons, List.flatten_cons, inLogfile_append, ih hfh, List.append_nil]
    cases ev with
    | message call => exact inLogfile_write_none h fn call
    | sigusr1 opens err => exact inLogfile_reopenlog st opens err fn

/-- **The log file.** It gets every message, in order, until it cannot be opened again, and
    none after that. -/
theorem logfile_run (hname : NamesLogfile st) (h : st.outputFh = some fn) (evs : List LogEvent) :
    inLogfile fn (runOut logStep st evs).flatten =
      (evs.takeWhile fun ev => !ev.failed).filterMap LogEvent.fileText? := by
  induction evs generalizing st with
  | nil => rfl
  | cons ev evs ih =>
    obtain ⟨-, hfh, hname'⟩ := logStep_state hname ev
    rw [runOut_cons, List.flatten_cons, inLogfile_append]
    cases hfailed : ev.failed with
    | true =>
      rw [hfailed, if_pos rfl] at hfh
      rw [logfile_run_none hfh, List.append_nil, List.takeWhile_cons_of_neg (by simp [hfailed])]
      cases ev with
      | message call => cases hfailed
      | sigusr1 opens err => exact inLogfile_reopenlog st opens err fn
    | false =>
      rw [hfailed, if_neg Bool.false_ne_true, h] at hfh
      rw [ih hname' hfh, List.takeWhile_cons_of_pos (by simp [hfailed])]
      cases ev with
      | message call =>
        show inLogfile fn (call.write st).2 ++ _ = call.fileText :: _
        rw [inLogfile_write h]
        rfl
      | sigusr1 opens err =>
        show inLogfile fn (reopenlog st opens err).2 ++ _ = _
        rw [inLogfile_reopenlog]
        rfl

end Mcelog.Msg
