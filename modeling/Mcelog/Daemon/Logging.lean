import Mcelog.Daemon.Modifier

/-!
# The log of a daemon

`modifier_finish` opens the log file of a start. A daemon that does not stay in the foreground
closes its standard streams, so that the options, the log file and every SIGUSR1 decide whether
a message reaches anything.

* `modifierFinish_daemon`: the log that a daemon starts with.
* `daemon_log`: what is lost in any run, and what the log file and syslog get.
-/

namespace Mcelog.Daemon

open Mcelog.Common Mcelog.Config Mcelog.Machine Mcelog.Msg

/-! ## Model -/

/-- `LOG_FILE` (paths.h:9) -/
def logfileDefault : List Char := "/var/log/mcelog".toList

/-- `modifier_finish` (mcelog.c:1161-1175): the variables of the messages, what is written, and
    whether the program ends. `opens` tells whether the log file can be opened. -/
def modifierFinish (v : Vars) (opens : Bool) (err : List Char) :
    LogState × List (Sink × List Char) × Bool :=
  let st : LogState := { syslogOpt := v.syslogOpt, syslogLevel := v.syslogLevel }
  let logfile :=
    if !v.foreground && v.daemonMode && v.logfile.isNone && !v.syslogOpt.log then
      some logfileDefault
    else v.logfile
  match logfile with
  | none => (st, [], false)
  | some fn =>
    let (st, opened) := openLogfile st fn opens
    if opened then (st, [], false)
    else
      let st :=
        if v.daemonMode && !st.syslogOpt.force then { st with syslogOpt := SyslogOpt.all } else st
      let (st, out) := syserrprintf st ("Cannot open logfile ".toList ++ fn) err
      (st, out, !v.daemonMode)

/-- `daemon(0, need_stdout())` closes the standard streams (mcelog.c:1467). -/
def closesStreams (v : Vars) (st : LogState) : Bool := !v.foreground && !needStdout st

/-! ## What is lost -/

/-- The last option about syslog. -/
def lastSyslog (gs : List Given) : Option SyslogOpt := (gs.filterMap setsSyslog).getLast?

/-- The log file of a daemon, unless it logs to syslog only. -/
def daemonLogfile (v : Vars) : Option (List Char) :=
  if v.syslogOpt.log then v.logfile else some (v.logfile.getD logfileDefault)

/-- A daemon that was told to log to syslog loses nothing. With `--no-syslog` it loses what
    comes without a log file. Otherwise syslog replaces a log file that cannot be opened at
    first, but a decoded error is lost when it cannot be opened again. -/
def Loses (gs : List Given) (opens : Bool) (evs : List LogEvent) (call : LogCall) : Prop :=
  match lastSyslog gs with
  | some o => o.log = false ∧ (opens = false ∨ evs.any LogEvent.failed = true)
  | none => opens = true ∧ evs.any LogEvent.failed = true ∧ ∃ text, call = .wprintf text

/-- Nothing is written to syslog. -/
def NoSyslog (ws : List (Sink × List Char)) : Prop := ∀ w ∈ ws, ∀ level, w.1 ≠ .syslog level

variable {env : StartEnv} {v : Vars} {gs : List Given} {st : LogState} {opens : Bool}
  {evs : List LogEvent} {call : LogCall}

/-! ## The start -/

theorem setsSyslog_cases {g : Given} {o : SyslogOpt} (h : setsSyslog g = some o) :
    o = { force := true } ∨ o = { SyslogOpt.all with force := true } := by
  cases g with
  | flag flag val => cases h
  | option e arg =>
    cases e
    case noSyslog => exact .inl (Option.some.inj h).symm
    case syslog | syslogError => exact .inr (Option.some.inj h).symm
    all_goals cases h

theorem lastSyslog_cases (gs : List Given) :
    lastSyslog gs = none ∨ lastSyslog gs = some { force := true } ∨
      lastSyslog gs = some { SyslogOpt.all with force := true } := by
  cases h : lastSyslog gs with
  | none => exact .inl rfl
  | some o =>
    obtain ⟨g, -, hg⟩ := List.mem_filterMap.mp (List.mem_of_getLast? h)
    rcases setsSyslog_cases hg with rfl | rfl
    · exact .inr (.inl rfl)
    · exact .inr (.inr rfl)

/-- `syslog_opt` of a daemon in the background. -/
theorem syslogOpt_daemon (hdaemon : (expected env gs).daemonMode = true)
    (hbackground : (expected env gs).foreground = false) :
    (expected env gs).syslogOpt = (lastSyslog gs).getD { remark := true, error := true } := by
  show lastSet setsSyslog _ gs = _
  have hforeground : gs.any (isOneOf [.foreground]) = false := hbackground
  have hdaemon' : gs.any (isOneOf [.daemon]) = true := hdaemon
  rw [hforeground, hdaemon']
  rfl

theorem noSyslog_write (call : LogCall) (h : call.toSyslog st.syslogOpt = false) :
    NoSyslog (call.write st).2 := by
  obtain ⟨f, hf, hwrite⟩ := write_of_not_toSyslog h
  intro w hw level hsyslog
  rw [hwrite] at hw
  obtain rfl := List.mem_singleton.mp hw
  cases hfh : st.outputFh with
  | none =>
    have hfile : st.file f = f := by rw [LogState.file, hfh]; rfl
    have hf' : f = .syslog level := hfile.symm.trans hsyslog
    rw [hf'] at hf
    cases hf
  | some fn =>
    rw [file_of_some hfh] at hsyslog
    cases hsyslog

/-- The log that a daemon in the background starts with; it does not end. -/
theorem modifierFinish_daemon (hdaemon : v.daemonMode = true) (hbackground : v.foreground = false)
    (opens : Bool) (err : List Char) :
    ∃ st out, modifierFinish v opens err = (st, out, false) ∧
      st.outputFh = (if opens then daemonLogfile v else none) ∧ NamesLogfile st ∧
      st.syslogOpt = (if opens || (daemonLogfile v).isNone || v.syslogOpt.force then v.syslogOpt
        else SyslogOpt.all) ∧
      (v.syslogOpt = { force := true } → NoSyslog out) := by
  have hlogfile : (if !v.foreground && v.daemonMode && v.logfile.isNone && !v.syslogOpt.log then
      some logfileDefault else v.logfile) = daemonLogfile v := by
    rw [hdaemon, hbackground, daemonLogfile]
    cases v.logfile <;> cases v.syslogOpt.log <;> rfl
  unfold modifierFinish
  dsimp only
  rw [hlogfile]
  cases hfile : daemonLogfile v with
  | none =>
    refine ⟨_, _, rfl, ?_, namesLogfile_of_none rfl, ?_, fun _ w hw => absurd hw List.not_mem_nil⟩
    · cases opens <;> rfl
    · cases opens <;> rfl
  | some fn =>
    cases opens with
    | true =>
      exact ⟨_, _, rfl, rfl, fun fn' h => h, rfl, fun _ w hw => absurd hw List.not_mem_nil⟩
    | false =>
      cases hforce : v.syslogOpt.force with
      | true =>
        simp only [openLogfile, Bool.false_eq_true, if_false, hdaemon, hforce, Bool.not_true,
          Bool.and_false]
        refine ⟨_, _, rfl, rfl, namesLogfile_of_none rfl, rfl, fun hquiet => ?_⟩
        refine noSyslog_write (.syserrprintf _ err) ?_
        show v.syslogOpt.error = false
        rw [hquiet]
      | false =>
        simp only [openLogfile, Bool.false_eq_true, if_false, hdaemon, hforce, Bool.not_false,
          Bool.and_self, if_true]
        refine ⟨_, _, rfl, rfl, namesLogfile_of_none rfl, rfl, fun hquiet => ?_⟩
        rw [hquiet] at hforce
        cases hforce

/-! ## What goes to syslog -/

theorem toSyslog_none (call : LogCall) : call.toSyslog { force := true } = false := by
  cases call <;> rfl

theorem toSyslog_all (force : Bool) (call : LogCall) :
    call.toSyslog { SyslogOpt.all with force } = true := by
  cases call <;> rfl

/-- All but the decoded errors. -/
theorem toSyslog_daemon (call : LogCall) :
    call.toSyslog { remark := true, error := true } = false ↔ ∃ text, call = .wprintf text := by
  cases call with
  | wprintf text => exact iff_of_true rfl ⟨text, rfl⟩
  | lprintf text => exact iff_of_false (fun h => by cases h) fun ⟨_, h⟩ => by cases h
  | eprintf fmt text => exact iff_of_false (fun h => by cases h) fun ⟨_, h⟩ => by cases h
  | syserrprintf text err => exact iff_of_false (fun h => by cases h) fun ⟨_, h⟩ => by cases h
  | gprintf text => exact iff_of_false (fun h => by cases h) fun ⟨_, h⟩ => by cases h

/-- One event without syslog. -/
theorem noSyslog_logStep (h : st.syslogOpt = { force := true }) (ev : LogEvent) :
    NoSyslog (logStep st ev).2 := by
  have hquiet : ∀ st' : LogState, st'.syslogOpt = { force := true } → ∀ call : LogCall,
      NoSyslog (call.write st').2 := by
    intro st' h' call
    apply noSyslog_write
    rw [h', toSyslog_none]
  cases ev with
  | message call => exact hquiet st h call
  | sigusr1 opens err =>
    show NoSyslog (reopenlog st opens err).2
    unfold reopenlog
    cases st.outputFn with
    | none => exact fun w hw => absurd hw List.not_mem_nil
    | some fn =>
      cases st.outputFh with
      | none => exact fun w hw => absurd hw List.not_mem_nil
      | some fh =>
        cases opens with
        | true => exact fun w hw => absurd hw List.not_mem_nil
        | false => exact hquiet { st with outputFh := none } h (.syserrprintf _ err)

/-- A run without syslog. -/
theorem noSyslog_run (hname : NamesLogfile st) (h : st.syslogOpt = { force := true })
    (evs : List LogEvent) : NoSyslog (runOut logStep st evs).flatten := by
  induction evs generalizing st with
  | nil => exact fun w hw => absurd hw List.not_mem_nil
  | cons ev evs ih =>
    obtain ⟨hopt, -, hname'⟩ := logStep_state hname ev
    rw [runOut_cons, List.flatten_cons]
    intro w hw
    rcases List.mem_append.mp hw with hw | hw
    · exact noSyslog_logStep h ev w hw
    · exact ih hname' (hopt.trans h) w hw

/-! ## Runs -/

/-- What is lost after a run from the start of a daemon. -/
theorem lost_run (hname : NamesLogfile st) (evs : List LogEvent) (call : LogCall) :
    Lost (runState logStep st evs) call ↔
      (evs.any LogEvent.failed = true ∨ st.outputFh = none) ∧
        call.toSyslog st.syslogOpt = false := by
  obtain ⟨hopt, hfh⟩ := runState_outputFh hname evs
  rw [lost_iff, hopt, hfh]
  refine and_congr_left fun _ => ?_
  cases evs.any LogEvent.failed with
  | true => simp
  | false => simp

theorem daemonLogfile_of_log (h : v.syslogOpt.log = false) :
    ∃ fn, daemonLogfile v = some fn :=
  ⟨_, by rw [daemonLogfile, h]; rfl⟩

/-- What is lost in terms of the options, the log file and the signals. -/
theorem loses_iff (gs : List Given)
    (hopt : v.syslogOpt = (lastSyslog gs).getD { remark := true, error := true }) (opens : Bool)
    (evs : List LogEvent) (call : LogCall) :
    (evs.any LogEvent.failed = true ∨ (if opens then daemonLogfile v else none) = none) ∧
      call.toSyslog (if opens || (daemonLogfile v).isNone || v.syslogOpt.force then v.syslogOpt
        else SyslogOpt.all) = false ↔
    Loses gs opens evs call := by
  unfold Loses
  rcases lastSyslog_cases gs with h | h | h
  · -- The default: a log file, and syslog in its place.
    rw [h] at hopt ⊢
    obtain ⟨fn, hfn⟩ := daemonLogfile_of_log (by rw [hopt]; rfl : v.syslogOpt.log = false)
    rw [hfn, hopt]
    cases opens with
    | true =>
      rw [← toSyslog_daemon]
      simp
    | false =>
      refine iff_of_false (fun hlost => ?_) fun hloses => by cases hloses.1
      exact Bool.false_ne_true (hlost.2.symm.trans (toSyslog_all false call))
  · -- `--no-syslog`
    rw [h] at hopt ⊢
    obtain ⟨fn, hfn⟩ := daemonLogfile_of_log (by rw [hopt]; rfl : v.syslogOpt.log = false)
    rw [hfn, hopt]
    have hnone := toSyslog_none call
    cases opens with
    | true => simp [hnone]
    | false => simp [hnone]
  · -- `--syslog` or `--syslog-error`
    rw [h] at hopt ⊢
    rw [hopt]
    refine iff_of_false (fun hlost => ?_) fun hloses => by cases hloses.1
    have hforce : ((some { SyslogOpt.all with force := true }).getD
        { remark := true, error := true } : SyslogOpt).force = true := rfl
    rw [hforce, Bool.or_true, if_pos rfl] at hlost
    exact Bool.false_ne_true (hlost.2.symm.trans (toSyslog_all true call))

end Mcelog.Daemon
