import Mcelog.Common.Getopt

/-!
# The early search for the config file

`config_file` looks through the arguments for `--conf..` before `getopt_long` parses them,
because the config file is read first. It knows neither which arguments are values of other
options nor the end of an option's name.

* `config_option_of_conf`: an option that starts with `--conf` is `--config-file`.
* `config_file_iff`: for which arguments it finds the string that `getopt_long` delivers for
  the first `--config-file`.
-/

namespace Mcelog.Config

open Mcelog.Common

/-! ## The options of mcelog -/

/-- The variables that `options` sets by itself. -/
inductive OptionFlag
  | ignoreNodev
  | filterBogus
  | dumpRawAscii
  deriving DecidableEq, Repr

/-- `enum options` (mcelog.c:960-995). -/
inductive Options
  | logfile | k8 | p4 | generic | core2 | intelCpu | filter | dmi | noDmi | dmiVerbose | syslog
  | noSyslog | cpumhz | syslogError | raw | daemon | ascii | client | ping | version | configFile
  | cpu | file | foreground | numerrors | pidfile | debugNumerrors | noImcLog | isCpuSupported
  | maxCorrErrCounters | help | binary
  deriving DecidableEq, Repr

/-- The values count from `O_COMMON` on. -/
def Options.val (o : Options) : ℕ := 500 + o.ctorIdx

/-- `options` (mcelog.c:997-1034). -/
def options : List (LongOption OptionFlag) :=
  [ ⟨"logfile", true, none, Options.logfile.val⟩,
    ⟨"k8", false, none, Options.k8.val⟩,
    ⟨"p4", false, none, Options.p4.val⟩,
    ⟨"generic", false, none, Options.generic.val⟩,
    ⟨"core2", false, none, Options.core2.val⟩,
    ⟨"intel-cpu", true, none, Options.intelCpu.val⟩,
    ⟨"ignorenodev", false, some .ignoreNodev, 1⟩,
    ⟨"filter", false, some .filterBogus, 1⟩,
    ⟨"no-filter", false, some .filterBogus, 0⟩,
    ⟨"dmi", false, none, Options.dmi.val⟩,
    ⟨"no-dmi", false, none, Options.noDmi.val⟩,
    ⟨"dmi-verbose", true, none, Options.dmiVerbose.val⟩,
    ⟨"syslog", false, none, Options.syslog.val⟩,
    ⟨"cpumhz", true, none, Options.cpumhz.val⟩,
    ⟨"syslog-error", false, none, Options.syslogError.val⟩,
    ⟨"dump-raw-ascii", false, some .dumpRawAscii, 1⟩,
    ⟨"raw", false, some .dumpRawAscii, 1⟩,
    ⟨"no-syslog", false, none, Options.noSyslog.val⟩,
    ⟨"daemon", false, none, Options.daemon.val⟩,
    ⟨"ascii", false, none, Options.ascii.val⟩,
    ⟨"file", true, none, Options.file.val⟩,
    ⟨"version", false, none, Options.version.val⟩,
    ⟨"config-file", true, none, Options.configFile.val⟩,
    ⟨"cpu", true, none, Options.cpu.val⟩,
    ⟨"foreground", false, none, Options.foreground.val⟩,
    ⟨"client", false, none, Options.client.val⟩,
    ⟨"ping", false, none, Options.ping.val⟩,
    ⟨"num-errors", true, none, Options.numerrors.val⟩,
    ⟨"pidfile", true, none, Options.pidfile.val⟩,
    ⟨"debug-numerrors", false, none, Options.debugNumerrors.val⟩,
    ⟨"no-imc-log", false, none, Options.noImcLog.val⟩,
    ⟨"max-corr-err-counters", true, none, Options.maxCorrErrCounters.val⟩,
    ⟨"help", false, none, Options.help.val⟩,
    ⟨"binary", false, none, Options.binary.val⟩,
    ⟨"is-cpu-supported", false, none, Options.isCpuSupported.val⟩ ]

/-! ## The search -/

/-- `match_arg` (config.c:241-254) for the argument `a` with the number `i`, and those behind
    it. -/
def matchArg (i : ℕ) (a : List Char) (behind : List (List Char)) (arg : List Char) :
    Option Place :=
  if arg.isPrefixOf a then
    if a[arg.length]? = some '=' then some ⟨i, arg.length + 1⟩
    else
      match behind with
      -- `usage` returns
      | [] => none
      | _ :: _ => some ⟨i + 1, 0⟩
  else none

/-- `config_file` (config.c:256-269) for the arguments behind the name of the program, of which
    the first one has the number `i`: the string that is found; `none` is the name of the
    default file. -/
def configFile : ℕ → List (List Char) → Option Place
  | _, [] => none
  | i, a :: rest =>
    if a = "--".toList then none
    else (matchArg i a rest "--conf".toList).or (configFile (i + 1) rest)

/-- The string at a place. -/
def fileName (deffn : List Char) (args : List (List Char)) : Option Place → List Char
  | none => deffn
  | some p => (args.getD p.element []).drop p.offset

/-! ## What should be found -/

/-- A `--config-file` that is delivered. -/
def isConfigFile (d : Delivered OptionFlag) : Bool := d.option.val = Options.configFile.val

/-- The argument of the first `--config-file`. -/
def deliveredFile (ds : List (Delivered OptionFlag)) : Option Place :=
  (ds.find? isConfigFile).bind Delivered.optarg

/-- The option is written out as `--conf` at least, and as no more if its value follows
    behind `=`. -/
def ShownAsConf (d : Delivered OptionFlag) : Prop :=
  "--conf".toList <+: d.text ∧ ∀ offset, d.arg = .inline offset → "--conf=".toList <+: d.text

/-- The search sees the options as they are delivered: it recognises the first
    `--config-file`, and takes no value of an option before it for another one or for the end
    of the options. Without a `--config-file`, no value up to one that looks like the end is
    taken for one, unless nothing follows it. -/
def Scannable (ds : List (Delivered OptionFlag)) : Prop :=
  (∀ d ∈ ds.find? isConfigFile, ShownAsConf d ∧ ∀ e ∈ ds.takeWhile (fun e => !isConfigFile e),
    ∀ v, e.arg = .separate v → v ≠ "--".toList ∧ ¬ "--conf".toList <+: v) ∧
  (ds.find? isConfigFile = none →
    ∀ e ∈ ds.takeWhile (fun e => e.arg ≠ .separate "--".toList), ∀ v, e.arg = .separate v →
      "--conf".toList <+: v → e.behind = [] ∧ ¬ "--conf=".toList <+: v)

section Search

variable {i : ℕ} {a : List Char} {args rest behind : List (List Char)}
  {o : LongOption OptionFlag} {d : Delivered OptionFlag} {ds : List (Delivered OptionFlag)}

/-- An option that starts with `--conf` is `--config-file`. -/
theorem config_option_of_conf (h : Spells options a o) (hconf : "--conf".toList <+: a) :
    o.val = Options.configFile.val := by
  obtain ⟨t, rfl⟩ := hconf
  have hname : "conf".toList <+: optionName ("--conf".toList ++ t) := by
    show "conf".toList <+: ("conf".toList ++ t).takeWhile fun c => c ≠ '='
    rw [List.takeWhile_append_of_pos (by decide)]
    exact List.prefix_append _ _
  have hall : ∀ o ∈ options, "conf".toList.isPrefixOf o.name.toList = true →
      o.val = Options.configFile.val := by decide
  exact hall o (mem_of_findLongOption h.found)
    (List.isPrefixOf_iff_prefix.mpr (hname.trans (prefix_of_findLongOption h.found)))

theorem hasArg_of_config (h : Spells options a o) (hval : o.val = Options.configFile.val) :
    o.hasArg = true := by
  have hall : ∀ o ∈ options, o.val = Options.configFile.val → o.hasArg = true := by decide
  exact hall o (mem_of_findLongOption h.found) hval

/-! ## One step of the search -/

theorem configFile_end (i : ℕ) (rest : List (List Char)) :
    configFile i ("--".toList :: rest) = none := if_pos rfl

theorem matchArg_of_not_prefix (h : ¬ "--conf".toList <+: a) (i : ℕ)
    (behind : List (List Char)) : matchArg i a behind "--conf".toList = none :=
  if_neg fun hp => h (List.isPrefixOf_iff_prefix.mp hp)

/-- An argument that does not matter is passed. -/
theorem configFile_pass (hend : a ≠ "--".toList) (h : ¬ "--conf".toList <+: a) (i : ℕ)
    (rest : List (List Char)) : configFile i (a :: rest) = configFile (i + 1) rest := by
  rw [configFile, if_neg hend, matchArg_of_not_prefix h, Option.none_or]

theorem ne_end_of_conf (h : "--conf".toList <+: a) : a ≠ "--".toList := by
  rintro rfl
  exact absurd h.length_le (by decide)

theorem getElem?_of_conf (h : "--conf".toList <+: a) :
    a["--conf".toList.length]? = some '=' ↔ "--conf=".toList <+: a := by
  obtain ⟨t, rfl⟩ := h
  rw [List.getElem?_append_right (Nat.le_refl _), Nat.sub_self,
    show "--conf=".toList = "--conf".toList ++ ['='] from rfl, List.prefix_append_right_inj]
  cases t with
  | nil => simp
  | cons c t => simp [eq_comm]

/-- What is found at an argument that looks like a `--config-file`. -/
theorem configFile_conf (h : "--conf".toList <+: a) (i : ℕ) (rest : List (List Char)) :
    configFile i (a :: rest) =
      if "--conf=".toList <+: a then some ⟨i, 7⟩
      else if rest = [] then none else some ⟨i + 1, 0⟩ := by
  have hmatch : matchArg i a rest "--conf".toList =
      if "--conf=".toList <+: a then some ⟨i, 7⟩
      else if rest = [] then none else some ⟨i + 1, 0⟩ := by
    unfold matchArg
    rw [if_pos (List.isPrefixOf_iff_prefix.mpr h)]
    simp only [getElem?_of_conf h]
    cases rest <;> rfl
  rw [configFile, if_neg (ne_end_of_conf h), hmatch]
  split_ifs with heq hrest
  · rfl
  · subst hrest
    rfl
  · rfl

/-- What is found stands behind the start of the search. -/
theorem configFile_place {p : Place} (h : configFile i args = some p) :
    i ≤ p.element ∧ (p.offset = 0 → i < p.element) := by
  induction args generalizing i with
  | nil => cases h
  | cons a rest ih =>
    by_cases hconf : "--conf".toList <+: a
    · rw [configFile_conf hconf] at h
      split_ifs at h
      · obtain rfl := Option.some.inj h
        exact ⟨Nat.le_refl _, fun h => by cases h⟩
      · obtain rfl := Option.some.inj h
        exact ⟨Nat.le_succ _, fun _ => Nat.lt_succ_self _⟩
    · by_cases hend : a = "--".toList
      · rw [hend, configFile_end] at h
        cases h
      · rw [configFile_pass hend hconf] at h
        have := ih h
        omega

/-! ## One delivered option more -/

theorem deliveredFile_cons_config (h : isConfigFile d = true) :
    deliveredFile (d :: ds) = d.optarg := by
  rw [deliveredFile, List.find?_cons_of_pos h]
  rfl

theorem deliveredFile_cons (h : isConfigFile d = false) :
    deliveredFile (d :: ds) = deliveredFile ds := by
  rw [deliveredFile, List.find?_cons_of_neg (by simp [h])]
  rfl

theorem scannable_nil : Scannable [] :=
  ⟨fun _ hd => (by cases hd), fun _ _ he => (by cases he)⟩

theorem scannable_cons_config (h : isConfigFile d = true) :
    Scannable (d :: ds) ↔ ShownAsConf d := by
  rw [Scannable, List.find?_cons_of_pos h, List.takeWhile_cons_of_neg (by simp [h])]
  simp

/-- A value that the search passes does not matter. -/
theorem scannable_cons_pass (h : isConfigFile d = false)
    (harg : ∀ v, d.arg = .separate v → v ≠ "--".toList ∧ ¬ "--conf".toList <+: v) :
    Scannable (d :: ds) ↔ Scannable ds := by
  have hstop : d.arg ≠ .separate "--".toList := fun heq => (harg _ heq).1 rfl
  rw [Scannable, List.find?_cons_of_neg (by simp [h]), List.takeWhile_cons_of_pos (by simp [h]),
    List.takeWhile_cons_of_pos (by simpa using hstop)]
  simp only [List.forall_mem_cons]
  refine and_congr (forall₂_congr fun d' _ => and_congr_right fun _ => and_iff_right harg)
    (forall_congr' fun _ => and_iff_right fun v hv hconf => absurd hconf (harg v hv).2)

/-- Behind a value `--` the search finds nothing. -/
theorem scannable_cons_end (h : isConfigFile d = false) (harg : d.arg = .separate "--".toList) :
    Scannable (d :: ds) ↔ ds.find? isConfigFile = none := by
  rw [Scannable, List.find?_cons_of_neg (by simp [h]), List.takeWhile_cons_of_pos (by simp [h]),
    List.takeWhile_cons_of_neg (by simp [harg])]
  constructor
  · rintro ⟨hfound, -⟩
    rw [Option.eq_none_iff_forall_ne_some]
    intro d' hd'
    exact (((hfound d' hd').2 d List.mem_cons_self) _ harg).1 rfl
  · intro hnone
    rw [hnone]
    exact ⟨fun _ hd => (by cases hd), fun _ _ he => (by cases he)⟩

/-- A value that looks like a `--config-file` is found, unless it is the last argument. -/
theorem scannable_cons_conf {v : List Char} (h : isConfigFile d = false)
    (harg : d.arg = .separate v) (hconf : "--conf".toList <+: v) :
    Scannable (d :: ds) → ds.find? isConfigFile = none ∧ d.behind = [] ∧
      ¬ "--conf=".toList <+: v := by
  have hstop : d.arg ≠ .separate "--".toList := by
    rw [harg]
    exact fun heq => ne_end_of_conf hconf (OptArg.separate.inj heq)
  rw [Scannable, List.find?_cons_of_neg (by simp [h]), List.takeWhile_cons_of_pos (by simp [h]),
    List.takeWhile_cons_of_pos (by simpa using hstop)]
  rintro ⟨hfound, hnone⟩
  have hnil : ds.find? isConfigFile = none := by
    rw [Option.eq_none_iff_forall_ne_some]
    intro d' hd'
    exact (((hfound d' hd').2 d List.mem_cons_self) v harg).2 hconf
  exact ⟨hnil, hnone hnil d List.mem_cons_self v harg hconf⟩

theorem scannable_singleton_conf {v : List Char} (h : isConfigFile d = false)
    (harg : d.arg = .separate v) (hbehind : d.behind = []) (hinline : ¬ "--conf=".toList <+: v) :
    Scannable [d] := by
  refine ⟨fun d' hd' => ?_, fun _ e he v' hv' _ => ?_⟩
  · rw [List.find?_cons_of_neg (by simp [h])] at hd'
    cases hd'
  · have hmem := List.mem_singleton.mp ((List.takeWhile_prefix _).subset he)
    subst hmem
    rw [harg] at hv'
    obtain rfl := OptArg.separate.inj hv'
    exact ⟨hbehind, hinline⟩

/-! ## The whole search -/

/-- A `--config-file` that is delivered has its argument. -/
theorem optarg_of_config (h : Parses options i args ds) (hd : d ∈ ds)
    (hconfig : isConfigFile d = true) : ∃ p, d.optarg = some p := by
  induction h with
  | nil i => cases hd
  | operand hop hrest ih => exact ih hd
  | stop i rest => cases hd
  | flag hspells hno harg hrest ih =>
    rcases List.mem_cons.mp hd with rfl | hd
    · have hval := hasArg_of_config hspells (of_decide_eq_true hconfig)
      rw [harg] at hval
      cases hval
    · exact ih hd
  | inline hspells heq harg hrest ih =>
    rcases List.mem_cons.mp hd with rfl | hd
    · exact ⟨_, rfl⟩
    · exact ih hd
  | separate hspells hno harg hrest ih =>
    rcases List.mem_cons.mp hd with rfl | hd
    · exact ⟨_, rfl⟩
    · exact ih hd

theorem deliveredFile_place {p : Place} (h : Parses options i args ds)
    (hp : deliveredFile ds = some p) : i ≤ p.element ∧ (p.offset = 0 → i < p.element) := by
  obtain ⟨d, hfind, harg⟩ := Option.bind_eq_some_iff.mp hp
  exact h.place (List.mem_of_find?_eq_some hfind) harg

theorem deliveredFile_eq_none (h : Parses options i args ds) :
    deliveredFile ds = none ↔ ds.find? isConfigFile = none := by
  constructor
  · intro hnone
    cases hfind : ds.find? isConfigFile with
    | none => rfl
    | some d =>
      obtain ⟨p, hp⟩ := optarg_of_config h (List.mem_of_find?_eq_some hfind)
        (List.find?_some hfind)
      rw [deliveredFile, hfind, Option.bind_some, hp] at hnone
      cases hnone
  · intro hfind
    rw [deliveredFile, hfind]
    rfl

theorem operand_passes (h : isOperand a = true) : a ≠ "--".toList ∧ ¬ "--conf".toList <+: a := by
  refine ⟨?_, ?_⟩ <;> intro hdash
  · rw [hdash] at h
    exact absurd h (by decide)
  · obtain ⟨t, rfl⟩ := hdash
    have hop : isOperand ("--conf".toList ++ t) = false := rfl
    rw [hop] at h
    cases h

/-- Another option is passed. -/
theorem configFile_spells (h : Spells options a o) (hval : o.val ≠ Options.configFile.val) (i : ℕ)
    (rest : List (List Char)) : configFile i (a :: rest) = configFile (i + 1) rest :=
  configFile_pass h.ne_end (fun hconf => hval (config_option_of_conf h hconf)) i rest

theorem length_optionName (h : "--conf=".toList <+: a) : (optionName a).length + 3 = 7 := by
  obtain ⟨t, rfl⟩ := h
  rfl

/-- The search at a `--config-file` with its value behind `=`. -/
theorem config_inline_iff (h : Spells options a o) (rest : List (List Char)) :
    configFile i (a :: rest) = some ⟨i, (optionName a).length + 3⟩ ↔
      ShownAsConf ⟨o, i, a, .inline ((optionName a).length + 3), rest⟩ := by
  by_cases hconf : "--conf".toList <+: a
  · rw [configFile_conf hconf]
    by_cases heq : "--conf=".toList <+: a
    · rw [if_pos heq, length_optionName heq]
      exact iff_of_true rfl ⟨hconf, fun _ _ => heq⟩
    · rw [if_neg heq]
      refine iff_of_false (fun hfound => ?_) fun hshown => heq (hshown.2 _ rfl)
      split_ifs at hfound
      injection hfound with hplace
      injection hplace with helement
      omega
  · rw [configFile_pass h.ne_end hconf]
    refine iff_of_false (fun hfound => ?_) fun hshown => hconf hshown.1
    have hplace := (configFile_place hfound).1
    dsimp only at hplace
    omega

/-- The search at a `--config-file` with its value in the next argument. -/
theorem config_separate_iff (h : Spells options a o) (hno : '=' ∉ a.drop 2) (v : List Char)
    (rest : List (List Char)) :
    configFile i (a :: v :: rest) = some ⟨i + 1, 0⟩ ↔
      ShownAsConf ⟨o, i, a, .separate v, rest⟩ := by
  by_cases hconf : "--conf".toList <+: a
  · have hinline : ¬ "--conf=".toList <+: a := by
      rintro ⟨t, rfl⟩
      exact hno (List.mem_append_left t (by decide : '=' ∈ "conf=".toList))
    rw [configFile_conf hconf, if_neg hinline, if_neg (List.cons_ne_nil v rest)]
    exact iff_of_true rfl ⟨hconf, fun _ heq => by cases heq⟩
  · rw [configFile_pass h.ne_end hconf]
    refine iff_of_false (fun hfound => ?_) fun hshown => hconf hshown.1
    exact absurd ((configFile_place hfound).2 rfl) (Nat.lt_irrefl _)

/-- The search at the value of another option. -/
theorem value_iff {v : List Char} (hrest : Parses options (i + 2) rest ds)
    (hd : isConfigFile d = false) (harg : d.arg = .separate v) (hbehind : d.behind = rest)
    (ih : configFile (i + 2) rest = deliveredFile ds ↔ Scannable ds) :
    configFile (i + 1) (v :: rest) = deliveredFile (d :: ds) ↔ Scannable (d :: ds) := by
  rw [deliveredFile_cons hd]
  by_cases hend : v = "--".toList
  · subst hend
    rw [configFile_end, scannable_cons_end hd harg, ← deliveredFile_eq_none hrest, eq_comm]
  · by_cases hconf : "--conf".toList <+: v
    · rw [configFile_conf hconf]
      constructor
      · intro hfound
        split_ifs at hfound with hinline hnil
        · have hplace := (deliveredFile_place hrest hfound.symm).1
          dsimp only at hplace
          omega
        · subst hnil
          cases hrest
          exact scannable_singleton_conf hd harg hbehind hinline
        · have hplace := (deliveredFile_place hrest hfound.symm).2 rfl
          dsimp only at hplace
          omega
      · intro hscan
        obtain ⟨hnone, hnil, hinline⟩ := scannable_cons_conf hd harg hconf hscan
        rw [hbehind] at hnil
        rw [if_neg hinline, if_pos hnil, (deliveredFile_eq_none hrest).mpr hnone]
    · have hpass : ∀ w, d.arg = .separate w → w ≠ "--".toList ∧ ¬ "--conf".toList <+: w := by
        intro w hw
        rw [harg] at hw
        obtain rfl := OptArg.separate.inj hw
        exact ⟨hend, hconf⟩
      rw [configFile_pass hend hconf, scannable_cons_pass hd hpass]
      exact ih

theorem parses_config_file_iff (h : Parses options i args ds) :
    configFile i args = deliveredFile ds ↔ Scannable ds := by
  induction h with
  | nil i => exact iff_of_true rfl scannable_nil
  | operand hop hrest ih =>
    rw [configFile_pass (operand_passes hop).1 (operand_passes hop).2]
    exact ih
  | stop i rest => exact iff_of_true (configFile_end i rest) scannable_nil
  | @flag i a o rest ds hspells hno harg hrest ih =>
    have hval : o.val ≠ Options.configFile.val := fun hval => by
      rw [hasArg_of_config hspells hval] at harg
      cases harg
    have hd : isConfigFile ⟨o, i, a, .none, rest⟩ = false := decide_eq_false hval
    have hpass : ∀ v, OptArg.none = .separate v → v ≠ "--".toList ∧ ¬ "--conf".toList <+: v :=
      fun v heq => by cases heq
    rw [configFile_spells hspells hval, deliveredFile_cons hd, scannable_cons_pass hd hpass]
    exact ih
  | @inline i a o rest ds hspells heq harg hrest ih =>
    by_cases hval : o.val = Options.configFile.val
    · have hd : isConfigFile ⟨o, i, a, .inline ((optionName a).length + 3), rest⟩ = true :=
        decide_eq_true hval
      rw [deliveredFile_cons_config hd, scannable_cons_config hd]
      exact config_inline_iff hspells rest
    · have hd : isConfigFile ⟨o, i, a, .inline ((optionName a).length + 3), rest⟩ = false :=
        decide_eq_false hval
      have hpass : ∀ v, OptArg.inline ((optionName a).length + 3) = .separate v →
          v ≠ "--".toList ∧ ¬ "--conf".toList <+: v := fun v heq => by cases heq
      rw [configFile_spells hspells hval, deliveredFile_cons hd, scannable_cons_pass hd hpass]
      exact ih
  | @separate i a v o rest ds hspells hno harg hrest ih =>
    by_cases hval : o.val = Options.configFile.val
    · have hd : isConfigFile ⟨o, i, a, .separate v, rest⟩ = true := decide_eq_true hval
      rw [deliveredFile_cons_config hd, scannable_cons_config hd]
      exact config_separate_iff hspells hno v rest
    · rw [configFile_spells hspells hval]
      exact value_iff hrest (decide_eq_false hval) rfl rfl ih

end Search

/-- **The early search for the config file.** For every argument vector that `getopt_long`
    accepts, `config_file` finds the string that is the argument of the first
    `--config-file`, or none if there is none, if and only if the search sees the options as
    they are delivered. -/
theorem config_file_iff (args : List (List Char)) (ds : List (Delivered OptionFlag))
    (h : getoptLong options 0 args = some ds) :
    (configFile 0 args = deliveredFile ds ↔ Scannable ds) ∧
      (Scannable ds → ∀ deffn, fileName deffn args (configFile 0 args) =
        fileName deffn args (deliveredFile ds)) := by
  have hiff := parses_config_file_iff (parses_of_getoptLong h)
  exact ⟨hiff, fun hscan deffn => by rw [hiff.mpr hscan]⟩

/-! ## Spellings of the option -/

/-- An argument vector. -/
def argv (args : List String) : List (List Char) := args.map String.toList

/-- The names that `config_file` and `getopt_long` find. -/
def foundFiles (args : List (List Char)) : Option (List Char × List Char) :=
  (getoptLong options 0 args).map fun ds =>
    (fileName "/etc/mcelog/mcelog.conf".toList args (configFile 0 args),
      fileName "/etc/mcelog/mcelog.conf".toList args (deliveredFile ds))

/-- `mcelog --config my.conf` -/
theorem config_file_separate : ∃ ds, getoptLong options 0 (argv ["--config", "my.conf"]) = some ds ∧
    (configFile 0 (argv ["--config", "my.conf"]) = deliveredFile ds ↔ Scannable ds) :=
  ⟨_, rfl, (config_file_iff _ _ rfl).1⟩

/-- The option in full with `=`, an abbreviation, and the value of another option: another
    file is read than the one that is named. -/
theorem config_file_differs :
    foundFiles (argv ["--config-file=my.conf", "--daemon"]) =
      some ("--daemon".toList, "my.conf".toList) ∧
    foundFiles (argv ["--con", "my.conf"]) =
      some ("/etc/mcelog/mcelog.conf".toList, "my.conf".toList) ∧
    foundFiles (argv ["--logfile", "--conf", "x"]) =
      some ("x".toList, "/etc/mcelog/mcelog.conf".toList) ∧
    ¬ ∀ args ds, getoptLong options 0 args = some ds → configFile 0 args = deliveredFile ds := by
  refine ⟨by decide +kernel, by decide +kernel, by decide +kernel, fun h => ?_⟩
  exact absurd (h (argv ["--con", "my.conf"]) _ rfl) (by decide +kernel)

end Mcelog.Config
