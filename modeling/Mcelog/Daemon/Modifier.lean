import Mcelog.Common.Override
import Mcelog.Common.Scanf
import Mcelog.Config.Options
import Mcelog.Config.Settings
import Mcelog.Daemon.Cpuinfo
import Mcelog.Msg.Routing

/-!
# The options of a start

The config file and the command line give the same options, and `modifier` handles both: first
those of the config file, in the order of the table of options, then those of the command line
in their own order. Most options set variables of their own, but the syslog options, `--daemon`
and `--foreground` share `syslog_opt`, and several options share the CPU type.

* `modifier`, `configOptions`, `mainLoop`: the code.
* `expected`: the variables in terms of the options that are given, each for itself.
* `startup_iff`: when the options are accepted, and that the variables are the expected ones.
-/

namespace Mcelog.Daemon

open Mcelog.Common Mcelog.Config Mcelog.Machine Mcelog.Msg

/-! ## Numbers and names -/

/-- `atoi` -/
def atoi (s : List Char) : Int32 :=
  match scanNumber 10 true none 32 s with
  | .ok (n, _) => Int32.ofNat n
  | .error _ => 0

/-- The base of a number, and its digits; the `0` of a prefix is one of them. -/
def leadingBase : List Char → ℕ × List Char
  | '0' :: 'x' :: s => (16, '0' :: s)
  | '0' :: 'X' :: s => (16, '0' :: s)
  | '0' :: s => (8, '0' :: s)
  | s => (10, s)

/-- `%i`: the number and the rest. -/
def scanI (s : List Char) : Option (Int32 × List Char) :=
  let (neg, body) := scanSign (s.dropWhile isSpace)
  let (base, digits) := leadingBase body
  let number := digits.takeWhile (isDigitOf base)
  if number = [] then none
  else
    some (Int32.ofNat (strtoValue true neg (ofNumeral base number) % 2 ^ 32),
      digits.drop number.length)

/-- `sscanf(optarg, "%i,%i", &fam, &mod) == 2` -/
def scanFamMod (s : List Char) : Option (Int32 × Int32) :=
  match scanI s with
  | some (fam, ',' :: rest) => (scanI rest).map fun mod => (fam, mod.1)
  | _ => none

/-- The names of each CPU type, in the order of `cpu_choices` (mkcputype:67-79 and the fourth
    column of cputype.table). -/
def cpuNames : List (CpuType × List String) :=
  [ (.generic, ["generic"]),
    (.k8, ["k8"]),
    (.zhaoxin, ["zhaoxin"]),
    (.zhaoxinKh40000, ["kh-40000"]),
    (.zhaoxinKh50000, ["kh-50000"]),
    (.intel, ["intel"]),
    (.p4, ["p4", "xeon5000", "xeon7100"]),
    (.tulsa, ["tulsa", "xeon7100", "xeon71xx"]),
    (.alderlake, ["alderlake"]),
    (.arrowlake, ["arrowlake"]),
    (.atom, ["atom"]),
    (.broadwell, ["broadwell"]),
    (.broadwellDe, ["broadwell-d"]),
    (.broadwellEpex, ["broadwell-ep", "broadwell-ex", "xeon-v4"]),
    (.clearwaterforest, ["clearwaterforest"]),
    (.cometlake, ["cometlake"]),
    (.core2, ["core2", "xeon3100", "xeon3200", "xeon5100", "xeon5200", "xeon7200"]),
    (.denverton, ["denverton"]),
    (.diamondrapids, ["diamond_rapids"]),
    (.dunnington, ["dunnington", "xeon7400", "xeon74xx"]),
    (.emeraldrapids, ["emeraldrapids_server"]),
    (.grandridge, ["grandridge"]),
    (.graniterapids, ["graniterapids"]),
    (.haswell, ["haswell-ep", "haswell-ex", "xeon-v3"]),
    (.haswellEpex, ["haswell"]),
    (.icelake, ["icelake"]),
    (.icelakeDe, ["icelake-d"]),
    (.icelakeXeon, ["icelake_server"]),
    (.ivyBridge, ["ivybridge-ep", "ivybridge-ex", "xeon-v2"]),
    (.ivyBridgeEpex, ["ivybridge"]),
    (.kabylake, ["kabylake"]),
    (.knightsLanding, ["knightslanding"]),
    (.knightsMill, ["knightsmill"]),
    (.lakefield, ["lakefield"]),
    (.lunarlake, ["lunarlake"]),
    (.meteorlake, ["meteorlake"]),
    (.nehalem, ["core_i3", "core_i5", "core_i7", "nehalem", "westmere", "xeon5500"]),
    (.novalake, ["novalake"]),
    (.p6old, ["p6old"]),
    (.pantherlake, ["pantherlake"]),
    (.raptorlake, ["raptorlake"]),
    (.rocketlake, ["rocketlake"]),
    (.sandyBridge, ["sandybridge"]),
    (.sandyBridgeEp, ["sandybridge-ep"]),
    (.sapphirerapids, ["sapphirerapids_server"]),
    (.sierraforest, ["sierraforest"]),
    (.skylake, ["skylake"]),
    (.skylakeXeon, ["cascadelake_server", "skylake_server"]),
    (.tigerlake, ["tigerlake"]),
    (.tremontD, ["snowridge"]),
    (.wildcatlake, ["wildcatlake"]),
    (.xeon75xx, ["xeon7500", "xeon75xx"]) ]

/-- `cpu_choices` -/
def cpuChoices : List (String × CpuType) := cpuNames.flatMap fun row => row.2.map (·, row.1)

/-- `lookup_cputype` (mcelog.c:243-253); `none` ends the program. -/
def lookupCputype (name : List Char) : Option CpuType :=
  (cpuChoices.find? fun c => strcaseEq name c.1.toList).map Prod.snd

/-! ## The variables -/

/-- What `modifier` sets: variables of mcelog.c, msg.c, dmi.c and intel.c. -/
structure Vars where
  logfile : Option (List Char) := none
  cputype : CpuType := .generic
  memoryErrorSupport : Bool := false
  cpuForced : Bool := false
  doDmi : Bool := false
  dmiForced : Bool := false
  verbose : Int32 := 0
  openlogDaemon : Bool := false
  syslogOpt : SyslogOpt := { remark := true }
  syslogLevel : Priority := .warning
  cpumhzForced : Bool := false
  daemonMode : Bool := false
  inputfile : Option (List Char) := none
  foreground : Bool := false
  numerrors : Int32 := 0
  pidfile : List Char := "/var/run/mcelog.pid".toList
  debugNumerrors : Bool := false
  imcLog : ℤ := -1
  maxCorrErrCounters : Int32 := 4158
  checkOnly : Bool := false
  binaryFile : Bool := false
  ignoreNodev : Bool := false
  filterBogus : Bool := true
  dumpRawAscii : Bool := false

/-- What ends the program while it reads its options. -/
inductive Stop
  | usage (status : ℕ)
  | unknownIntelCpu
  | unknownCpu (name : List Char)
  | unparseable (name : String)
  deriving DecidableEq

/-- The working directory, and which texts `%lf` accepts. -/
structure StartEnv where
  getcwd : Option (List Char)
  scansDouble : List Char → Bool

/-- `setup_pidfile` (mcelog.c:872-887): `pidfile` afterwards. -/
def setupPidfile (getcwd : Option (List Char)) (pidfile s : List Char) : List Char :=
  if s.head? ≠ some '/' then
    match getcwd with
    | none => pidfile
    | some cwd => cwd ++ '/' :: s
  else s

/-- An option with a `flag` (getopt_long, and config.c:277-279). -/
def setFlag (v : Vars) (flag : OptionFlag) (val : ℕ) : Vars :=
  match flag with
  | .ignoreNodev => { v with ignoreNodev := val ≠ 0 }
  | .filterBogus => { v with filterBogus := val ≠ 0 }
  | .dumpRawAscii => { v with dumpRawAscii := val ≠ 0 }

/-! ## The code -/

/-- The cases of `modifier` (mcelog.c:1036-1159); nothing where it returns 0. -/
def modifier (env : StartEnv) (v : Vars) (optarg : List Char) : Options → Except Stop (Option Vars)
  | .logfile => .ok (some { v with logfile := some optarg })
  | .k8 => .ok (some { v with cputype := .k8, cpuForced := true })
  | .p4 => .ok (some { v with cputype := .p4, cpuForced := true })
  | .generic => .ok (some { v with cputype := .generic, cpuForced := true })
  | .core2 => .ok (some { v with cputype := .core2, cpuForced := true })
  | .intelCpu =>
    match scanFamMod optarg with
    | none => .error (.usage 1)
    | some (fam, mod) =>
      let (cputype, memoryErrorSupport) := selectIntelCputype v.memoryErrorSupport fam mod
      if cputype = .generic then .error .unknownIntelCpu
      else .ok (some { v with cputype, memoryErrorSupport, cpuForced := true })
  | .cpu =>
    match lookupCputype optarg with
    | none => .error (.unknownCpu optarg)
    | some cputype =>
      .ok (some { v with cputype, cpuForced := true, memoryErrorSupport := cputype.intelCpuInit })
  | .dmi => .ok (some { v with doDmi := true, dmiForced := true })
  | .noDmi => .ok (some { v with dmiForced := true, doDmi := false })
  | .dmiVerbose =>
    match scanI optarg with
    | none => .error (.usage 1)
    | some (n, _) => .ok (some { v with verbose := n })
  | .syslog =>
    .ok (some { v with openlogDaemon := true, syslogOpt := { SyslogOpt.all with force := true } })
  | .noSyslog => .ok (some { v with syslogOpt := { force := true } })
  | .cpumhz =>
    if env.scansDouble optarg then .ok (some { v with cpumhzForced := true })
    else .error (.usage 1)
  | .syslogError =>
    .ok (some { v with syslogLevel := .err, syslogOpt := { SyslogOpt.all with force := true } })
  | .daemon =>
    let syslogOpt : SyslogOpt :=
      if !v.syslogOpt.force then { remark := true, error := true } else v.syslogOpt
    .ok (some { v with daemonMode := true, syslogOpt })
  | .file => .ok (some { v with inputfile := some optarg })
  | .foreground =>
    let syslogOpt : SyslogOpt := if !v.syslogOpt.force then { force := true } else v.syslogOpt
    .ok (some { v with foreground := true, syslogOpt })
  | .numerrors => .ok (some { v with numerrors := atoi optarg })
  | .pidfile => .ok (some { v with pidfile := setupPidfile env.getcwd v.pidfile optarg })
  | .configFile => .ok (some v)
  | .debugNumerrors => .ok (some { v with debugNumerrors := true })
  | .noImcLog => .ok (some { v with imcLog := 0 })
  | .maxCorrErrCounters => .ok (some { v with maxCorrErrCounters := atoi optarg })
  | .isCpuSupported => .ok (some { v with checkOnly := true })
  | .help => .error (.usage 0)
  | .binary => .ok (some { v with binaryFile := true })
  | .filter | .raw | .ascii | .client | .ping | .version => .ok none

/-- `enum options` in order. -/
def allOptions : List Options :=
  [.logfile, .k8, .p4, .generic, .core2, .intelCpu, .filter, .dmi, .noDmi, .dmiVerbose, .syslog,
    .noSyslog, .cpumhz, .syslogError, .raw, .daemon, .ascii, .client, .ping, .version, .configFile,
    .cpu, .file, .foreground, .numerrors, .pidfile, .debugNumerrors, .noImcLog, .isCpuSupported,
    .maxCorrErrCounters, .help, .binary]

/-- The enumerator with this value. -/
def optionOf (opt : ℕ) : Option Options := allOptions.find? fun o => o.val = opt

/-- `modifier(opt)`, which takes 0 for an option with a flag. -/
def callModifier (env : StartEnv) (v : Vars) (opt : ℕ) (optarg : List Char) :
    Except Stop (Option Vars) :=
  match optionOf opt with
  | some o => modifier env v optarg o
  | none => .ok (if opt = 0 then some v else none)

/-- `config_options` (config.c:272-293); what `func` returns is ignored. -/
def configOptions (env : StartEnv) (c : Config) :
    Vars → List (LongOption OptionFlag) → Except Stop Vars
  | v, [] => .ok v
  | v, o :: os =>
    if !o.hasArg then
      match configBool c "global" o.name with
      | none => .error (.unparseable o.name)
      | some set =>
        if set ≠ some true then configOptions env c v os
        else
          match o.flag with
          | some flag => configOptions env c (setFlag v flag o.val) os
          | none =>
            match callModifier env v o.val [] with
            | .error stop => .error stop
            | .ok r => configOptions env c (r.getD v) os
    else
      match configString c "global".toList o.name.toList with
      | none => configOptions env c v os
      | some s =>
        match callModifier env v o.val s with
        | .error stop => .error stop
        | .ok r => configOptions env c (r.getD v) os

/-- The argument of an option. -/
def argText (d : Delivered OptionFlag) : List Char :=
  match d.arg with
  | .none => []
  | .inline offset => d.text.drop offset
  | .separate value => value

/-- An option of the command line: `getopt_long` sets a flag, and `modifier` gets what it
    returns. -/
def deliver (env : StartEnv) (v : Vars) (d : Delivered OptionFlag) : Except Stop (Option Vars) :=
  match d.option.flag with
  | some flag => callModifier env (setFlag v flag d.option.val) 0 []
  | none => callModifier env v d.option.val (argText d)

/-- `argsleft` (mcelog.c:1177-1187) -/
def argsleft (env : StartEnv) : Vars → List (Delivered OptionFlag) → Except Stop Vars
  | v, [] => .ok v
  | v, d :: ds =>
    match deliver env v d with
    | .error stop => .error stop
    | .ok none => .error (.usage 1)
    | .ok (some v') => argsleft env v' ds

/-- `no_syslog` (mcelog.c:1189-1193) -/
def noSyslog (v : Vars) : Vars :=
  if !v.syslogOpt.force then { v with syslogOpt := {} } else v

/-- The commands that replace the normal operation. -/
inductive Command
  | ascii
  | client
  | ping
  | version
  deriving DecidableEq

/-- The start of `ascii_command`, `client_command` and `ping_command` (mcelog.c:1319-1353), or
    `noargs` (mcelog.c:1292-1298). -/
def runCommand (env : StartEnv) (v : Vars) (ds : List (Delivered OptionFlag)) :
    Command → Except Stop (Vars × Option Command)
  | .version => if ds ≠ [] then .error (.usage 1) else .ok (v, some .version)
  | cmd =>
    match argsleft env v ds with
    | .error stop => .error stop
    | .ok v' => .ok (noSyslog v', some cmd)

/-- The command of an enumerator. -/
def commandOf : Options → Option Command
  | .ascii => some .ascii
  | .client => some .client
  | .ping => some .ping
  | .version => some .version
  | _ => none

/-- The loop of `main` (mcelog.c:1381-1404) for the options that `getopt_long` delivers: the
    variables, and the command if there is one. -/
def mainLoop (env : StartEnv) :
    Vars → List (Delivered OptionFlag) → Except Stop (Vars × Option Command)
  | v, [] => .ok (v, none)
  | v, d :: ds =>
    match deliver env v d with
    | .error stop => .error stop
    | .ok (some v') => mainLoop env v' ds
    | .ok none =>
      match (optionOf d.option.val).bind commandOf with
      | some cmd => runCommand env v ds cmd
      | none => mainLoop env v ds

/-- The options of a start (mcelog.c:1379-1404). There is no config file if the default one
    does not exist. -/
def startup (env : StartEnv) (c : Option Config) (ds : List (Delivered OptionFlag)) :
    Except Stop (Vars × Option Command) :=
  match c with
  | none => mainLoop env {} ds
  | some c =>
    match configOptions env c {} options with
    | .error stop => .error stop
    | .ok v => mainLoop env v ds

/-! ## What the options mean -/

/-- An option as it is given, in the config file or on the command line. -/
inductive Given
  | flag (flag : OptionFlag) (val : ℕ)
  | option (o : Options) (arg : List Char)
  deriving DecidableEq

/-- An entry of the table with its argument. -/
def givenOf (o : LongOption OptionFlag) (arg : List Char) : Option Given :=
  match o.flag with
  | some flag => some (.flag flag o.val)
  | none => (optionOf o.val).map fun e => .option e arg

/-- An entry of the table that a config file sets to `yes`, or to a value. -/
def entryGiven (c : Config) (o : LongOption OptionFlag) : Option Given :=
  if o.hasArg then (configString c "global".toList o.name.toList).bind (givenOf o)
  else if configBool c "global" o.name = some (some true) then givenOf o []
  else none

/-- The options of a config file, in the order of the table. -/
def configGiven (c : Config) (os : List (LongOption OptionFlag)) : List Given :=
  os.filterMap (entryGiven c)

/-- The options of a command line. -/
def lineGiven (ds : List (Delivered OptionFlag)) : List Given :=
  ds.filterMap fun d => givenOf d.option (argText d)

/-- All options of a start, in the order in which they are handled. -/
def allGiven (c : Option Config) (ds : List (Delivered OptionFlag)) : List Given :=
  (c.elim [] fun c => configGiven c options) ++ lineGiven ds

/-- The option `o` writes `f arg`. -/
def sets {β : Type} (o : Options) (f : List Char → β) : Given → Option β
  | .flag _ _ => none
  | .option o' arg => if o' = o then some (f arg) else none

/-- One of the options `os` is given. -/
def isOneOf (os : List Options) : Given → Bool
  | .flag _ _ => false
  | .option o _ => o ∈ os

/-- The variable of a flag. -/
def setsFlag (flag : OptionFlag) : Given → Option Bool
  | .flag flag' val => if flag' = flag then some (val ≠ 0) else none
  | .option _ _ => none

/-- The family and the model select a type other than the generic one. -/
def intelCpuOf (arg : List Char) : Option CpuType :=
  (scanFamMod arg).bind fun famMod =>
    let cputype := (selectIntelCputype false famMod.1 famMod.2).1
    if cputype = .generic then none else some cputype

/-- The options that write `cputype`. -/
def setsCputype : Given → Option CpuType
  | .option .k8 _ => some .k8
  | .option .p4 _ => some .p4
  | .option .generic _ => some .generic
  | .option .core2 _ => some .core2
  | .option .intelCpu arg => intelCpuOf arg
  | .option .cpu arg => lookupCputype arg
  | _ => none

/-- The options that write `memory_error_support`. -/
def setsSupport : Given → Option Bool
  | .option .intelCpu arg =>
    if (scanFamMod arg).any fun famMod => (selectIntelCputype false famMod.1 famMod.2).2 then
      some true
    else none
  | .option .cpu arg => (lookupCputype arg).map CpuType.intelCpuInit
  | _ => none

/-- `--pidfile` with a name that can be completed. -/
def setsPidfile (getcwd : Option (List Char)) : Given → Option (List Char)
  | .option .pidfile arg =>
    if arg.head? = some '/' then some arg else getcwd.map fun cwd => cwd ++ '/' :: arg
  | _ => none

/-- The options about syslog, whose last one counts. -/
def setsSyslog : Given → Option SyslogOpt
  | .option .syslog _ => some { SyslogOpt.all with force := true }
  | .option .syslogError _ => some { SyslogOpt.all with force := true }
  | .option .noSyslog _ => some { force := true }
  | _ => none

/-- Without one of them, `--foreground` switches syslog off, `--daemon` leaves the decoded
    errors out, and otherwise only remarks go there; the order does not matter. -/
def syslogAfter (gs : List Given) : SyslogOpt :=
  lastSet setsSyslog
    (if gs.any (isOneOf [.foreground]) then { force := true }
    else if gs.any (isOneOf [.daemon]) then { remark := true, error := true }
    else { remark := true }) gs

/-- The variables in terms of the options that are given. -/
def expected (env : StartEnv) (gs : List Given) : Vars where
  logfile := lastSet (sets .logfile some) none gs
  cputype := lastSet setsCputype .generic gs
  memoryErrorSupport := lastSet setsSupport false gs
  cpuForced := gs.any (isOneOf [.k8, .p4, .generic, .core2, .intelCpu, .cpu])
  doDmi := lastSet (fun g => (sets .dmi (fun _ => true) g).or (sets .noDmi (fun _ => false) g))
    false gs
  dmiForced := gs.any (isOneOf [.dmi, .noDmi])
  verbose := lastSet (fun g => (sets .dmiVerbose (fun arg => (scanI arg).map Prod.fst) g).join) 0 gs
  openlogDaemon := gs.any (isOneOf [.syslog])
  syslogOpt := syslogAfter gs
  syslogLevel := lastSet (sets .syslogError fun _ => .err) .warning gs
  cpumhzForced := gs.any (isOneOf [.cpumhz])
  daemonMode := gs.any (isOneOf [.daemon])
  inputfile := lastSet (sets .file some) none gs
  foreground := gs.any (isOneOf [.foreground])
  numerrors := lastSet (sets .numerrors atoi) 0 gs
  pidfile := lastSet (setsPidfile env.getcwd) "/var/run/mcelog.pid".toList gs
  debugNumerrors := gs.any (isOneOf [.debugNumerrors])
  imcLog := lastSet (sets .noImcLog fun _ => 0) (-1) gs
  maxCorrErrCounters := lastSet (sets .maxCorrErrCounters atoi) 4158 gs
  checkOnly := gs.any (isOneOf [.isCpuSupported])
  binaryFile := gs.any (isOneOf [.binary])
  ignoreNodev := lastSet (setsFlag .ignoreNodev) false gs
  filterBogus := lastSet (setsFlag .filterBogus) true gs
  dumpRawAscii := lastSet (setsFlag .dumpRawAscii) false gs

/-- `modifier` accepts the argument of the option. -/
def Accepts (env : StartEnv) : Given → Bool
  | .option .intelCpu arg => (intelCpuOf arg).isSome
  | .option .cpu arg => (lookupCputype arg).isSome
  | .option .dmiVerbose arg => (scanI arg).isSome
  | .option .cpumhz arg => env.scansDouble arg
  | .option .help _ => false
  | _ => true

/-- The command of an option. -/
def Given.command : Given → Option Command
  | .flag _ _ => none
  | .option o _ => commandOf o

/-- The command line holds at most one command, and nothing follows `--version`. -/
def CommandIs (gs : List Given) (cmd : Option Command) : Prop :=
  gs.filterMap Given.command = cmd.toList ∧
  (cmd = some .version → gs.getLast?.bind Given.command = cmd)

/-- A start whose options are all accepted. -/
structure Accepted (env : StartEnv) (c : Option Config) (ds : List (Delivered OptionFlag))
    (cmd : Option Command) : Prop where
  bools : ∀ c' ∈ c, ∀ o ∈ options, o.hasArg = false → configBool c' "global" o.name ≠ none
  args : ∀ g ∈ allGiven c ds, Accepts env g = true
  command : CommandIs (lineGiven ds) cmd

/-- The variables when the command starts. -/
def finish (v : Vars) : Option Command → Vars
  | none => v
  | some .version => v
  | some _ => noSyslog v

variable {env : StartEnv} {v : Vars} {g : Given} {gs : List Given} {d : Delivered OptionFlag}
  {ds : List (Delivered OptionFlag)} {c : Config} {cmd : Option Command} {o : SyslogOpt}

/-! ## One option -/

/-- The code for an option that is given. -/
def apply (env : StartEnv) (v : Vars) : Given → Except Stop (Option Vars)
  | .flag flag val => .ok (some (setFlag v flag val))
  | .option o arg => modifier env v arg o

/-- The variables after an option. -/
def effect (env : StartEnv) (v : Vars) (g : Given) : Vars :=
  match apply env v g with
  | .ok (some v') => v'
  | _ => v

/-- The type does not depend on what is known about memory errors, and that is only extended. -/
theorem selectIntelCputype_or (support : Bool) (family model : Int32) :
    selectIntelCputype support family model =
      ((selectIntelCputype false family model).1,
        support || (selectIntelCputype false family model).2) := by
  have hfalse := congrArg Prod.snd (selectIntelCputype_eq false family model)
  dsimp only at hfalse
  rw [selectIntelCputype_eq support family model, hfalse]
  split_ifs <;> simp

/-- `modifier` returns 1. -/
def Given.handled : Given → Bool
  | .flag _ _ => true
  | .option o _ => o ∉ [Options.filter, .raw, .ascii, .client, .ping, .version]

/-- An option is accepted or refused whatever the variables are. -/
theorem apply_cases (env : StartEnv) (v : Vars) (g : Given) :
    (Accepts env g = true ∧
      apply env v g = .ok (if g.handled then some (effect env v g) else none)) ∨
    (Accepts env g = false ∧ ∃ stop, apply env v g = .error stop) := by
  cases g with
  | flag flag val => exact .inl ⟨rfl, rfl⟩
  | option o arg =>
    cases o
    case intelCpu =>
      cases hscan : scanFamMod arg with
      | none => exact .inr ⟨by simp [Accepts, intelCpuOf, hscan], .usage 1, by
          simp [apply, modifier, hscan]⟩
      | some famMod =>
        obtain ⟨fam, mod⟩ := famMod
        by_cases hgeneric : (selectIntelCputype false fam mod).1 = .generic
        · refine .inr ⟨by simp [Accepts, intelCpuOf, hscan, hgeneric], .unknownIntelCpu, ?_⟩
          simp [apply, modifier, hscan, selectIntelCputype_or v.memoryErrorSupport, hgeneric]
        · refine .inl ⟨by simp [Accepts, intelCpuOf, hscan, hgeneric], ?_⟩
          simp [effect, apply, modifier, hscan, selectIntelCputype_or v.memoryErrorSupport,
            hgeneric, Given.handled]
    case cpu =>
      cases hname : lookupCputype arg with
      | none => exact .inr ⟨by simp [Accepts, hname], .unknownCpu arg, by
          simp [apply, modifier, hname]⟩
      | some cputype => exact .inl ⟨by simp [Accepts, hname], by
          simp [effect, apply, modifier, hname, Given.handled]⟩
    case dmiVerbose =>
      cases hscan : scanI arg with
      | none => exact .inr ⟨by simp [Accepts, hscan], .usage 1, by simp [apply, modifier, hscan]⟩
      | some n => exact .inl ⟨by simp [Accepts, hscan], by
          simp [effect, apply, modifier, hscan, Given.handled]⟩
    case cpumhz =>
      cases hscan : env.scansDouble arg with
      | false => exact .inr ⟨hscan, .usage 1, by simp [apply, modifier, hscan]⟩
      | true => exact .inl ⟨hscan, by simp [effect, apply, modifier, hscan, Given.handled]⟩
    case help => exact .inr ⟨rfl, _, rfl⟩
    all_goals exact .inl ⟨rfl, rfl⟩

theorem apply_of_accepts (h : Accepts env g = true) (v : Vars) :
    apply env v g = .ok (if g.handled then some (effect env v g) else none) := by
  rcases apply_cases env v g with ⟨-, happly⟩ | ⟨hrefused, -⟩
  · exact happly
  · rw [h] at hrefused
    cases hrefused

theorem apply_of_not_accepts (h : Accepts env g = false) (v : Vars) :
    ∃ stop, apply env v g = .error stop := by
  rcases apply_cases env v g with ⟨haccepts, -⟩ | ⟨-, hstop⟩
  · rw [h] at haccepts
    cases haccepts
  · exact hstop

theorem effect_of_not_handled (h : g.handled = false) (v : Vars) : effect env v g = v := by
  cases g with
  | flag flag val => cases h
  | option o arg =>
    cases o
    case filter | raw | ascii | client | ping | version => rfl
    all_goals cases h

/-! ## All options -/

/-- Without an option about syslog, the default is kept. -/
theorem lastSet_of_none {β : Type} {writes : Given → Option β}
    (h : gs.any (fun g => (writes g).isSome) = false) (b : β) : lastSet writes b gs = b := by
  have hnone : gs.filterMap writes = [] := by
    rw [List.filterMap_eq_nil_iff]
    intro g hg
    exact Option.not_isSome_iff_eq_none.mp fun hsome =>
      Bool.false_ne_true (h.symm.trans (List.any_eq_true.mpr ⟨g, hg, hsome⟩))
  rw [lastSet, hnone]
  rfl

theorem setsSyslog_force (h : setsSyslog g = some o) : o.force = true := by
  cases g with
  | flag flag val => cases h
  | option e arg =>
    cases e
    case syslog | syslogError | noSyslog =>
      obtain rfl := Option.some.inj h
      rfl
    all_goals cases h

/-- `SYSLOG_FORCE` is set by an option about syslog and by `--foreground`. -/
theorem syslogAfter_force (gs : List Given) :
    (syslogAfter gs).force =
      (gs.any (fun g => (setsSyslog g).isSome) || gs.any (isOneOf [.foreground])) := by
  unfold syslogAfter
  cases hany : gs.any (fun g => (setsSyslog g).isSome) with
  | false =>
    rw [lastSet_of_none hany, Bool.false_or]
    cases gs.any (isOneOf [.foreground]) <;> cases gs.any (isOneOf [.daemon]) <;> rfl
  | true =>
    rw [Bool.true_or, lastSet]
    obtain ⟨g, hg, hsome⟩ := List.any_eq_true.mp hany
    obtain ⟨o, ho⟩ := Option.isSome_iff_exists.mp hsome
    have hne : gs.filterMap setsSyslog ≠ [] :=
      List.ne_nil_of_mem (List.mem_filterMap.mpr ⟨g, hg, ho⟩)
    rw [List.getLast?_eq_some_getLast hne, Option.getD_some]
    obtain ⟨g', -, hg'⟩ := List.mem_filterMap.mp (List.getLast_mem hne)
    exact setsSyslog_force hg'

/-- The default that applies while no option about syslog is given. -/
theorem syslogAfter_concat (gs : List Given) (g : Given) :
    syslogAfter (gs ++ [g]) =
      (setsSyslog g).getD
        (if (syslogAfter gs).force then syslogAfter gs
        else if isOneOf [.foreground] g then { force := true }
        else if isOneOf [.daemon] g then { remark := true, error := true }
        else syslogAfter gs) := by
  rw [syslogAfter_force]
  conv_lhs => rw [syslogAfter, lastSet_concat]
  congr 1
  simp only [List.any_append, List.any_cons, List.any_nil, Bool.or_false]
  cases hany : gs.any (fun g => (setsSyslog g).isSome) with
  | true =>
    rw [Bool.true_or, if_pos rfl]
    obtain ⟨g', hg', hsome⟩ := List.any_eq_true.mp hany
    exact lastSet_of_mem ⟨g', hg', hsome⟩ _ _
  | false =>
    rw [Bool.false_or, syslogAfter, lastSet_of_none hany, lastSet_of_none hany]
    cases hforeground : gs.any (isOneOf [.foreground]) with
    | true => rfl
    | false =>
      cases isOneOf [.foreground] g with
      | true => rfl
      | false => cases isOneOf [.daemon] g <;> cases gs.any (isOneOf [.daemon]) <;> rfl

/-- One more option. -/
theorem expected_concat (env : StartEnv) (gs : List Given) (h : Accepts env g = true) :
    expected env (gs ++ [g]) = effect env (expected env gs) g := by
  have hany : ∀ os, (gs ++ [g]).any (isOneOf os) = (gs.any (isOneOf os) || isOneOf os g) := by
    intro os
    simp
  simp only [expected, lastSet_concat, hany, syslogAfter_concat]
  cases g with
  | flag flag val =>
    cases flag <;>
      simp [effect, apply, setFlag, sets, setsFlag, isOneOf, setsCputype, setsSupport, setsPidfile,
        setsSyslog]
  | option o arg =>
    cases o
    case intelCpu =>
      obtain ⟨cputype, hcpu⟩ := Option.isSome_iff_exists.mp h
      obtain ⟨⟨fam, mod⟩, hscan, htype⟩ := Option.bind_eq_some_iff.mp hcpu
      dsimp only at htype
      split_ifs at htype with hgeneric
      cases hsupport : (selectIntelCputype false fam mod).2 <;>
        simp [effect, apply, modifier, sets, setsFlag, isOneOf, setsCputype, setsSupport,
          setsPidfile, setsSyslog, intelCpuOf, hscan, hgeneric, hsupport,
          selectIntelCputype_or (lastSet setsSupport false gs)]
    case cpu =>
      obtain ⟨cputype, hname⟩ := Option.isSome_iff_exists.mp h
      simp [effect, apply, modifier, sets, setsFlag, isOneOf, setsCputype, setsSupport,
        setsPidfile, setsSyslog, hname]
    case dmiVerbose =>
      obtain ⟨n, hscan⟩ := Option.isSome_iff_exists.mp h
      simp [effect, apply, modifier, sets, setsFlag, isOneOf, setsCputype, setsSupport,
        setsPidfile, setsSyslog, hscan]
    case cpumhz =>
      have hscan : env.scansDouble arg = true := h
      simp [effect, apply, modifier, sets, setsFlag, isOneOf, setsCputype, setsSupport,
        setsPidfile, setsSyslog, hscan]
    case help => cases h
    case pidfile =>
      by_cases hroot : arg.head? = some '/'
      · simp [effect, apply, modifier, sets, setsFlag, isOneOf, setsCputype, setsSupport,
          setsPidfile, setupPidfile, setsSyslog, hroot]
      · cases hcwd : env.getcwd <;>
          simp [effect, apply, modifier, sets, setsFlag, isOneOf, setsCputype, setsSupport,
            setsPidfile, setupPidfile, setsSyslog, hroot, hcwd]
    case daemon | foreground =>
      -- The default is not used if syslog is forced.
      simp only [effect, apply, modifier]
      cases hforce : (syslogAfter gs).force <;>
        simp [sets, setsFlag, isOneOf, setsCputype, setsSupport, setsPidfile, setsSyslog, hforce]
    all_goals
      simp [effect, apply, modifier, sets, setsFlag, isOneOf, setsCputype, setsSupport,
        setsPidfile, setsSyslog]

/-- A run of options. -/
theorem expected_append (env : StartEnv) (gs gs' : List Given)
    (h : ∀ g ∈ gs', Accepts env g = true) :
    expected env (gs ++ gs') = gs'.foldl (effect env) (expected env gs) := by
  induction gs' generalizing gs with
  | nil => rw [List.append_nil, List.foldl_nil]
  | cons g gs' ih =>
    rw [List.foldl_cons, ← expected_concat env gs (h g List.mem_cons_self),
      ← ih _ fun g' hg' => h g' (List.mem_cons_of_mem _ hg'), List.append_assoc]
    rfl

/-! ## The table of options -/

/-- Every entry of the table is one that is given, and `modifier` handles it or it is a
    command. -/
theorem givenOf_table {o : LongOption OptionFlag} (ho : o ∈ options) (arg : List Char) :
    (∃ flag, o.flag = some flag ∧ givenOf o arg = some (.flag flag o.val)) ∨
    ∃ e, o.flag = none ∧ optionOf o.val = some e ∧ givenOf o arg = some (.option e arg) ∧
      e ≠ .filter ∧ e ≠ .raw := by
  have hall : ∀ o ∈ options, o.flag = none →
      (optionOf o.val).any (fun e => e ≠ .filter ∧ e ≠ .raw) = true := by decide
  cases hflag : o.flag with
  | some flag => exact .inl ⟨flag, rfl, by rw [givenOf, hflag]⟩
  | none =>
    obtain ⟨e, he, hne⟩ := (Option.any_eq_true _ _).mp (hall o ho hflag)
    obtain ⟨hfilter, hraw⟩ := of_decide_eq_true hne
    exact .inr ⟨e, rfl, he, by rw [givenOf, hflag, he]; rfl, hfilter, hraw⟩

theorem callModifier_of_optionOf {opt : ℕ} {e : Options} (h : optionOf opt = some e)
    (v : Vars) (arg : List Char) :
    callModifier env v opt arg = apply env v (.option e arg) := by
  rw [callModifier, h]
  rfl

/-- A command is what `modifier` does not handle. -/
theorem handled_option {e : Options} (hfilter : e ≠ .filter) (hraw : e ≠ .raw) (arg : List Char) :
    (Given.option e arg).handled = (commandOf e).isNone := by
  cases e
  case filter => exact absurd rfl hfilter
  case raw => exact absurd rfl hraw
  all_goals rfl

theorem lineGiven_singleton (h : givenOf d.option (argText d) = some g) : lineGiven [d] = [g] := by
  simp [lineGiven, h]

/-- An option of the command line. -/
theorem deliver_eq (hd : d.option ∈ options) :
    ∃ g, lineGiven [d] = [g] ∧ (∀ v, deliver env v d = apply env v g) ∧
      g.handled = g.command.isNone ∧
      (g.handled = false → (optionOf d.option.val).bind commandOf = g.command) := by
  rcases givenOf_table hd (argText d) with ⟨flag, hflag, hg⟩ | ⟨e, hflag, he, hg, hfilter, hraw⟩
  · refine ⟨_, lineGiven_singleton hg, fun v => ?_, rfl, fun h => by cases h⟩
    rw [deliver, hflag]
    rfl
  · refine ⟨_, lineGiven_singleton hg, fun v => ?_, handled_option hfilter hraw _, fun _ => ?_⟩
    · rw [deliver, hflag]
      exact callModifier_of_optionOf he v _
    · rw [he]
      rfl

theorem lineGiven_cons (d : Delivered OptionFlag) (ds : List (Delivered OptionFlag)) :
    lineGiven (d :: ds) = lineGiven [d] ++ lineGiven ds := by
  rw [lineGiven, lineGiven, lineGiven, ← List.filterMap_append]
  rfl

/-! ## The config file -/

/-- What an entry of the table does in the config file: it cannot be parsed, is not set, or is
    given. -/
theorem configOptions_cons (env : StartEnv) (c : Config) {o : LongOption OptionFlag}
    (ho : o ∈ options) (os : List (LongOption OptionFlag)) :
    (o.hasArg = false ∧ configBool c "global" o.name = none ∧
      ∀ v, configOptions env c v (o :: os) = .error (.unparseable o.name)) ∨
    ((o.hasArg = false → configBool c "global" o.name ≠ none) ∧ entryGiven c o = none ∧
      ∀ v, configOptions env c v (o :: os) = configOptions env c v os) ∨
    ((o.hasArg = false → configBool c "global" o.name ≠ none) ∧
      ∃ g, entryGiven c o = some g ∧ ∀ v, configOptions env c v (o :: os) =
        (apply env v g).bind fun r => configOptions env c (r.getD v) os) := by
  have hflagArg : ∀ o ∈ options, o.flag ≠ none → o.hasArg = false := by decide
  unfold entryGiven
  cases harg : o.hasArg with
  | false =>
    rw [if_neg Bool.false_ne_true]
    have hcons : ∀ v, configOptions env c v (o :: os) = _ := fun v => by
      rw [configOptions, harg, if_pos Bool.not_false]
    cases hbool : configBool c "global" o.name with
    | none => exact .inl ⟨rfl, rfl, fun v => by rw [hcons, hbool]⟩
    | some set =>
      refine .inr ?_
      by_cases hset : set = some true
      · refine .inr ⟨fun _ h => (by cases h), ?_⟩
        subst hset
        rw [if_pos rfl]
        rcases givenOf_table ho [] with ⟨flag, hflag, hg⟩ | ⟨e, hflag, he, hg, -, -⟩
        · refine ⟨_, hg, fun v => ?_⟩
          rw [hcons, hbool, hflag]
          rfl
        · refine ⟨_, hg, fun v => ?_⟩
          rw [hcons, hbool, hflag, ← callModifier_of_optionOf he]
          cases callModifier env v o.val [] <;> rfl
      · rw [if_neg fun h => hset (Option.some.inj h)]
        refine .inl ⟨fun _ h => (by cases h), rfl, fun v => ?_⟩
        rw [hcons, hbool]
        exact if_pos hset
  | true =>
    refine .inr ?_
    rw [if_pos rfl]
    have hcons : ∀ v, configOptions env c v (o :: os) = _ := fun v => by
      rw [configOptions, harg, Bool.not_true, if_neg Bool.false_ne_true]
    cases hstring : configString c "global".toList o.name.toList with
    | none => exact .inl ⟨fun h => (by cases h), rfl, fun v => by rw [hcons, hstring]⟩
    | some s =>
      refine .inr ⟨fun h => (by cases h), ?_⟩
      rcases givenOf_table ho s with ⟨flag, hflag, -⟩ | ⟨e, hflag, he, hg, -, -⟩
      · have hno := hflagArg o ho (by rw [hflag]; exact Option.some_ne_none flag)
        rw [harg] at hno
        cases hno
      · refine ⟨_, hg, fun v => ?_⟩
        rw [hcons, hstring, ← callModifier_of_optionOf he]
        dsimp only
        cases callModifier env v o.val s <;> rfl

theorem configGiven_cons_none {o : LongOption OptionFlag} (h : entryGiven c o = none)
    (os : List (LongOption OptionFlag)) : configGiven c (o :: os) = configGiven c os :=
  List.filterMap_cons_none h

theorem configGiven_cons_some {o : LongOption OptionFlag} (h : entryGiven c o = some g)
    (os : List (LongOption OptionFlag)) : configGiven c (o :: os) = g :: configGiven c os :=
  List.filterMap_cons_some h

/-- What follows an option in the config file. -/
theorem getD_handled (env : StartEnv) (v : Vars) (g : Given) :
    (if g.handled then some (effect env v g) else none).getD v = effect env v g := by
  cases hg : g.handled with
  | true => rfl
  | false => exact (effect_of_not_handled hg v).symm

/-- The whole config file. -/
theorem configOptions_iff (env : StartEnv) (c : Config) {os : List (LongOption OptionFlag)}
    (hos : ∀ o ∈ os, o ∈ options) (v v' : Vars) :
    configOptions env c v os = .ok v' ↔
      (∀ o ∈ os, o.hasArg = false → configBool c "global" o.name ≠ none) ∧
      (∀ g ∈ configGiven c os, Accepts env g = true) ∧
      v' = (configGiven c os).foldl (effect env) v := by
  induction os generalizing v with
  | nil =>
    refine ⟨fun h => ⟨fun o ho => absurd ho List.not_mem_nil,
      fun g hg => absurd hg List.not_mem_nil, (Except.ok.inj h).symm⟩, ?_⟩
    rintro ⟨-, -, rfl⟩
    rfl
  | cons o os ih =>
    have ih' := ih fun o' ho' => hos o' (List.mem_cons_of_mem _ ho')
    rw [List.forall_mem_cons]
    rcases configOptions_cons env c (hos o List.mem_cons_self) os with
      ⟨harg, hbool, hcons⟩ | ⟨hbool, hgiven, hcons⟩ | ⟨hbool, g, hgiven, hcons⟩
    · rw [hcons]
      exact iff_of_false (fun h => by cases h) fun h => h.1.1 harg hbool
    · rw [hcons, ih', configGiven_cons_none hgiven]
      exact ⟨fun ⟨h, h'⟩ => ⟨⟨hbool, h⟩, h'⟩, fun ⟨⟨_, h⟩, h'⟩ => ⟨h, h'⟩⟩
    · rw [hcons, configGiven_cons_some hgiven, List.forall_mem_cons]
      cases haccepts : Accepts env g with
      | true =>
        rw [apply_of_accepts haccepts]
        show configOptions env c ((if g.handled then _ else none).getD v) os = _ ↔ _
        rw [getD_handled, ih']
        exact ⟨fun ⟨h, h', h''⟩ => ⟨⟨hbool, h⟩, ⟨rfl, h'⟩, h''⟩,
          fun ⟨⟨_, h⟩, ⟨_, h'⟩, h''⟩ => ⟨h, h', h''⟩⟩
      | false =>
        obtain ⟨stop, hstop⟩ := apply_of_not_accepts haccepts v
        rw [hstop]
        exact iff_of_false (fun h => by cases h) fun h => Bool.false_ne_true h.2.1.1

/-! ## The command line -/

/-- The options behind a command. -/
theorem argsleft_iff (env : StartEnv) (hds : ∀ d ∈ ds, d.option ∈ options) (v v' : Vars) :
    argsleft env v ds = .ok v' ↔
      (∀ g ∈ lineGiven ds, Accepts env g = true) ∧ (lineGiven ds).filterMap Given.command = [] ∧
      v' = (lineGiven ds).foldl (effect env) v := by
  induction ds generalizing v with
  | nil =>
    refine ⟨fun h => ⟨fun g hg => absurd hg List.not_mem_nil, rfl, (Except.ok.inj h).symm⟩, ?_⟩
    rintro ⟨-, -, rfl⟩
    rfl
  | cons d ds ih =>
    have ih' := ih fun d' hd' => hds d' (List.mem_cons_of_mem _ hd')
    obtain ⟨g, hgiven, hdeliver, hhandled, -⟩ := deliver_eq (hds d List.mem_cons_self)
    rw [argsleft, hdeliver, lineGiven_cons, hgiven, List.singleton_append, List.forall_mem_cons,
      List.foldl_cons]
    cases haccepts : Accepts env g with
    | false =>
      obtain ⟨stop, hstop⟩ := apply_of_not_accepts haccepts v
      rw [hstop]
      exact iff_of_false (fun h => by cases h) fun h => Bool.false_ne_true h.1.1
    | true =>
      rw [apply_of_accepts haccepts]
      cases hcommand : g.command with
      | none =>
        rw [hcommand] at hhandled
        rw [hhandled, List.filterMap_cons_none hcommand]
        show argsleft env (effect env v g) ds = _ ↔ _
        rw [ih']
        exact ⟨fun ⟨h, h'⟩ => ⟨⟨rfl, h⟩, h'⟩, fun ⟨⟨_, h⟩, h'⟩ => ⟨h, h'⟩⟩
      | some cmd =>
        rw [hcommand] at hhandled
        rw [hhandled, List.filterMap_cons_some hcommand]
        exact iff_of_false (fun h => by cases h) fun h => by cases h.2.1

theorem lineGiven_eq_nil (hds : ∀ d ∈ ds, d.option ∈ options) : lineGiven ds = [] ↔ ds = [] := by
  constructor
  · intro h
    cases ds with
    | nil => rfl
    | cons d ds =>
      rw [lineGiven_cons] at h
      rcases givenOf_table (hds d List.mem_cons_self) (argText d) with
        ⟨flag, -, hgiven⟩ | ⟨e, -, -, hgiven, -⟩ <;>
      · rw [lineGiven_singleton hgiven] at h
        cases h
  · rintro rfl
    rfl

/-- A command and what is behind it. -/
theorem runCommand_iff (env : StartEnv) (hds : ∀ d ∈ ds, d.option ∈ options) (v v' : Vars)
    (k : Command) (cmd : Option Command) :
    runCommand env v ds k = .ok (v', cmd) ↔ cmd = some k ∧
      (∀ g ∈ lineGiven ds, Accepts env g = true) ∧ (lineGiven ds).filterMap Given.command = [] ∧
      (k = .version → lineGiven ds = []) ∧
      v' = finish ((lineGiven ds).foldl (effect env) v) (some k) := by
  by_cases hversion : k = .version
  · subst hversion
    rw [runCommand]
    by_cases hnil : ds = []
    · subst hnil
      rw [if_neg (not_not.mpr rfl)]
      constructor
      · intro h
        obtain ⟨rfl, rfl⟩ := Prod.mk.inj (Except.ok.inj h)
        exact ⟨rfl, fun g hg => absurd hg List.not_mem_nil, rfl, fun _ => rfl, rfl⟩
      · rintro ⟨rfl, -, -, -, rfl⟩
        rfl
    · rw [if_pos hnil]
      exact iff_of_false (fun h => by cases h) fun h =>
        hnil ((lineGiven_eq_nil hds).mp (h.2.2.2.1 rfl))
  · have hrun : runCommand env v ds k =
        (argsleft env v ds).map fun v' => (noSyslog v', some k) := by
      cases k
      case version => exact absurd rfl hversion
      all_goals
        rw [runCommand]
        · cases argsleft env v ds <;> rfl
        · exact hversion
    have hfinish : ∀ w, finish w (some k) = noSyslog w := by
      intro w
      cases k
      case version => exact absurd rfl hversion
      all_goals rfl
    rw [hrun, hfinish]
    have hiff := argsleft_iff env hds v
    constructor
    · intro h
      cases hargs : argsleft env v ds with
      | error stop =>
        rw [hargs] at h
        cases h
      | ok w =>
        rw [hargs] at h
        obtain ⟨rfl, rfl⟩ := Prod.mk.inj (Except.ok.inj h)
        obtain ⟨haccepts, hcommand, rfl⟩ := (hiff w).mp hargs
        exact ⟨rfl, haccepts, hcommand, fun h => absurd h hversion, rfl⟩
    · rintro ⟨rfl, haccepts, hcommand, -, rfl⟩
      rw [(hiff _).mpr ⟨haccepts, hcommand, rfl⟩]
      rfl

/-- An option in front of the others that is no command. -/
theorem commandIs_cons_none (h : g.command = none) (gs : List Given) (cmd : Option Command) :
    CommandIs (g :: gs) cmd ↔ CommandIs gs cmd := by
  unfold CommandIs
  rw [List.filterMap_cons_none h]
  refine and_congr_right fun hcommands => forall_congr' fun hversion => ?_
  cases gs with
  | nil =>
    rw [hversion] at hcommands
    cases hcommands
  | cons g' gs => rw [List.getLast?_cons_cons]

/-- A command in front of the others. -/
theorem commandIs_cons_some {k : Command} (h : g.command = some k) (gs : List Given)
    (cmd : Option Command) :
    CommandIs (g :: gs) cmd ↔
      cmd = some k ∧ gs.filterMap Given.command = [] ∧ (k = .version → gs = []) := by
  unfold CommandIs
  rw [List.filterMap_cons_some h]
  constructor
  · rintro ⟨hcommands, hlast⟩
    cases cmd with
    | none => cases hcommands
    | some k' =>
      obtain ⟨rfl, hnil⟩ := List.cons_eq_cons.mp hcommands
      refine ⟨rfl, hnil, fun hversion => ?_⟩
      subst hversion
      -- The last option would be a command as well.
      by_contra hne
      have hmem := List.getLast_mem hne
      have hcommand := hlast rfl
      rw [List.getLast?_cons, List.getLast?_eq_some_getLast hne, Option.getD_some,
        Option.bind_some] at hcommand
      exact Option.some_ne_none _ (hcommand.symm.trans (List.filterMap_eq_nil_iff.mp hnil _ hmem))
  · rintro ⟨rfl, hnil, hversion⟩
    refine ⟨by rw [hnil]; rfl, fun hk => ?_⟩
    obtain rfl := Option.some.inj hk
    rw [hversion rfl]
    exact h

/-- The loop of `main`. -/
theorem mainLoop_iff (env : StartEnv) (hds : ∀ d ∈ ds, d.option ∈ options) (v v' : Vars)
    (cmd : Option Command) :
    mainLoop env v ds = .ok (v', cmd) ↔
      (∀ g ∈ lineGiven ds, Accepts env g = true) ∧ CommandIs (lineGiven ds) cmd ∧
      v' = finish ((lineGiven ds).foldl (effect env) v) cmd := by
  induction ds generalizing v with
  | nil =>
    constructor
    · intro h
      obtain ⟨rfl, rfl⟩ := Prod.mk.inj (Except.ok.inj h)
      exact ⟨fun g hg => absurd hg List.not_mem_nil, ⟨rfl, fun h => by cases h⟩, rfl⟩
    · rintro ⟨-, ⟨hcommand, -⟩, rfl⟩
      cases cmd with
      | none => rfl
      | some k => cases hcommand
  | cons d ds ih =>
    have hds' : ∀ d' ∈ ds, d'.option ∈ options := fun d' hd' => hds d' (List.mem_cons_of_mem _ hd')
    obtain ⟨g, hgiven, hdeliver, hhandled, hcmd⟩ := deliver_eq (hds d List.mem_cons_self)
    rw [mainLoop, hdeliver, lineGiven_cons, hgiven, List.singleton_append, List.forall_mem_cons,
      List.foldl_cons]
    cases haccepts : Accepts env g with
    | false =>
      obtain ⟨stop, hstop⟩ := apply_of_not_accepts haccepts v
      rw [hstop]
      exact iff_of_false (fun h => by cases h) fun h => Bool.false_ne_true h.1.1
    | true =>
      rw [apply_of_accepts haccepts]
      cases hcommand : g.command with
      | none =>
        rw [hcommand] at hhandled
        rw [hhandled, commandIs_cons_none hcommand]
        show mainLoop env (effect env v g) ds = _ ↔ _
        rw [ih hds']
        exact ⟨fun ⟨h, h'⟩ => ⟨⟨rfl, h⟩, h'⟩, fun ⟨⟨_, h⟩, h'⟩ => ⟨h, h'⟩⟩
      | some k =>
        rw [hcommand] at hhandled
        have hsame : effect env v g = v := effect_of_not_handled hhandled v
        rw [hhandled, if_neg (by simp), commandIs_cons_some hcommand, hcmd hhandled, hcommand,
          hsame]
        show runCommand env v ds k = _ ↔ _
        rw [runCommand_iff env hds']
        constructor
        · rintro ⟨rfl, haccepts', hnone, hversion, rfl⟩
          exact ⟨⟨rfl, haccepts'⟩, ⟨rfl, hnone, hversion⟩, rfl⟩
        · rintro ⟨⟨-, haccepts'⟩, ⟨rfl, hnone, hversion⟩, rfl⟩
          exact ⟨rfl, haccepts', hnone, hversion, rfl⟩

/-! ## The start -/

/-- The options that `getopt_long` delivers are in the table. -/
theorem option_mem_of_parses {i : ℕ} {args : List (List Char)} (h : Parses options i args ds) :
    ∀ d ∈ ds, d.option ∈ options := by
  induction h with
  | nil i => exact fun d hd => absurd hd List.not_mem_nil
  | operand hop hrest ih => exact ih
  | stop i rest => exact fun d hd => absurd hd List.not_mem_nil
  | flag hspells hno harg hrest ih | inline hspells hno harg hrest ih
  | separate hspells hno harg hrest ih =>
    intro d hd
    rcases List.mem_cons.mp hd with rfl | hd
    · exact mem_of_findLongOption hspells.found
    · exact ih d hd

theorem expected_nil (env : StartEnv) : expected env [] = {} := rfl

/-- The start for options of the table. -/
theorem startup_iff_accepted (env : StartEnv) (c : Option Config)
    (hds : ∀ d ∈ ds, d.option ∈ options) (v : Vars) (cmd : Option Command) :
    startup env c ds = .ok (v, cmd) ↔
      Accepted env c ds cmd ∧ v = finish (expected env (allGiven c ds)) cmd := by
  have hmain := mainLoop_iff env hds
  cases c with
  | none =>
    show mainLoop env {} ds = _ ↔ _
    have hexpected : ∀ h : ∀ g ∈ lineGiven ds, Accepts env g = true,
        expected env (allGiven none ds) = (lineGiven ds).foldl (effect env) {} := by
      intro h
      show expected env ([] ++ lineGiven ds) = _
      rw [expected_append env [] _ h, expected_nil]
    rw [hmain]
    constructor
    · rintro ⟨haccepts, hcommand, rfl⟩
      refine ⟨⟨fun c' hc' => absurd hc' (Option.not_mem_none c'), haccepts, hcommand⟩, ?_⟩
      rw [hexpected haccepts]
    · rintro ⟨⟨-, haccepts, hcommand⟩, rfl⟩
      rw [hexpected haccepts]
      exact ⟨haccepts, hcommand, rfl⟩
  | some c =>
    have hexpected : ∀ (_ : ∀ g ∈ configGiven c options, Accepts env g = true)
        (_ : ∀ g ∈ lineGiven ds, Accepts env g = true),
        expected env (allGiven (some c) ds) =
          (lineGiven ds).foldl (effect env) ((configGiven c options).foldl (effect env) {}) := by
      intro h h'
      show expected env (configGiven c options ++ lineGiven ds) = _
      rw [expected_append env _ _ h', ← List.nil_append (configGiven c options),
        expected_append env [] _ h, expected_nil]
      rfl
    have hconfig := configOptions_iff env c (fun o ho => ho : ∀ o ∈ options, o ∈ options) {}
    constructor
    · intro h
      unfold startup at h
      dsimp only at h
      cases hrun : configOptions env c {} options with
      | error stop =>
        rw [hrun] at h
        cases h
      | ok w =>
        rw [hrun] at h
        obtain ⟨hbools, haccepts, rfl⟩ := (hconfig w).mp hrun
        obtain ⟨haccepts', hcommand, rfl⟩ := (hmain _ v cmd).mp h
        refine ⟨⟨fun c' hc' => ?_, fun g hg => ?_, hcommand⟩, ?_⟩
        · obtain rfl := Option.some.inj hc'
          exact hbools
        · exact (List.mem_append.mp hg).elim (haccepts g) (haccepts' g)
        · rw [hexpected haccepts haccepts']
    · rintro ⟨⟨hbools, haccepts, hcommand⟩, rfl⟩
      have hfile : ∀ g ∈ configGiven c options, Accepts env g = true := fun g hg =>
        haccepts g (List.mem_append_left _ hg)
      have hline : ∀ g ∈ lineGiven ds, Accepts env g = true := fun g hg =>
        haccepts g (List.mem_append_right _ hg)
      unfold startup
      dsimp only
      rw [(hconfig _).mpr ⟨hbools c rfl, hfile, rfl⟩, hexpected hfile hline]
      exact (hmain _ _ cmd).mpr ⟨hline, hcommand, rfl⟩

/-- **The options of a start.** For every config file and every command line that `getopt_long`
    accepts, the options are accepted exactly if every one of them is, and there is one command
    at most. Then every variable has the value that its own last option gives it, where the
    options of the command line come after those of the config file and override them. Only the
    syslog options override each other, `--foreground` and `--daemon` in any order. -/
theorem startup_iff (env : StartEnv) (c : Option Config) (args : List (List Char))
    (ds : List (Delivered OptionFlag)) (hargs : getoptLong options 0 args = some ds) (v : Vars)
    (cmd : Option Command) :
    startup env c ds = .ok (v, cmd) ↔
      Accepted env c ds cmd ∧ v = finish (expected env (allGiven c ds)) cmd :=
  startup_iff_accepted env c (option_mem_of_parses (parses_of_getoptLong hargs)) v cmd

/-- A config file without syslog, with a log file. -/
def quietFile : List Char := "no-syslog = yes\nlogfile = /tmp/a\nfilter = no\n".toList

/-- The store of this file. -/
def quietConfig : Config := ((parseConfigFile quietFile).toOption).getD {}

/-- A start in the root directory. -/
def rootEnv : StartEnv := { getcwd := some [], scansDouble := fun _ => false }

/-- The command line replaces the log file, `--daemon` leaves syslog off, and `filter = no` does
    not switch the filter off. -/
theorem startup_iff_override :
    ∃ ds v, getoptLong options 0 (argv ["--daemon", "--logfile=/tmp/b"]) = some ds ∧
      startup rootEnv (some quietConfig) ds = .ok (v, none) ∧
      v.logfile = some "/tmp/b".toList ∧ v.syslogOpt = { force := true } ∧
      v.daemonMode = true ∧ v.filterBogus = true := by
  refine ⟨_, _, rfl, (startup_iff rootEnv (some quietConfig)
    (argv ["--daemon", "--logfile=/tmp/b"]) _ rfl _ none).mpr ⟨⟨fun c' hc' => ?_, ?_, ?_⟩, rfl⟩,
    by decide +kernel, by decide +kernel, by decide +kernel, by decide +kernel⟩
  · obtain rfl := Option.some.inj hc'
    decide +kernel
  · decide +kernel
  · exact ⟨by decide +kernel, fun h => by cases h⟩

end Mcelog.Daemon
