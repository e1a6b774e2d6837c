import Cpm.Base.Jansson
import Cpm.Lib.Numerals

/-! The settings of `argparse.c`: a file, then the environment, then the options, of which the last
one wins. `getopt_long` is seen as the list of the options that it finds. -/
namespace Cpm

open Lib

def NEU_RESTART_NEVER : ℕ := 0
def NEU_RESTART_ALWAYS : ℕ := 2 ^ 64 - 2
def NEU_RESTART_ONFAILURE : ℕ := 2 ^ 64 - 1

structure NeuCliArgs where
  daemonized : Bool
  devLog : Bool
  restart : ℕ
  disableAuth : Bool
  logInitFile : Option CStr
  configDir : Option CStr
  pluginDir : Option CStr
  stop : Bool
  ip : Option CStr
  port : Int
  deriving DecidableEq

/-- The entries of `long_options`, and what `getopt_long` does not know. -/
inductive CliOption where
  | help
  | daemon
  | log
  | logLevel (level : CStr)
  | resetPassword
  | restart (policy : CStr)
  | version
  | disableAuth
  | configFile (path : CStr)
  | configDir (dir : CStr)
  | pluginDir (dir : CStr)
  | stop
  | unknown
  deriving DecidableEq

inductive ZlogLevel where
  | debug
  | notice
  deriving DecidableEq, Repr

structure CliWorld where
  fileExists : CStr → Bool
  contents : CStr → Option (List Char)
  getenv : String → Option CStr

/-- `exit(ret)`, a crash, or the return with `default_log_level`. -/
inductive CliEnd where
  | exit (ret : ℕ)
  | crashed
  | starts (args : NeuCliArgs) (level : ZlogLevel)
  deriving DecidableEq

/- Restart policies. -/

/-- The base that `strtoumax` finds, and what stands behind its prefix. -/
def numeralBase : List Char → ℕ × List Char
  | '0' :: x :: digit :: rest =>
    if (x = 'x' ∨ x = 'X') ∧ digit.isHexDigit then (16, digit :: rest) else (8, '0' :: x :: digit :: rest)
  | '0' :: rest => (8, '0' :: rest)
  | text => (10, text)

def digitValue (c : Char) : ℕ :=
  if c.isDigit then c.toNat - '0'.toNat else c.toLower.toNat - 'a'.toNat + 10

def isDigitOf (base : ℕ) (c : Char) : Bool := c.isHexDigit && decide (digitValue c < base)

/-- `strtoumax` with base 0, where the whole text has to be the number. -/
def wholeNumber (text : List Char) : Option ℕ :=
  let unsigned := CStr.splitSign (text.dropWhile CStr.isspace)
  let numeral := numeralBase unsigned.2
  let value := numeral.2.foldl (fun n c => n * numeral.1 + digitValue c) 0
  if numeral.2 = [] ∨ !numeral.2.all (isDigitOf numeral.1) ∨ 2 ^ 64 ≤ value then none
  else some (CStr.negated unsigned.1 value)

def parseRestartPolicy (s : CStr) : Option ℕ :=
  if s = .lit "always" then some NEU_RESTART_ALWAYS
  else if s = .lit "never" then some NEU_RESTART_NEVER
  else if s = .lit "on-failure" then some NEU_RESTART_ONFAILURE
  else (wholeNumber s.chars).filter fun n => n ≤ NEU_RESTART_ALWAYS

/- The file. -/

def CliOption.configFile? : CliOption → Option CStr
  | configFile path => some path
  | _ => none

/-- `resolve_config_file_path`, with the default of `load_config_file`. -/
def configFilePath (options : List CliOption) : CStr :=
  (options.findSome? CliOption.configFile?).getD (.lit "./config/neuron.json")

section
variable (j : Jansson) (casts : CastOps) (w : CliWorld)

/-- At most 511 bytes are read. -/
def configJson (path : CStr) : Option Json := do
  let bytes ← w.contents path
  if bytes = [] then none else j.loads (.read (bytes.take 511))

def loadConfigFile (options : List CliOption) (args : NeuCliArgs) : Except CliEnd NeuCliArgs :=
  let path := configFilePath options
  if !w.fileExists path then .error (.exit 1)
  else
    match configJson j w path with
    | none => .error (.exit 1)
    | some root =>
      match neuJsonDecodeByJson casts (some root)
        [required "disable_auth" .int, required "ip" .str, required "port" .int] with
      | .error .crashed => .error .crashed
      | .ok [some (.int auth), some (.str ip), some (.int port)] =>
        if auth ≠ 0 ∧ auth ≠ 1 then .error (.exit 1)
        else if 0 < port then
          .ok { args with disableAuth := auth = 1, ip := some ip, port := port.bmod (2 ^ 32) }
        else .error (.exit 1)
      | _ => .error (.exit 1)

/- The environment. -/

structure CliState where
  args : NeuCliArgs
  logLevel : Option CStr
  configDir : Option CStr
  pluginDir : Option CStr
  resetPassword : Bool
  deriving DecidableEq

def flagText (text : CStr) : Option Bool :=
  if text = .lit "1" then some true else if text = .lit "0" then some false else none

/-- A variable that is set has to have a meaning. -/
def readEnv {α : Type} (name : String) (parse : CStr → Option α) (before : α) : Option α :=
  match w.getenv name with
  | none => some before
  | some text => parse text

def loadEnv (s : CliState) : Option CliState := do
  let daemonized ← readEnv w "NEURON_DAEMON" flagText s.args.daemonized
  let devLog ← readEnv w "NEURON_LOG" flagText s.args.devLog
  let logLevel := (w.getenv "NEURON_LOG_LEVEL").or s.logLevel
  let restart ← readEnv w "NEURON_RESTART" parseRestartPolicy s.args.restart
  let disableAuth ← readEnv w "NEURON_DISABLE_AUTH" flagText s.args.disableAuth
  return { s with
    args := { s.args with daemonized, devLog, restart, disableAuth }
    logLevel
    configDir := (w.getenv "NEURON_CONFIG_DIR").or s.configDir
    pluginDir := (w.getenv "NEURON_PLUGIN_DIR").or s.pluginDir }

/- The options. -/

/-- One round of the loop. The error is the code to exit with. -/
def takeOption (s : CliState) : CliOption → Except ℕ CliState
  | .help => .error 0
  | .daemon => .ok { s with args := { s.args with daemonized := true } }
  | .log => .ok { s with args := { s.args with devLog := true } }
  | .logLevel level => .ok { s with logLevel := some level }
  | .resetPassword => .ok { s with resetPassword := true }
  | .restart policy =>
    match parseRestartPolicy policy with
    | some restart => .ok { s with args := { s.args with restart } }
    | none => .error 1
  | .version => .error 0
  | .disableAuth => .ok { s with args := { s.args with disableAuth := true } }
  | .configFile _ => .ok s
  | .configDir dir => .ok { s with configDir := some dir }
  | .pluginDir dir => .ok { s with pluginDir := some dir }
  -- The switch has no case for `--stop`.
  | .stop => .error 1
  | .unknown => .error 1

def logInitFile (configDir : CStr) (devLog : Bool) : CStr :=
  (configDir.append (.lit "/")).append (.lit (if devLog then "dev.conf" else "zlog.conf"))

/-- What follows the loop. Resetting the password does nothing, and the program ends. -/
def finishArgs (s : CliState) : CliEnd :=
  let restart :=
    if !s.args.daemonized && s.args.restart != NEU_RESTART_NEVER then NEU_RESTART_NEVER
    else s.args.restart
  let configDir := s.configDir.getD (.lit "./config")
  let pluginDir := s.pluginDir.getD (.lit "./plugins")
  let log := logInitFile configDir s.args.devLog
  if !w.fileExists configDir then .exit 1
  else if !w.fileExists pluginDir then .exit 1
  else if !w.fileExists log then .exit 1
  else if s.resetPassword then .exit 0
  else
    .starts { s.args with
      restart, configDir := some configDir, pluginDir := some pluginDir, logInitFile := some log }
      (if s.logLevel = some (.lit "NOTICE") then .notice else .debug)

/-- `memset`, and `load_spec_arg` of `argv[1]`. -/
def blankArgs (firstArgument : Option CStr) : NeuCliArgs :=
  ⟨false, false, NEU_RESTART_NEVER, false, none, none, none, firstArgument = some (.lit "stop"),
    none, 0⟩

def neuCliArgsInit (firstArgument : Option CStr) (options : List CliOption) : CliEnd :=
  match loadConfigFile j casts w options (blankArgs firstArgument) with
  | .error ended => ended
  | .ok args =>
    match loadEnv w ⟨args, none, none, none, false⟩ with
    | none => .exit 1
    | some s =>
      match options.foldlM takeOption s with
      | .error ret => .exit ret
      | .ok s => finishArgs w s

end

/- What each of the three sources says. -/

namespace CliOption

def daemon? : CliOption → Option Bool
  | daemon => some true
  | _ => none

def log? : CliOption → Option Bool
  | log => some true
  | _ => none

def disableAuth? : CliOption → Option Bool
  | disableAuth => some true
  | _ => none

def restart? : CliOption → Option ℕ
  | restart policy => parseRestartPolicy policy
  | _ => none

def logLevel? : CliOption → Option CStr
  | logLevel level => some level
  | _ => none

def configDir? : CliOption → Option CStr
  | configDir dir => some dir
  | _ => none

def pluginDir? : CliOption → Option CStr
  | pluginDir dir => some dir
  | _ => none

def ends : CliOption → Option ℕ
  | help | version => some 0
  | stop | unknown => some 1
  | restart policy => if (parseRestartPolicy policy).isNone then some 1 else none
  | _ => none

end CliOption

def lastOf {α : Type} (reads : CliOption → Option α) (options : List CliOption) : Option α :=
  (options.filterMap reads).getLast?

def envOf {α : Type} (w : CliWorld) (name : String) (parse : CStr → Option α) : Option α :=
  (w.getenv name).bind parse

def envMeans {α : Type} (w : CliWorld) (name : String) (parse : CStr → Option α) : Bool :=
  (w.getenv name).all fun text => (parse text).isSome

def envValid (w : CliWorld) : Bool :=
  envMeans w "NEURON_DAEMON" flagText && envMeans w "NEURON_LOG" flagText &&
    envMeans w "NEURON_RESTART" parseRestartPolicy && envMeans w "NEURON_DISABLE_AUTH" flagText

/-- The last option that says something, else the environment, else the default. -/
def settledText (w : CliWorld) (options : List CliOption) (reads : CliOption → Option CStr)
    (name : String) : Option CStr :=
  (lastOf reads options).or (w.getenv name)

def settledFlag (w : CliWorld) (options : List CliOption) (reads : CliOption → Option Bool)
    (name : String) (file : Bool) : Bool :=
  ((lastOf reads options).or (envOf w name flagText)).getD file

def settledArgs (w : CliWorld) (options : List CliOption) (file : NeuCliArgs) : NeuCliArgs :=
  let daemonized := settledFlag w options CliOption.daemon? "NEURON_DAEMON" file.daemonized
  let devLog := settledFlag w options CliOption.log? "NEURON_LOG" file.devLog
  let configDir :=
    (settledText w options CliOption.configDir? "NEURON_CONFIG_DIR").getD (.lit "./config")
  { file with
    daemonized
    devLog
    restart :=
      if daemonized then
        ((lastOf CliOption.restart? options).or (envOf w "NEURON_RESTART" parseRestartPolicy)).getD
          file.restart
      else NEU_RESTART_NEVER
    disableAuth :=
      settledFlag w options CliOption.disableAuth? "NEURON_DISABLE_AUTH" file.disableAuth
    configDir := some configDir
    pluginDir :=
      some ((settledText w options CliOption.pluginDir? "NEURON_PLUGIN_DIR").getD (.lit "./plugins"))
    logInitFile := some (logInitFile configDir devLog) }

/-- Of the directories and the file for the log none may be missing. -/
def settledStart (w : CliWorld) (options : List CliOption) (file : NeuCliArgs) : CliEnd :=
  let args := settledArgs w options file
  if !(args.configDir.all w.fileExists && args.pluginDir.all w.fileExists &&
      args.logInitFile.all w.fileExists) then .exit 1
  else if options.contains .resetPassword then .exit 0
  else
    .starts args (if settledText w options CliOption.logLevel? "NEURON_LOG_LEVEL" =
      some (.lit "NOTICE") then .notice else .debug)

/-- The first option that ends the program does. -/
def settledEnd (w : CliWorld) (options : List CliOption) (file : NeuCliArgs) : CliEnd :=
  if envValid w then
    (options.findSome? CliOption.ends).elim (settledStart w options file) .exit
  else .exit 1

/- The environment. -/

section
variable {w : CliWorld}

theorem readEnv_eq {α : Type} (name : String) (parse : CStr → Option α) (before : α) :
    readEnv w name parse before =
      if envMeans w name parse then some ((envOf w name parse).getD before) else none := by
  rw [readEnv, envMeans, envOf]
  cases w.getenv name with
  | none => rfl
  | some text =>
    rw [Option.all_some, Option.bind_some]
    change parse text = _
    cases parse text <;> rfl

def underEnv (w : CliWorld) (s : CliState) : CliState :=
  { s with
    args := { s.args with
      daemonized := (envOf w "NEURON_DAEMON" flagText).getD s.args.daemonized
      devLog := (envOf w "NEURON_LOG" flagText).getD s.args.devLog
      restart := (envOf w "NEURON_RESTART" parseRestartPolicy).getD s.args.restart
      disableAuth := (envOf w "NEURON_DISABLE_AUTH" flagText).getD s.args.disableAuth }
    logLevel := (w.getenv "NEURON_LOG_LEVEL").or s.logLevel
    configDir := (w.getenv "NEURON_CONFIG_DIR").or s.configDir
    pluginDir := (w.getenv "NEURON_PLUGIN_DIR").or s.pluginDir }

theorem loadEnv_eq (s : CliState) :
    loadEnv w s = if envValid w then some (underEnv w s) else none := by
  rw [loadEnv, readEnv_eq, readEnv_eq, readEnv_eq, readEnv_eq, envValid]
  cases envMeans w "NEURON_DAEMON" flagText <;> cases envMeans w "NEURON_LOG" flagText <;>
    cases envMeans w "NEURON_RESTART" parseRestartPolicy <;>
      cases envMeans w "NEURON_DISABLE_AUTH" flagText <;> rfl

end

/- The options. -/

theorem lastOf_cons {α : Type} (reads : CliOption → Option α) (o : CliOption)
    (rest : List CliOption) : lastOf reads (o :: rest) = (lastOf reads rest).or (reads o) := by
  rw [lastOf, lastOf, List.filterMap_cons]
  cases reads o with
  | none => exact Option.or_none.symm
  | some value =>
    dsimp only
    rw [List.getLast?_cons]
    cases (rest.filterMap reads).getLast? <;> rfl

def underOptions (options : List CliOption) (s : CliState) : CliState where
  args := { s.args with
    daemonized := (lastOf CliOption.daemon? options).getD s.args.daemonized
    devLog := (lastOf CliOption.log? options).getD s.args.devLog
    restart := (lastOf CliOption.restart? options).getD s.args.restart
    disableAuth := (lastOf CliOption.disableAuth? options).getD s.args.disableAuth }
  logLevel := (lastOf CliOption.logLevel? options).or s.logLevel
  configDir := (lastOf CliOption.configDir? options).or s.configDir
  pluginDir := (lastOf CliOption.pluginDir? options).or s.pluginDir
  resetPassword := s.resetPassword || options.contains .resetPassword

theorem takeOption_eq (o : CliOption) (s : CliState) :
    takeOption s o = o.ends.elim (.ok (underOptions [o] s)) .error := by
  have same (policy : CStr) : lastOf CliOption.restart? [.restart policy] =
      parseRestartPolicy policy := by
    rw [lastOf_cons]
    exact Option.none_or
  obtain ⟨args, level, config, plugin, reset⟩ := s
  cases o with
  | restart policy =>
    rw [takeOption, CliOption.ends, underOptions, same]
    cases parseRestartPolicy policy <;> cases reset <;> rfl
  | _ => cases reset <;> rfl

theorem underOptions_cons (o : CliOption) (rest : List CliOption) (s : CliState) :
    underOptions (o :: rest) s = underOptions rest (underOptions [o] s) := by
  have single {α : Type} (reads : CliOption → Option α) : lastOf reads [o] = reads o := by
    rw [lastOf_cons]
    exact Option.none_or
  simp only [underOptions, lastOf_cons _ o rest, single, Option.getD_or, Option.or_assoc,
    List.contains_cons, List.contains_nil, Bool.or_false, Bool.or_assoc]

theorem takeOptions_eq (options : List CliOption) (s : CliState) :
    options.foldlM takeOption s =
      (options.findSome? CliOption.ends).elim (.ok (underOptions options s)) .error := by
  induction options generalizing s with
  | nil =>
    obtain ⟨args, level, config, plugin, reset⟩ := s
    cases reset <;> rfl
  | cons o rest ih =>
    rw [List.foldlM_cons, takeOption_eq, List.findSome?_cons]
    cases o.ends with
    | some ret => rfl
    | none =>
      rw [underOptions_cons o rest]
      exact ih _

theorem restart_settled (daemonized : Bool) (restart : ℕ) :
    (if !daemonized && restart != NEU_RESTART_NEVER then NEU_RESTART_NEVER else restart) =
      if daemonized then restart else NEU_RESTART_NEVER := by
  cases daemonized with
  | true => rfl
  | false =>
    by_cases never : restart = NEU_RESTART_NEVER
    · simp [never]
    · simp [never]

theorem exit_unless (a b c : Bool) (ended further : CliEnd) :
    (if !a then ended else if !b then ended else if !c then ended else further) =
      if !(a && b && c) then ended else further := by
  cases a <;> cases b <;> cases c <;> rfl

theorem finishArgs_settled (w : CliWorld) (options : List CliOption) (file : NeuCliArgs) :
    finishArgs w (underOptions options (underEnv w ⟨file, none, none, none, false⟩)) =
      settledStart w options file := by
  simp only [finishArgs, underOptions, underEnv, settledStart, settledArgs, settledText, settledFlag,
    Option.getD_or, Option.or_none, Option.all_some, Bool.false_or, restart_settled, exit_unless]
  rfl

theorem cli_precedence (j : Jansson) (casts : CastOps) (w : CliWorld) (firstArgument : Option CStr)
    (options : List CliOption) :
    neuCliArgsInit j casts w firstArgument options =
      match loadConfigFile j casts w options (blankArgs firstArgument) with
      | .error ended => ended
      | .ok file => settledEnd w options file := by
  rw [neuCliArgsInit]
  cases loadConfigFile j casts w options (blankArgs firstArgument) with
  | error ended => rfl
  | ok file =>
    dsimp only
    rw [loadEnv_eq, settledEnd]
    cases envValid w with
    | false => rfl
    | true =>
      rw [if_pos rfl, if_pos rfl]
      dsimp only
      rw [takeOptions_eq, ← finishArgs_settled]
      cases options.findSome? CliOption.ends <;> rfl

end Cpm
