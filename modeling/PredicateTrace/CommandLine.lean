import PredicateTrace.Assertion
import PredicateTrace.Predicate
import PredicateTrace.Settings

/-!
# The command line

Four commands on a predicate that is given as an argument: `check` asserts it, `explain` reports on its
evaluation, `decompile` writes it anew from its ops and `lower` writes the ops down. Values of variables
are given in YAML.
-/

namespace PredicateTrace

open Host (Heap Run)

namespace CommandLine

/-- The version of the program. -/
def version : String := "0.1.0"

/-- What can be done with a predicate. -/
inductive Command
  | check | explain | decompile | lower
  deriving DecidableEq, Repr

def Command.name : Command → String
  | .check => "check"
  | .explain => "explain"
  | .decompile => "decompile"
  | .lower => "lower"

def commands : List Command :=
  [.check, .explain, .decompile, .lower]

/-- Options. -/
inductive Flag
  | var | config | verbose | version | help
  deriving DecidableEq, Repr

/-- Whether an option is followed by a value. -/
def Flag.takesValue : Flag → Bool
  | .var | .config => true
  | .verbose | .version | .help => false

/-- The options that a command line knows: by long name, and by letter. -/
structure Options where
  long : List (String × Flag)
  short : List (Char × Flag)

/-- The options in front of a command. -/
def Options.general : Options :=
  ⟨[("--version", .version), ("--help", .help)], []⟩

/-- The options of a command. -/
def Options.command : Options :=
  ⟨[("--var", .var), ("--config", .config), ("--verbose", .verbose), ("--help", .help)],
    [('v', .verbose)]⟩

/-- What is wrong with a command line. -/
inductive UsageError
  | missingCommand
  | unknownCommand (name : String)
  | unknownOption (name : String)
  | missingValue (name : String)
  | unexpectedValue (name : String)
  | missingExpression
  | extraArgument (argument : String)
  | invalidVariable (written : String)

def UsageError.message : UsageError → String
  | .missingCommand => "missing command"
  | .unknownCommand name => "no such command: " ++ name
  | .unknownOption name => "no such option: " ++ name
  | .missingValue name => "option needs a value: " ++ name
  | .unexpectedValue name => "option takes no value: " ++ name
  | .missingExpression => "missing expression"
  | .extraArgument argument => "unexpected argument: " ++ argument
  | .invalidVariable written => "not a variable with a value: " ++ written

/-- The options and the other arguments of a command line, in order. -/
structure Arguments where
  options : List (Flag × String)
  plain : List String

/-- The arguments with an option in front. -/
def Arguments.withOption (flag : Flag) (v : String) (arguments : Arguments) : Arguments :=
  { arguments with options := (flag, v) :: arguments.options }

/-- An argument that is an option: its name, and the value after an equals sign if there is one. -/
def splitOption (argument : String) : String × Option String :=
  match argument.toList.span (· ≠ '=') with
  | (name, '=' :: v) => (String.ofList name, some (String.ofList v))
  | _ => (argument, none)

/-- The options that the letters of an argument stand for. -/
def letters (options : Options) (argument : String) : Except UsageError (List Flag) :=
  argument.toList.tail.mapM fun c =>
    match options.short.lookup c with
    | some flag => .ok flag
    | none => .error (.unknownOption argument)

/-- Whether an argument is written like an option. -/
def isOptionLike (argument : String) : Bool :=
  argument.startsWith "-" && argument ≠ "-"

/-- Separates the options from the other arguments. After two dashes there are no more options; unless
options may be mixed with other arguments, the first other argument ends them as well. -/
def separate (options : Options) (mixed : Bool) : List String → Except UsageError Arguments
  | [] => .ok ⟨[], []⟩
  | argument :: rest =>
    if argument = "--" then .ok ⟨[], rest⟩
    else if !isOptionLike argument then
      if mixed then
        (separate options mixed rest).map fun others =>
          { others with plain := argument :: others.plain }
      else .ok ⟨[], argument :: rest⟩
    else
      let (name, v) := splitOption argument
      match options.long.lookup name, v, rest with
      | some flag, some v, rest =>
        if flag.takesValue then (separate options mixed rest).map (Arguments.withOption flag v)
        else .error (.unexpectedValue name)
      | some flag, none, [] =>
        if flag.takesValue then .error (.missingValue name) else .ok ⟨[(flag, "")], []⟩
      | some flag, none, next :: others =>
        if flag.takesValue then (separate options mixed others).map (Arguments.withOption flag next)
        else (separate options mixed (next :: others)).map (Arguments.withOption flag "")
      | none, _, rest =>
        if argument.startsWith "--" then .error (.unknownOption name)
        else do
          let flags ← letters options argument
          let others ← separate options mixed rest
          return { others with options := flags.map (fun flag => (flag, "")) ++ others.options }

/-- What a command line asks for. -/
inductive Request
  | version
  | help
  | run (command : Command) (expression : String) (given : List String) (config : Option String)

/-- The values that were given for an option. -/
def Arguments.valuesOf (arguments : Arguments) (flag : Flag) : List String :=
  arguments.options.filterMap fun (f, v) => if f = flag then some v else none

/-- The request that a command makes. -/
def commandRequest (command : Command) (arguments : List String) : Except UsageError Request := do
  let arguments ← separate .command true arguments
  if !(arguments.valuesOf .help).isEmpty then return .help
  match arguments.plain with
  | [] => throw .missingExpression
  | [expression] =>
    return .run command expression (arguments.valuesOf .var) (arguments.valuesOf .config).getLast?
  | _ :: extra :: _ => throw (.extraArgument extra)

/-- The request that a command line makes. -/
def request (arguments : List String) : Except UsageError Request := do
  let general ← separate .general false arguments
  match general.options, general.plain with
  | (.version, _) :: _, _ => return .version
  | (_, _) :: _, _ => return .help
  | [], [] => throw .missingCommand
  | [], name :: rest =>
    match commands.find? fun c => c.name = name with
    | some command => commandRequest command rest
    | none => throw (.unknownCommand name)

/-- What a run of the program leaves: its exit code and what it wrote. -/
structure Output where
  exit : Nat
  stdout : String
  stderr : String
  deriving DecidableEq, Repr

def Output.success (text : String) : Output := ⟨0, text, ""⟩
def Output.failure (text : String) : Output := ⟨1, "", text⟩

/-- A failure that is not reported. -/
def Output.crash : Output := .failure ""

mutual

/-- The form in which a given value is captured: a list is an array. -/
def capture : Value → Run Value
  | .list items => do
    let items ← captureAll items
    Host.arrayOf (Value.commonComponent items) items
  | v => return v

/-- The forms in which the items of a list are captured. -/
def captureAll : List Value → Run (List Value)
  | [] => return []
  | v :: rest => do
    let v ← capture v
    return v.box :: (← captureAll rest)

end

/-- The variable that an argument gives: a name, an equals sign and a value. -/
def variableOf (written : String) : Except UsageError (String × Value) :=
  match splitOption written with
  | (_, none) => .error (.invalidVariable written)
  | (name, some text) =>
    let name := String.ofList (Text.trim Text.isSpace name.toList)
    if name.isEmpty then .error (.invalidVariable written)
    else
      match Yaml.read text with
      | .ok v => .ok (name, v)
      | .error _ => .error (.invalidVariable written)

/-- Captures given variables; of two with one name the later one counts. -/
def captures (given : List (String × Value)) : Run (List (String × Capture)) :=
  given.reverse.mapM fun (name, v) => return (name, .value (← Run.identify (← capture v).box))

/-- The imports of some settings, then those of others. -/
def mergedImports (first others : Settings) : List (String × Import) :=
  (first.imports ++ others.imports).map fun (name, target) => (name, .name target)

/-- The source name of a predicate that is given as an argument. -/
def sourceName : String := "<expr>"

/-- The message of an evaluation that was stopped, if it is reported. -/
def abortOutput : Abort → Output
  | .unresolved message => .failure (message ++ "\n")
  | .missingTerminator => .crash

/-- Evaluates a predicate and says something about its trace. -/
def evaluated (q : Quoted) (heap : Heap) (budget : Nat)
    (output : Formatter → Trace → Except Host.FaultKind Output) : Output :=
  match q.evaluate heap with
  | (.error e, _) => abortOutput e
  | (.ok trace, progress) =>
    match output (progress.heap.formatter budget) trace with
    | .ok result => result
    | .error _ => .crash

/-- Carries out a command on a predicate. -/
def carryOut (command : Command) (q : Quoted) (heap : Heap) (budget : Nat) : Output :=
  match command with
  | .check => evaluated q heap budget fun f trace =>
    (Verdict.ofTrace f none none trace).map fun
      | .holds => .success "OK\n"
      | .fails text => .failure text
  | .explain => evaluated q heap budget fun f trace => (trace.report f).map .success
  | .decompile =>
    let source := q.returned?.bind (Operand.source? (heap.formatter budget))
    (source.map fun text => Output.success (text ++ "\n")).getD .crash
  | .lower =>
    ((q.document? heap).map fun document => Output.success (document.render ++ "\n")).getD .crash

/-- The outcome of settings that cannot be used; an error in the form of the file is not reported. -/
def settingsOutput (e : SettingsError) : Output :=
  match e.error with
  | .keyKind | .directory => .crash
  | _ => .failure (e.message ++ "\n")

/-- Runs a command with given variables. -/
def runWith (configuration : Configuration) (settings : Settings) (command : Command)
    (expression : String) (given : List (String × Value)) : Output :=
  match configuration.settings with
  | (.error e, _) => settingsOutput e
  | (.ok inUse, _) =>
    match ((captures given).run).run .empty with
    | (.error _, _) => .crash
    | (.ok locals, heap) =>
      let scope := ⟨locals, none, ⟨mergedImports settings inUse⟩⟩
      match quote scope heap expression with
      | .error e => .failure (((e.message? (some sourceName)).map (· ++ "\n")).getD "")
      | .ok q => carryOut command q heap settings.budget

/-- What a command line does. -/
def run (configuration : Configuration) (arguments : List String) : Except UsageError Output := do
  match ← request arguments with
  | .version => return .success (version ++ "\n")
  | .help => return .success "check | explain | decompile | lower\n"
  | .run command expression given config =>
    match configuration.load config with
    | .error e => return settingsOutput e
    | .ok settings =>
      let given ← given.mapM variableOf
      return runWith configuration settings command expression given

end CommandLine

end PredicateTrace
