import Typeahead.Text.Number
import Typeahead.Text.Quoted

/-!
# Options of the command line

- **Options** (`Options`): each may be given once. A value follows as the next argument, or after an
  equals sign; as the next argument it does not begin with a hyphen, unless it is nothing else.
- **Invocations** (`Invocation`): run, or only tell about the program. The arguments are read from
  the left, and the first that is wrong or asks for something else decides.
-/

namespace Typeahead.Console

/-- What the arguments choose. -/
structure Options where
  grammar : Option String := none
  suggestions : Option String := none
  config : Option String := none
  delay : Option Nat := none
  logLevel : Option String := none
  noColor : Bool := false
  logFile : Bool := false
  deriving Repr, DecidableEq

/-- Why the arguments cannot be read. -/
inductive UsageError where
  | unexpected (argument : String)
  | missing (option : String)
  | repeated (option : String)
  | noValue (option : String)
  | invalid (option value : String)
  deriving Repr, DecidableEq

/-- The wording of an error. -/
def UsageError.message : UsageError → String
  | .unexpected a => "unexpected argument " ++ Text.quoted a ++ " found"
  | .missing o => "a value is required for " ++ Text.quoted o
  | .repeated o => "the argument " ++ Text.quoted o ++ " cannot be used multiple times"
  | .noValue o => "the argument " ++ Text.quoted o ++ " takes no value"
  | .invalid o v => "invalid value " ++ Text.quoted v ++ " for " ++ Text.quoted o

/-- What the arguments ask for. -/
inductive Invocation where
  | run (options : Options)
  | help
  | version
  deriving Repr, DecidableEq

/-- The name of the program. -/
def programName : String := "syntax-completion"

/-- The name of the program and its version. -/
def versionText : String := programName ++ " 0.2.0"

/-- What the program tells about itself, line by line. -/
def helpText : List String := [
  "Grammar-aware autocompletion for free-text input",
  "",
  "Usage: " ++ programName ++ " [OPTIONS]",
  "",
  "Options:",
  "      --grammar <GRAMMAR>          BNF grammar file (defaults to the built-in demo grammar)",
  "      --suggestions <SUGGESTIONS>  JSON object mapping node kinds to candidate lists",
  "      --config <CONFIG>            Engine configuration as JSON",
  "      --delay-ms <DELAY_MS>        Debounce delay in milliseconds",
  "      --log-level <LOG_LEVEL>      Log level for stderr (overrides RUST_LOG)",
  "      --no-color                   Disable ANSI colors in log output",
  "      --log-file                   Also write a debug session log to the user cache directory",
  "  -h, --help                       Print help",
  "  -V, --version                    Print version"]

/-- An option that takes a value. -/
inductive Valued where
  | grammar
  | suggestions
  | config
  | delay
  | logLevel
  deriving Repr, DecidableEq

namespace Valued

/-- The option of a name. -/
def ofName? : String → Option Valued
  | "grammar" => some grammar
  | "suggestions" => some suggestions
  | "config" => some config
  | "delay-ms" => some delay
  | "log-level" => some logLevel
  | _ => none

/-- The name of an option. -/
def name : Valued → String
  | grammar => "grammar"
  | suggestions => "suggestions"
  | config => "config"
  | delay => "delay-ms"
  | logLevel => "log-level"

/-- Whether an option has been given. -/
def isSet (o : Options) : Valued → Bool
  | grammar => o.grammar.isSome
  | suggestions => o.suggestions.isSome
  | config => o.config.isSome
  | delay => o.delay.isSome
  | logLevel => o.logLevel.isSome

/-- The options with a path chosen. -/
def path (v : Valued) (value : String) (set : Options) : Except UsageError Options :=
  if value.isEmpty then .error (.invalid v.name value) else .ok set

/-- The options with one more value. -/
def set (o : Options) (v : Valued) (value : String) : Except UsageError Options :=
  if v.isSet o then .error (.repeated v.name)
  else
    match v with
    | grammar => v.path value { o with grammar := some value }
    | suggestions => v.path value { o with suggestions := some value }
    | config => v.path value { o with config := some value }
    | delay =>
      match Text.readNumber value.toList with
      | .ok n => .ok { o with delay := some n }
      | .error _ => .error (.invalid v.name value)
    | logLevel => .ok { o with logLevel := some value }

end Valued

/-- Whether an argument can be the value of the option before it. -/
def isValue (argument : String) : Bool := argument == "-" || !argument.startsWith "-"

/-- The parts of a text before and after the first equals sign, if it has one. -/
def splitEquals (cs : List Char) : String × Option String :=
  match cs.dropWhile (· != '=') with
  | _ :: value => (String.ofList (cs.takeWhile (· != '=')), some (String.ofList value))
  | [] => (String.ofList cs, none)

/-- An argument on its own. -/
inductive Argument where
  /-- Nothing but values may follow. -/
  | ends
  /-- The program is to tell about itself. -/
  | asks (what : Invocation)
  | noColor
  | logFile
  /-- An option whose value follows. -/
  | opens (option : Valued)
  | assigns (option : Valued) (value : String)
  | wrong (error : UsageError)

namespace Argument

/-- A long option without a value of its own. -/
def ofName (name : String) : Argument :=
  match name, Valued.ofName? name with
  | _, some v => opens v
  | "help", _ => asks .help
  | "version", _ => asks .version
  | "no-color", _ => noColor
  | "log-file", _ => logFile
  | _, none => wrong (.unexpected ("--" ++ name))

/-- A long option with a value of its own. -/
def ofAssignment (name value : String) : Argument :=
  match Valued.ofName? name, ofName name with
  | some v, _ => assigns v value
  | none, wrong e => wrong e
  | none, _ => wrong (.noValue name)

/-- Reads one argument. -/
def ofString (argument : String) : Argument :=
  match argument.toList with
  | ['-', '-'] => ends
  | '-' :: '-' :: long =>
    match splitEquals long with
    | (name, some value) => ofAssignment name value
    | (name, none) => ofName name
  | '-' :: 'h' :: _ => asks .help
  | '-' :: 'V' :: _ => asks .version
  | _ => wrong (.unexpected argument)

end Argument

/-- The options with one more flag. -/
def flag (o : Options) (name : String) (isSet : Bool) (set : Options → Options) :
    Except UsageError Options :=
  if isSet then .error (.repeated name) else .ok (set o)

/-- What the arguments ask for after those that have chosen `o`; the last of these may be an option
that waits for its value. -/
def Options.read (o : Options) (pending : Option Valued) :
    List String → Except UsageError Invocation
  | [] =>
    match pending with
    | some v => .error (.missing v.name)
    | none => .ok (.run o)
  | argument :: rest =>
    match pending with
    | some v =>
      if isValue argument then
        match v.set o argument with
        | .ok o => o.read none rest
        | .error e => .error e
      else .error (.missing v.name)
    | none =>
      match Argument.ofString argument with
      | .ends =>
        match rest with
        | [] => .ok (.run o)
        | extra :: _ => .error (.unexpected extra)
      | .asks what => .ok what
      | .noColor =>
        match flag o "no-color" o.noColor ({ · with noColor := true }) with
        | .ok o => o.read none rest
        | .error e => .error e
      | .logFile =>
        match flag o "log-file" o.logFile ({ · with logFile := true }) with
        | .ok o => o.read none rest
        | .error e => .error e
      | .opens v => o.read (some v) rest
      | .assigns v value =>
        match v.set o value with
        | .ok o => o.read none rest
        | .error e => .error e
      | .wrong e => .error e

/-- What the arguments ask for. -/
def Invocation.ofArguments (arguments : List String) : Except UsageError Invocation :=
  Options.read {} none arguments

end Typeahead.Console
