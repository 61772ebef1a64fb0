import FuzzHarness.Text.Hex

/-!
# Command-line arguments

Options have a long form, some also a letter. A value follows an option as the next
argument or behind an equals sign, or directly behind its letter. No option may be
given twice, and what looks like an option is never taken for a value. After two
dashes every argument is an input.
-/

namespace FuzzHarness.CommandLine

structure Arguments where
  configFile : Option String
  keepGoing : Option UInt64
  noDedup : Bool
  reproducerPath : Option String
  provider : Bool
  reproduce : Option String
  artifactStart : Option String
  inputs : List String
  deriving DecidableEq, Repr

def Arguments.none : Arguments :=
  ⟨Option.none, Option.none, false, Option.none, false, Option.none, Option.none, []⟩

inductive Flag where
  | noDedup
  | provider
  | help
  | version
  deriving DecidableEq, Repr

inductive Setting where
  | configFile
  | keepGoing
  | reproducerPath
  | reproduce
  | artifactStart
  deriving DecidableEq, Repr

/-- An option of either sort. -/
inductive Choice where
  | flag (flag : Flag)
  | setting (setting : Setting)
  deriving DecidableEq, Repr

/-- Why the arguments are not acted upon. -/
inductive Stop where
  | usage
  | help
  | version
  deriving DecidableEq, Repr

def longOption? (name : String) : Option Choice :=
  [("config-file", Choice.setting .configFile), ("keep-going", .setting .keepGoing),
    ("no-dedup", .flag .noDedup), ("reproducer-path", .setting .reproducerPath),
    ("provider", .flag .provider), ("reproduce", .setting .reproduce),
    ("artifact-prefix", .setting .artifactStart), ("help", .flag .help),
    ("version", .flag .version)].lookup name

def shortOption? (letter : Char) : Option Choice :=
  [('c', Choice.setting .configFile), ('k', .setting .keepGoing), ('h', .flag .help),
    ('V', .flag .version)].lookup letter

/-- A number in decimal digits; a plus sign is allowed, and it has to fit a word. -/
def number? (text : String) : Option UInt64 :=
  let digits := match text.toList with
    | '+' :: rest => rest
    | text => text
  let digit? := fun c => (Text.hexValue? c).filter (· < 10)
  if digits.isEmpty then Option.none
  else
    match Text.digitsValue? 10 digit? digits with
    | some value => if value < UInt64.size then some (UInt64.ofNat value) else Option.none
    | Option.none => Option.none

def path? (text : String) : Option String :=
  if text.isEmpty then Option.none else some text

/-- Put a value in a place that has none yet. -/
def once {α : Type} (place : Option α) (value : Option α) : Option (Option α) :=
  match place, value with
  | Option.none, some value => some (some value)
  | _, _ => Option.none

namespace Arguments

def raise (arguments : Arguments) : Flag → Except Stop Arguments
  | .noDedup =>
    if arguments.noDedup then .error .usage else .ok { arguments with noDedup := true }
  | .provider =>
    if arguments.provider then .error .usage else .ok { arguments with provider := true }
  | .help => .error .help
  | .version => .error .version

def set (arguments : Arguments) (setting : Setting) (value : String) :
    Except Stop Arguments :=
  let result : Option Arguments := match setting with
    | .configFile =>
      (once arguments.configFile (path? value)).map ({ arguments with configFile := · })
    | .keepGoing =>
      (once arguments.keepGoing (number? value)).map ({ arguments with keepGoing := · })
    | .reproducerPath =>
      (once arguments.reproducerPath (path? value)).map
        ({ arguments with reproducerPath := · })
    | .reproduce =>
      (once arguments.reproduce (path? value)).map ({ arguments with reproduce := · })
    | .artifactStart =>
      (once arguments.artifactStart (some value)).map ({ arguments with artifactStart := · })
  match result with
  | some arguments => .ok arguments
  | Option.none => .error .usage

def addInput (arguments : Arguments) (input : String) : Except Stop Arguments :=
  match path? input with
  | some input => .ok { arguments with inputs := arguments.inputs ++ [input] }
  | Option.none => .error .usage

def addInputs (arguments : Arguments) : List String → Except Stop Arguments
  | [] => .ok arguments
  | input :: inputs =>
    match arguments.addInput input with
    | .error stop => .error stop
    | .ok arguments => arguments.addInputs inputs

end Arguments

def looksLikeOption (argument : String) : Bool :=
  match argument.toList with
  | '-' :: _ :: _ => true
  | _ => false

/-- What one argument turns out to be. -/
inductive Reading where
  | taken (arguments : Arguments)
  /-- The value of an option has to come next. -/
  | needsValue (setting : Setting)
  | stopped (stop : Stop)

def Reading.ofUpdate : Except Stop Arguments → Reading
  | .ok arguments => .taken arguments
  | .error stop => .stopped stop

def readLong (arguments : Arguments) (text : List Char) : Reading :=
  let (name, value) := match Text.splitFirst ['='] text with
    | some (name, value) => (name, some (String.ofList value))
    | Option.none => (text, Option.none)
  match longOption? (String.ofList name), value with
  | some (.flag flag), Option.none => .ofUpdate (arguments.raise flag)
  | some (.setting setting), some value => .ofUpdate (arguments.set setting value)
  | some (.setting setting), Option.none => .needsValue setting
  | _, _ => .stopped .usage

/-- Read letters behind one dash. A letter that takes a value takes what follows. -/
def readLetters (arguments : Arguments) : List Char → Reading
  | [] => .taken arguments
  | letter :: rest =>
    match shortOption? letter with
    | some (.flag flag) =>
      match arguments.raise flag with
      | .ok arguments => readLetters arguments rest
      | .error stop => .stopped stop
    | some (.setting setting) =>
      match rest with
      | [] => .needsValue setting
      | '=' :: value => .ofUpdate (arguments.set setting (String.ofList value))
      | value => .ofUpdate (arguments.set setting (String.ofList value))
    | Option.none => .stopped .usage

def readArgument (arguments : Arguments) (argument : String) : Reading :=
  match argument.toList with
  | '-' :: '-' :: text => readLong arguments text
  | '-' :: letter :: rest => readLetters arguments (letter :: rest)
  | _ => .ofUpdate (arguments.addInput argument)

/-- Read arguments in order, on top of those read already. -/
def readFrom (arguments : Arguments) : List String → Except Stop Arguments
  | [] => .ok arguments
  | argument :: rest =>
    if argument = "--" then arguments.addInputs rest
    else
      match readArgument arguments argument with
      | .stopped stop => .error stop
      | .taken arguments => readFrom arguments rest
      | .needsValue setting =>
        match rest with
        | [] => .error .usage
        | value :: rest =>
          if looksLikeOption value then .error .usage
          else
            match arguments.set setting value with
            | .error stop => .error stop
            | .ok arguments => readFrom arguments rest

def read (arguments : List String) : Except Stop Arguments :=
  readFrom .none arguments

/-- What is printed when help is asked for. Every option stands on a line of its own
and is explained on the next one. -/
def helpText : String :=
  "Usage: fuzzgate [OPTIONS] [INPUTS]...\n" ++
  "\n" ++
  "Arguments:\n" ++
  "  [INPUTS]...  Input files, or directories of input files\n" ++
  "\n" ++
  "Options:\n" ++
  "  -c, --config-file <CONFIG_FILE>\n" ++
  "          \n" ++
  "  -k, --keep-going <KEEP_GOING>\n" ++
  "          Stop after this many distinct findings\n" ++
  "      --no-dedup\n" ++
  "          \n" ++
  "      --reproducer-path <REPRODUCER_PATH>\n" ++
  "          \n" ++
  "      --provider\n" ++
  "          Fuzz the provider-mode demo target instead of the bytes-mode one\n" ++
  "      --reproduce <ARTIFACT>\n" ++
  "          Replay a `Crash_<hash>.rs` reproducer instead of running inputs\n" ++
  "      --artifact-prefix <ARTIFACT_PREFIX>\n" ++
  "          [default: ./]\n" ++
  "  -h, --help\n" ++
  "          Print help\n" ++
  "  -V, --version\n" ++
  "          Print version\n"

def versionText : String := "fuzzgate_cli 0.1.0\n"

end FuzzHarness.CommandLine
