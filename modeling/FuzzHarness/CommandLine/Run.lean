import FuzzHarness.CommandLine.Arguments
import FuzzHarness.Demo
import FuzzHarness.Runner

/-!
# Running the command line

The command line runs input files through a demo target, or runs a reproducer again.
It works on the files below the working directory, and ends with an exit code, text
on the two streams, and the files as they are then.
-/

namespace FuzzHarness.CommandLine

structure Result where
  exitCode : Nat
  /-- What was written to the streams, in order. -/
  emissions : List Emission
  /-- Text that is printed on the output stream before anything else. -/
  notice : String
  tree : FileTree

namespace Result

def err (result : Result) : String :=
  String.join (result.emissions.map Emission.err)

def out (result : Result) : String :=
  result.notice ++ String.join (result.emissions.map Emission.out)

def ofWorld (exitCode : Nat) (world : World Unit) : Result :=
  ⟨exitCode, world.emissions, "", world.tree⟩

def ofFailure (failure : Failure) (world : World Unit) : Result :=
  ofWorld faultExitCode (world.emit (.line s!"ERROR: {failure.text}"))

end Result

def usageExitCode : Nat := 2

/-- The exit code of a panic that nothing caught. -/
def panicExitCode : Nat := 101

def defaultConfig : String := "config.toml"

def fileSettings (arguments : Arguments) (tree : FileTree) : Except SettingsFault Settings :=
  match arguments.configFile with
  | some path => Settings.load tree path
  | none =>
    if tree.pathExists defaultConfig then Settings.load tree defaultConfig
    else .ok .default

def override (arguments : Arguments) (settings : Settings) : Settings :=
  { settings with
    keepGoing := arguments.keepGoing.getD settings.keepGoing
    dedup := settings.dedup && !arguments.noDedup
    reproducerPath := arguments.reproducerPath.getD settings.reproducerPath }

/-- The settings of a run. -/
def loadSettings (arguments : Arguments) (tree : FileTree) : Except SettingsFault Settings :=
  match fileSettings arguments tree with
  | .error fault => .error fault
  | .ok settings =>
    let settings := override arguments settings
    settings.validate.map fun _ => settings

/-- The input files that a path stands for: those in a directory in the order of
their names, or the path itself. A file in a directory counts only if the path to it
can be followed. -/
def inputsAt (tree : FileTree) (path : String) : List String :=
  match tree.locate path with
  | .ok (place, .directory) =>
    let names := (tree.fileNames place).mergeSort fun a b => a < b || a == b
    (names.map (Path.join path)).filter tree.isFile
  | _ => [path]

/-- How the inputs of a run end. -/
inductive InputsEnd where
  | done
  | failed (failure : Failure)
  | ended (exitCode : Nat)

/-- The exit code of a call of the runner that ends the process. -/
def endCode? : RunEnd → Option Nat
  | .returned => none
  | .exited code => some code
  | .escaped _ => some panicExitCode

def runInputs : List String → Runner Unit → World Unit → InputsEnd × Runner Unit × World Unit
  | [], runner, world => (.done, runner, world)
  | path :: paths, runner, world =>
    match world.tree.read path with
    | .error fault =>
      (.failed [s!"reading input {Text.quoted path}", fault.message], runner, world)
    | .ok input =>
      let (ended, runner, world) := runner.runOne input world
      match endCode? ended with
      | some code => (.ended code, runner, world)
      | none => runInputs paths runner world

/-- Shut the runner down and end with an outcome, unless shutting down ends the
process. -/
def close (runner : Runner Unit) (world : World Unit) (result : World Unit → Result) :
    Result :=
  let (ended, _, world) := runner.shutDown world
  match endCode? ended with
  | some code => .ofWorld code world
  | none => result world

/-- Run the inputs of a command line through a demo target. -/
def runAll (arguments : Arguments) (world : World Unit) : Result :=
  match loadSettings arguments world.tree with
  | .error fault => .ofFailure fault.messages world
  | .ok settings =>
    let spec : RunnerSpec Unit :=
      { target := Demo.target (if arguments.provider then .provider else .bytes)
        settings := settings
        engine := .standalone (arguments.artifactStart.getD "./")
        recorder := some .shared
        normalizer := none }
    match spec.build world with
    | (.error _, world) => .ofWorld faultExitCode world
    | (.ok runner, world) =>
      let paths := arguments.inputs.flatMap (inputsAt world.tree)
      match runInputs paths runner world with
      | (.ended code, _, world) => .ofWorld code world
      | (.done, runner, world) => close runner world (.ofWorld 0)
      | (.failed failure, runner, world) => close runner world (.ofFailure failure)

/-- Run a reproducer file against the demo target of its mode. -/
def reproduce (path : String) (world : World Unit) : Result :=
  match Artifact.readFrom world.tree path with
  | .error fault => .ofFailure fault.messages world
  | .ok artifact =>
    let (result, host) := artifact.replay (Demo.target artifact.mode) world.host
    let world := { world with host := host }
    match result with
    | .error fault => .ofFailure fault.messages world
    | .ok none => .ofWorld 0 world
    | .ok (some finding) =>
      .ofWorld findingExitCode (world.emit (.finding .iteration finding))

/-- Run a command line in a working directory. -/
def run (arguments : List String) (tree : FileTree) : Result :=
  match read arguments with
  | .error .usage => ⟨usageExitCode, [.line "error: invalid arguments"], "", tree⟩
  | .error .help => ⟨0, [], helpText, tree⟩
  | .error .version => ⟨0, [], versionText, tree⟩
  | .ok arguments =>
    let world := World.fresh () tree
    match arguments.reproduce with
    | some path => reproduce path world
    | none => runAll arguments world

end FuzzHarness.CommandLine
