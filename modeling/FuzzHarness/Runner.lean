import FuzzHarness.Budget
import FuzzHarness.Finding.Identity
import FuzzHarness.Finding.Stripper
import FuzzHarness.Report
import FuzzHarness.Reproducer.Run
import FuzzHarness.Settings.Basic
import FuzzHarness.Shutdown

/-!
# The runner

A runner drives a target one input at a time on behalf of an engine. A finding that
is not suppressed is reported and gets a reproducer. When the budget is used up the
runner shuts down and asks the engine to end the process; an engine may also let it
go on. Dropping a runner shuts it down unless that has been done.
-/

namespace FuzzHarness

inductive Engine where
  /-- An engine that only notes that it was asked to describe an input. -/
  | observing
  /-- An engine that saves crashing inputs under names with a given beginning. -/
  | standalone (artifactStart : String)
  deriving DecidableEq, Repr

/-- Everything outside a runner: the surroundings of the target, the files, what was
written to the streams, and how often the engine was asked to describe an input. -/
structure World (σ : Type) where
  host : Host σ
  tree : FileTree
  emissions : List Emission
  crashingInputs : Nat

namespace World

variable {σ : Type}

def fresh (memory : σ) (tree : FileTree) : World σ :=
  ⟨.fresh memory, tree, [], 0⟩

def emit (emission : Emission) (world : World σ) : World σ :=
  { world with emissions := world.emissions ++ [emission] }

def logged (event : Event) (world : World σ) : World σ :=
  { world with host := world.host.logged event }

end World

/-- Describe the crashing input. -/
def Engine.describe {σ : Type} (engine : Engine) (input : Bytes) (world : World σ) : World σ :=
  let world := { world with crashingInputs := world.crashingInputs + 1 }
  match engine with
  | .observing => { world with host := world.host.note .crashingInput }
  | .standalone start =>
    let path := s!"{start}crash-{contentHash input}"
    match world.tree.write path input with
    | .ok tree => { world with tree := tree }.emit (.line s!"Test unit written to {path}")
    | .error fault => world.logged (.crashingInputFailed path fault.message)

/-- How a call of the runner ends. -/
inductive RunEnd where
  | returned
  /-- The engine was asked to end the process. -/
  | exited (code : Nat)
  /-- A panic of foreign code left the runner. -/
  | escaped (payload : Payload)

/-- A target with everything that is decided about its findings. -/
structure Runner (σ : Type) where
  executor : Executor σ
  classifier : Classifier
  budget : Budget
  directory : String
  shutdown : Shutdown σ
  engine : Engine

inductive RunnerFault where
  | settings (fault : SettingsFault)
  | startup (finding : Finding)
  deriving DecidableEq, Repr

def RunnerFault.message : RunnerFault → String
  | .settings fault => fault.message
  | .startup finding => s!"fuzzer_initialize panicked: {finding.top.message}"

structure RunnerSpec (σ : Type) where
  target : Target σ
  settings : Settings
  engine : Engine
  recorder : Option CoverageRecorder
  /-- Used only when hooks are enabled, and then in place of a change of nothing. -/
  normalizer : Option Normalizer

namespace RunnerSpec

variable {σ : Type}

/-- The file of a sink, an empty path counting as none. -/
def sinkPath (path : Option String) : Option String :=
  path.filter fun path => !path.isEmpty

def sinks (spec : RunnerSpec σ) : Sinks :=
  ⟨spec.recorder, sinkPath spec.settings.coverageDump, sinkPath spec.settings.coverageReport⟩

def classifier (spec : RunnerSpec σ) : Classifier where
  dedup := spec.settings.effectiveDedup
  normalizer :=
    if spec.settings.hooks then some (spec.normalizer.getD Stripper.empty.normalize) else none

def runner (spec : RunnerSpec σ) (tokens : List UInt64) : Runner σ where
  executor := .ofTarget spec.target
  classifier := spec.classifier
  budget := .ofLimit spec.settings.keepGoing (.ofList tokens)
  directory := spec.settings.reproducerPath
  shutdown := .pending spec.sinks spec.target.tearDown
  engine := spec.engine

def announce (spec : RunnerSpec σ) (world : World σ) : World σ :=
  let settings := spec.settings
  let dedup := settings.effectiveDedup
  let world := if dedup && !settings.dedup then world.logged .dedupForced else world
  world.logged (.usingTarget spec.target.name spec.target.mode settings.keepGoing dedup)

/-- What follows a startup without a finding: reports made by then belong to no
input, and coverage reached by then is startup coverage. -/
def settle (spec : RunnerSpec σ) (host : Host σ) : Host σ :=
  let host := { host with reports := host.reports.clear spec.target.channel }
  if spec.settings.hooks then spec.sinks.recordStartup host else host

/-- Check the settings, start the target and build its runner. -/
def build (spec : RunnerSpec σ) (world : World σ) :
    Except RunnerFault (Runner σ) × World σ :=
  match spec.settings.validate, spec.settings.ignoredTokens with
  | .error fault, _ => (.error (.settings fault), world)
  | .ok (), .error fault => (.error (.settings fault), world)
  | .ok (), .ok tokens =>
    let world := spec.announce world
    match spec.target.start spec.settings.targetArgs world.host with
    | (.error finding, host) =>
      (.error (.startup finding), { world with host := host }.emit (.finding .startup finding))
    | (.ok (), host) => (.ok (spec.runner tokens), { world with host := spec.settle host })

end RunnerSpec

namespace Runner

variable {σ : Type}

/-- Distinct findings so far, ignored tokens included. -/
def distinctFindings (runner : Runner σ) : Nat :=
  runner.budget.distinctFindings

/-- Shut down unless that has been done; a fault of the tear-down hook is reported and
ends the process. -/
def shutDown (runner : Runner σ) (world : World σ) : RunEnd × Runner σ × World σ :=
  if runner.shutdown.done then (.returned, runner, world)
  else
    let world := world.logged (.shuttingDown runner.distinctFindings)
    let (result, shutdown, host, tree) := runner.shutdown.run world.host world.tree
    let runner := { runner with shutdown := shutdown }
    let world := { world with host := host, tree := tree }
    match result with
    | .ok () => (.returned, runner, world)
    | .error fault =>
      (.exited fault.exitCode, runner, world.emit (.finding .tearDown fault.finding))

/-- Write what is known about a finding and let the engine describe its input. -/
def announce (runner : Runner σ) (classified : Classified) (input : Bytes)
    (world : World σ) : World σ :=
  let world := world.emit (.finding .iteration classified.finding)
  let world := if runner.classifier.dedup then world.emit (.token classified.token) else world
  runner.engine.describe input (world.emit .crashingInput)

/-- End the run if the budget is used up. -/
def conclude (runner : Runner σ) (world : World σ) : RunEnd × Runner σ × World σ :=
  match runner.budget.afterReport with
  | .proceed => (.returned, runner, world)
  | .terminate =>
    match runner.shutDown world with
    | (.returned, runner, world) => (.exited findingExitCode, runner, world)
    | ended => ended

def reproduce (runner : Runner σ) (input : Bytes) (world : World σ) :
    Generated × Runner σ × World σ :=
  let (generated, executor, host, tree) :=
    runner.executor.generate runner.directory input world.host world.tree
  (generated, { runner with executor := executor }, { world with host := host, tree := tree })

/-- Report a finding, make its reproducer, and see whether the run goes on. -/
def handle (runner : Runner σ) (classified : Classified) (input : Bytes) (world : World σ) :
    RunEnd × Runner σ × World σ :=
  match runner.reproduce input (runner.announce classified input world) with
  | (.escaped payload, runner, world) => (.escaped payload, runner, world)
  | (.failed fault, runner, world) =>
    (.exited faultExitCode, runner,
      world.emit (.line s!"ERROR: Failed to create reproducer: {fault.message}"))
  | (_, runner, world) => runner.conclude world

/-- Whether a finding is reported; without deduplication every finding is. -/
def offer (runner : Runner σ) (token : UInt64) : Admission × Runner σ :=
  if runner.classifier.dedup then
    let (admission, budget) := runner.budget.offer token
    (admission, { runner with budget := budget })
  else (.report, runner)

/-- Run the target on an input and identify what is found. -/
def examine (runner : Runner σ) (input : Bytes) (world : World σ) :
    Option Classified × Runner σ × World σ :=
  let (outcome, executor, host) := runner.executor.execute input world.host
  (outcome.finding?.map runner.classifier.classify, { runner with executor := executor },
    { world with host := host })

/-- Run one input. Its finding is reported if the token is new or tokens do not count;
any other finding is only logged. -/
def runOne (runner : Runner σ) (input : Bytes) (world : World σ) :
    RunEnd × Runner σ × World σ :=
  match runner.examine input world with
  | (none, runner, world) => (.returned, runner, world)
  | (some classified, runner, world) =>
    match runner.offer classified.token with
    | (.suppress, runner) =>
      (.returned, runner, world.logged (.duplicateSkipped classified.token))
    | (.report, runner) => runner.handle classified input world

end Runner

end FuzzHarness
