import FuzzHarness.Proofs.Budget
import FuzzHarness.Proofs.Reproducer.Run
import FuzzHarness.Runner

/-!
# Feeding a runner

An engine feeds inputs to a runner until a call does not return. Each call passes through
the same phases: the input is examined, what is found is offered to the budget, and what
the budget lets pass is announced, reproduced and concluded. The lemmas here say once
what a phase changes; whatever else a runner decides by stays as it was built.
-/

namespace FuzzHarness

/-- One call of a runner: the input, and the runner and its world before the call. -/
structure Visit (σ : Type) where
  runner : Runner σ
  world : World σ
  input : Bytes

namespace Visit

variable {σ : Type}

/-- How the call ends, and the runner and its world then. -/
def result (visit : Visit σ) : RunEnd × Runner σ × World σ :=
  visit.runner.runOne visit.input visit.world

def outcome (visit : Visit σ) : Outcome :=
  (visit.runner.executor.execute visit.input visit.world.host).1

/-- What the target was found to do, with its token. -/
def found (visit : Visit σ) : Option Classified :=
  (visit.runner.examine visit.input visit.world).1

def written (visit : Visit σ) : List Emission :=
  visit.result.2.2.emissions.drop visit.world.emissions.length

def reported (visit : Visit σ) : Bool :=
  visit.written.any fun
    | .finding .iteration _ => true
    | _ => false

end Visit

def Generated.isMade : Generated → Bool
  | .artifact _ => true
  | .delegated => true
  | .failed _ => false
  | .escaped _ => false

/-- The lines that an engine can write when it describes a crashing input. -/
def Engine.lines (input : Bytes) : Engine → List String
  | .observing => []
  | .standalone start => [s!"Test unit written to {start}crash-{contentHash input}"]

/-- Describing a crashing input is one request, and nothing is written for it but what
the engine has to say. -/
theorem Engine.describe_spec {σ : Type} (engine : Engine) (input : Bytes) (world : World σ) :
    (engine.describe input world).crashingInputs = world.crashingInputs + 1 ∧
      ∃ own : List String, (own = [] ∨ own = engine.lines input) ∧
        (engine.describe input world).emissions = world.emissions ++ own.map .line := by
  cases engine with
  | observing => exact ⟨rfl, [], .inl rfl, (List.append_nil _).symm⟩
  | standalone start =>
      rw [describe]
      dsimp only
      split
      · exact ⟨rfl, _, .inr rfl, rfl⟩
      · exact ⟨rfl, [], .inl rfl, (List.append_nil _).symm⟩

/-- Whatever the tear-down hook does, shutdown counts as done. -/
theorem Shutdown.run_done {σ : Type} (shutdown : Shutdown σ) (host : Host σ)
    (tree : FileTree) : (shutdown.run host tree).2.1.done = true := by
  rw [run]
  split
  · next done => exact done
  · dsimp only
    split <;> rfl

def reportBlock (dedup : Bool) (classified : Classified) : List Emission :=
  .finding .iteration classified.finding ::
    ((if dedup then [.token classified.token] else []) ++ [.crashingInput])

namespace Runner

variable {σ : Type}

/-- Announcing a finding writes one block, behind which stands what the engine writes. -/
theorem announce_spec (runner : Runner σ) (classified : Classified) (input : Bytes)
    (world : World σ) :
    (runner.announce classified input world).crashingInputs = world.crashingInputs + 1 ∧
      ∃ own : List String, (own = [] ∨ own = runner.engine.lines input) ∧
        (runner.announce classified input world).emissions =
          world.emissions ++ (reportBlock runner.classifier.dedup classified ++ own.map .line) := by
  rw [announce]
  obtain ⟨asked, own, said, wrote⟩ := runner.engine.describe_spec input
    ((if runner.classifier.dedup then
        (world.emit (.finding .iteration classified.finding)).emit (.token classified.token)
      else world.emit (.finding .iteration classified.finding)).emit .crashingInput)
  refine ⟨asked.trans ?_, own, said, wrote.trans ?_⟩
  · split <;> rfl
  · rw [reportBlock]
    split <;> simp [World.emit]

/-- A runner that has not shut down does so when the budget is used up, and asks for the
end of the process whatever its tear-down hook does. -/
theorem conclude_terminate {runner : Runner σ} (used : runner.budget.afterReport = .terminate)
    (pending : runner.shutdown.done = false) (world : World σ) :
    (runner.conclude world).1 = .exited findingExitCode ∧
      (runner.conclude world).2.1.shutdown.done = true ∧
      (runner.conclude world).2.2.crashingInputs = world.crashingInputs ∧
      ((runner.conclude world).2.2.emissions = world.emissions ∨
        ∃ finding, (runner.conclude world).2.2.emissions =
          world.emissions ++ [.finding .tearDown finding]) := by
  rw [conclude, used, shutDown, pending]
  dsimp only
  have done := runner.shutdown.run_done (world.logged (.shuttingDown runner.distinctFindings)).host
    (world.logged (.shuttingDown runner.distinctFindings)).tree
  rcases ran : runner.shutdown.run (world.logged (.shuttingDown runner.distinctFindings)).host
    (world.logged (.shuttingDown runner.distinctFindings)).tree with ⟨result, shutdown, host, tree⟩
  rw [ran] at done
  cases result with
  | ok _ => exact ⟨rfl, done, rfl, .inl rfl⟩
  | error fault => exact ⟨rfl, done, rfl, .inr ⟨fault.finding, rfl⟩⟩

theorem conclude_proceed {runner : Runner σ} (left : runner.budget.afterReport = .proceed)
    (world : World σ) : runner.conclude world = (.returned, runner, world) := by
  rw [conclude, left]

/-- A call that returns from its conclusion has changed nothing there. -/
theorem conclude_of_returned {runner : Runner σ} {world : World σ}
    (pending : runner.shutdown.done = false)
    (returned : (runner.conclude world).1 = .returned) :
    runner.conclude world = (.returned, runner, world) := by
  cases decision : runner.budget.afterReport with
  | proceed => exact conclude_proceed decision world
  | terminate =>
      have ended := (conclude_terminate decision pending world).1
      exact nomatch ended.symm.trans returned

def withBudget (budget : Budget) (runner : Runner σ) : Runner σ :=
  { runner with budget := budget }

/-- Offering a token changes the known tokens at most. -/
theorem offer_spec {runner offered : Runner σ} {token : UInt64} {admission : Admission}
    (passed : runner.offer token = (admission, offered)) :
    ∃ budget, offered = runner.withBudget budget ∧ budget.limit = runner.budget.limit := by
  rw [offer] at passed
  split at passed
  · exact ⟨_, (congrArg Prod.snd passed).symm, runner.budget.offer_limit token⟩
  · exact ⟨_, (congrArg Prod.snd passed).symm, rfl⟩

/-- With a budget of more than one, a known token is suppressed. -/
theorem offer_of_known {runner : Runner σ} (dedup : runner.classifier.dedup = true)
    (many : 1 < runner.budget.limit) {token : UInt64}
    (known : token ∈ runner.budget.known.tokens) :
    runner.offer token = (.suppress, runner) := by
  rw [offer, if_pos dedup, Budget.offer_of_known many known]

/-- With a budget of one, every token passes. -/
theorem offer_of_one {runner : Runner σ} (single : runner.budget.limit ≤ 1) (token : UInt64) :
    runner.offer token = (.report, runner) := by
  rw [offer, Budget.offer_of_one single]
  split <;> rfl

/-- With a budget of more than one, a token passes that is not known. -/
theorem offer_of_new {runner : Runner σ} (dedup : runner.classifier.dedup = true)
    (many : 1 < runner.budget.limit) {token : UInt64}
    (new : token ∉ runner.budget.known.tokens) :
    runner.offer token = (.report, runner.withBudget
      { runner.budget with known := runner.budget.known.insert token }) := by
  rw [offer, if_pos dedup, Budget.offer_of_new many new]
  rfl

/-- A report whose reproducer is made goes on to its conclusion. -/
theorem handle_of_made (runner : Runner σ) (classified : Classified) (input : Bytes)
    (world : World σ)
    (made : (runner.reproduce input (runner.announce classified input world)).1.isMade = true) :
    runner.handle classified input world =
      (runner.reproduce input (runner.announce classified input world)).2.1.conclude
        (runner.reproduce input (runner.announce classified input world)).2.2 := by
  rw [handle]
  rcases reproduced : runner.reproduce input (runner.announce classified input world)
    with ⟨generated, after, left⟩
  rw [reproduced] at made
  cases generated with
  | artifact _ => rfl
  | delegated => rfl
  | failed _ => cases made
  | escaped _ => cases made

end Runner

namespace Visit

variable {σ : Type}

/-- The runner and its world once the input has been examined. -/
def examined (visit : Visit σ) : Runner σ × World σ :=
  (visit.runner.examine visit.input visit.world).2

variable {visit : Visit σ} {classified : Classified} {offered : Runner σ}

theorem examine_eq : visit.runner.examine visit.input visit.world =
    (visit.found, visit.examined.1, visit.examined.2) := rfl

theorem exists_raised_of_found (found : visit.found = some classified) :
    ∃ raised, visit.outcome.finding? = some raised ∧
      visit.runner.classifier.classify raised = classified :=
  Option.map_eq_some_iff.mp found

theorem result_of_quiet (quiet : visit.found = none) :
    visit.result = (.returned, visit.examined.1, visit.examined.2) := by
  rw [result, Runner.runOne, examine_eq, quiet]

theorem result_of_suppressed (found : visit.found = some classified)
    (passed : visit.examined.1.offer classified.token = (.suppress, offered)) :
    visit.result = (.returned, offered,
      visit.examined.2.logged (.duplicateSkipped classified.token)) := by
  rw [result, Runner.runOne, examine_eq, found]
  dsimp only
  rw [passed]

/-- An offer has no part in what is executed. -/
theorem executor_of_offered {admission : Admission} {token : UInt64}
    (passed : visit.examined.1.offer token = (admission, offered)) :
    offered.executor = visit.examined.1.executor := by
  obtain ⟨_, rfl, _⟩ := Runner.offer_spec passed
  rfl

/-- The finding of a call is reported, by the runner that admitting it leaves. -/
structure Admits (visit : Visit σ) (classified : Classified) (offered : Runner σ) : Prop where
  found : visit.found = some classified
  passed : visit.examined.1.offer classified.token = (.report, offered)

/-- The reproducer that a reported finding leads to, with the runner and its world then. -/
def reproduced (visit : Visit σ) (offered : Runner σ) (classified : Classified) :
    Generated × Runner σ × World σ :=
  offered.reproduce visit.input (offered.announce classified visit.input visit.examined.2)

/-- The finding of a call is reported, and this comes of making its reproducer. -/
def Makes (visit : Visit σ) (generated : Generated) : Prop :=
  ∃ classified offered, visit.Admits classified offered ∧
    (visit.reproduced offered classified).1 = generated

/-- The call comes to its conclusion: its finding is reported, this reproducer is made, and
what it then ends with is up to the budget. -/
def Concludes (visit : Visit σ) (classified : Classified) (generated : Generated) : Prop :=
  ∃ offered after left, visit.Admits classified offered ∧
    visit.reproduced offered classified = (generated, after, left) ∧
    visit.result = after.conclude left

theorem Admits.result_eq_handle (admits : visit.Admits classified offered) :
    visit.result = offered.handle classified visit.input visit.examined.2 := by
  rw [result, Runner.runOne, examine_eq, admits.found]
  dsimp only
  rw [admits.passed]

theorem Admits.result_of_made (admits : visit.Admits classified offered)
    (made : (visit.reproduced offered classified).1.isMade = true) :
    visit.result = (visit.reproduced offered classified).2.1.conclude
      (visit.reproduced offered classified).2.2 :=
  admits.result_eq_handle.trans
    (offered.handle_of_made classified visit.input visit.examined.2 made)

theorem Admits.concludes (admits : visit.Admits classified offered)
    (made : (visit.reproduced offered classified).1.isMade = true) :
    visit.Concludes classified (visit.reproduced offered classified).1 :=
  ⟨offered, _, _, admits, rfl, admits.result_of_made made⟩

theorem Admits.unique {other : Classified} {next : Runner σ}
    (admits : visit.Admits classified offered) (again : visit.Admits other next) :
    other = classified ∧ next = offered := by
  obtain rfl : other = classified := Option.some.inj (again.found.symm.trans admits.found)
  have passed := again.passed.symm.trans admits.passed
  exact ⟨rfl, congrArg Prod.snd passed⟩

/-- Without a writer of its own, a target always gets an artifact. -/
theorem reproduced_isMade (plain : offered.executor.target.writer = none)
    (classified : Classified) : (visit.reproduced offered classified).1.isMade = true := by
  rw [reproduced, Runner.reproduce, Executor.generate_of_writer_none plain]
  rfl

theorem Makes.isMade_of_plain {generated : Generated}
    (plain : visit.runner.executor.target.writer = none) (makes : visit.Makes generated) :
    generated.isMade = true := by
  obtain ⟨classified, offered, admits, rfl⟩ := makes
  have kept : visit.examined.1.executor.target = visit.runner.executor.target :=
    (Executor.execute_spec _ _ _).1
  apply reproduced_isMade
  rwa [executor_of_offered admits.passed, kept]

/-- A call that adds nothing to the streams reports nothing. -/
theorem reported_of_emissions (same : visit.result.2.2.emissions = visit.world.emissions) :
    visit.reported = false := by
  rw [reported, written, same, List.drop_length]
  rfl

/-- What a call reports was found and passed the budget. -/
theorem exists_admits_of_reported (reported : visit.reported = true) :
    ∃ classified offered, visit.Admits classified offered := by
  cases found : visit.found with
  | none =>
      have silent := reported_of_emissions (congrArg (·.2.2.emissions) (result_of_quiet found))
      exact nomatch reported.symm.trans silent
  | some classified =>
      rcases passed : visit.examined.1.offer classified.token with ⟨admission, offered⟩
      cases admission with
      | report => exact ⟨classified, offered, found, passed⟩
      | suppress =>
          have silent := reported_of_emissions
            (congrArg (·.2.2.emissions) (result_of_suppressed found passed))
          exact nomatch reported.symm.trans silent

end Visit

/-- A runner decides by what its specification says. -/
structure RunnerSpec.Drives {σ : Type} (spec : RunnerSpec σ) (runner : Runner σ) : Prop where
  target : runner.executor.target = spec.target
  classifier : runner.classifier = spec.classifier
  limit : runner.budget.limit = spec.settings.keepGoing
  directory : runner.directory = spec.settings.reproducerPath
  shutdown : runner.shutdown = .pending spec.sinks spec.target.tearDown
  engine : runner.engine = spec.engine

namespace RunnerSpec.Drives

variable {σ : Type} {spec : RunnerSpec σ} {runner : Runner σ} {visit : Visit σ}

theorem examined (drives : spec.Drives visit.runner) : spec.Drives visit.examined.1 where
  target := (Executor.execute_spec _ _ _).1.trans drives.target
  classifier := drives.classifier
  limit := drives.limit
  directory := drives.directory
  shutdown := drives.shutdown
  engine := drives.engine

theorem withBudget (drives : spec.Drives runner) {budget : Budget}
    (limit : budget.limit = spec.settings.keepGoing) :
    spec.Drives (runner.withBudget budget) where
  target := drives.target
  classifier := drives.classifier
  limit := limit
  directory := drives.directory
  shutdown := drives.shutdown
  engine := drives.engine

theorem offered (drives : spec.Drives runner) {token : UInt64} {admission : Admission}
    {offered : Runner σ} (passed : runner.offer token = (admission, offered)) :
    spec.Drives offered := by
  obtain ⟨_, rfl, limit⟩ := Runner.offer_spec passed
  exact drives.withBudget (limit.trans drives.limit)

theorem reproduced (drives : spec.Drives runner) (classified : Classified) :
    spec.Drives (visit.reproduced runner classified).2.1 where
  target := (Executor.generate_target ..).trans drives.target
  classifier := drives.classifier
  limit := drives.limit
  directory := drives.directory
  shutdown := drives.shutdown
  engine := drives.engine

theorem pending (drives : spec.Drives runner) : runner.shutdown.done = false := by
  rw [drives.shutdown]
  rfl

end RunnerSpec.Drives

namespace RunnerSpec

variable {σ : Type} {spec : RunnerSpec σ} {start world : World σ} {runner : Runner σ}

/-- Reports that were made while the target started belong to no input. -/
theorem settle_reports (spec : RunnerSpec σ) (host : Host σ) :
    (spec.settle host).reports.get spec.target.channel = none := by
  have cleared := Reports.get_clear host.reports spec.target.channel
  rw [settle, Sinks.recordStartup]
  split
  · split <;> exact cleared
  · exact cleared

/-- What is known of a runner that has just been built, and of its world. -/
theorem build_spec (built : spec.build start = (.ok runner, world)) :
    spec.settings.keepGoing ≠ 0 ∧
      ∃ tokens, spec.settings.ignoredTokens = .ok tokens ∧
        runner = spec.runner tokens ∧
        world.host.reports.get spec.target.channel = none := by
  rw [build] at built
  split at built
  · cases built
  · cases built
  · next tokens valid parsed =>
    have positive : spec.settings.keepGoing ≠ 0 := by
      intro zero
      rw [Settings.validate, if_pos zero] at valid
      cases valid
    dsimp only at built
    split at built
    · cases built
    · next host started =>
      cases built
      exact ⟨positive, tokens, parsed, rfl, spec.settle_reports host⟩

/-- Every runner that has just been built decides by its specification. -/
theorem drives_runner (spec : RunnerSpec σ) (positive : spec.settings.keepGoing ≠ 0)
    (tokens : List UInt64) : spec.Drives (spec.runner tokens) where
  target := rfl
  classifier := rfl
  limit := by
    change (if spec.settings.keepGoing ≤ 1 then 1 else spec.settings.keepGoing) = _
    rcases Budget.eq_one_or_one_lt positive with one | many
    · rw [one]
      rfl
    · rw [if_neg (UInt64.not_le.mpr many)]
  directory := rfl
  shutdown := rfl
  engine := rfl

end RunnerSpec

namespace Runner

variable {σ : Type}

/-- The calls that inputs lead to, up to the first one that does not return. -/
def feed (runner : Runner σ) (world : World σ) : List Bytes → List (Visit σ)
  | [] => []
  | input :: inputs =>
    ⟨runner, world, input⟩ ::
      match runner.runOne input world with
      | (.returned, runner, world) => runner.feed world inputs
      | _ => []

/-- Every call is for an input of the run. -/
theorem input_mem_of_mem_feed {runner : Runner σ} {world : World σ} {inputs : List Bytes}
    {visit : Visit σ} (mem : visit ∈ runner.feed world inputs) : visit.input ∈ inputs := by
  induction inputs generalizing runner world with
  | nil => cases mem
  | cons input inputs ih =>
      rw [feed] at mem
      rcases List.mem_cons.mp mem with rfl | mem
      · exact List.mem_cons_self ..
      · split at mem
        · exact List.mem_cons_of_mem _ (ih mem)
        · cases mem

/-- What holds at the start and is kept by every call that returns holds before every
call, given the calls made until then. -/
theorem feed_induction {holds : List (Visit σ) → Runner σ → World σ → Prop}
    {runner : Runner σ} {world : World σ} {inputs : List Bytes} (prior : List (Visit σ))
    (start : holds prior runner world)
    (step : ∀ visit ∈ runner.feed world inputs, ∀ before,
      holds before visit.runner visit.world → visit.result.1 = .returned →
      holds (before ++ [visit]) visit.result.2.1 visit.result.2.2)
    {before after : List (Visit σ)} {visit : Visit σ}
    (place : runner.feed world inputs = before ++ visit :: after) :
    holds (prior ++ before) visit.runner visit.world := by
  induction inputs generalizing runner world prior before with
  | nil => cases before <;> cases place
  | cons input inputs ih =>
      rw [feed] at place step
      cases before with
      | nil =>
          obtain ⟨rfl, _⟩ := List.cons.inj place
          rw [List.append_nil]
          exact start
      | cons first before =>
          obtain ⟨rfl, rest⟩ := List.cons.inj place
          split at rest
          · next next left returned =>
            have kept := step _ (List.mem_cons_self ..) prior start
              (congrArg Prod.fst returned)
            rw [Visit.result, returned] at kept
            rw [returned] at step
            have later := ih (prior ++ [_]) kept
              (fun visit mem => step visit (List.mem_cons_of_mem _ mem)) rest
            rwa [List.append_assoc] at later
          · cases before <;> cases rest

/-- The world at the end of a run: once the inputs are used up the runner is dropped,
unless a call ended the process. -/
def finish (runner : Runner σ) (world : World σ) (inputs : List Bytes) : World σ :=
  match (runner.feed world inputs).getLast? with
  | none => (runner.shutDown world).2.2
  | some visit =>
    match visit.result with
    | (.returned, runner, world) => (runner.shutDown world).2.2
    | (_, _, world) => world

end Runner

/-- Feeding these inputs, every call returns, and the last one leaves this runner and world. -/
inductive Runner.Passes {σ : Type} : Runner σ → World σ → List Bytes → Runner σ → World σ → Prop
  | nil (runner : Runner σ) (world : World σ) : Passes runner world [] runner world
  | cons {runner next after : Runner σ} {world between left : World σ} {input : Bytes}
      {inputs : List Bytes} (returned : runner.runOne input world = (.returned, next, between))
      (rest : Passes next between inputs after left) :
      Passes runner world (input :: inputs) after left

namespace Runner.Passes

variable {σ : Type} {runner next after : Runner σ} {world between left : World σ} {input : Bytes}
  {inputs : List Bytes}

/-- One more input is fed to the runner that is left. -/
theorem feed_concat (passes : runner.Passes world inputs after left) (input : Bytes) :
    runner.feed world (inputs ++ [input]) =
      runner.feed world inputs ++ [⟨after, left, input⟩] := by
  induction passes with
  | nil runner world =>
      rw [List.nil_append, feed, feed]
      rcases runner.runOne input world with ⟨ended, next, between⟩
      cases ended <;> rfl
  | cons returned _ ih =>
      rw [List.cons_append, feed, feed, returned]
      dsimp only
      rw [ih, List.cons_append]

/-- Every input is run. -/
theorem map_input_feed (passes : runner.Passes world inputs after left) :
    (runner.feed world inputs).map Visit.input = inputs := by
  induction passes with
  | nil runner world => rfl
  | cons returned _ ih =>
      rw [feed, returned]
      exact congrArg _ ih

theorem map_input_feed_concat (passes : runner.Passes world inputs after left) (input : Bytes) :
    (runner.feed world (inputs ++ [input])).map Visit.input = inputs ++ [input] := by
  rw [passes.feed_concat, List.map_append, passes.map_input_feed]
  rfl

/-- The runner that is left is dropped at the end of the run. -/
theorem finish_eq (passes : runner.Passes world inputs after left) :
    runner.finish world inputs = (after.shutDown left).2.2 := by
  induction passes with
  | nil runner world => rfl
  | @cons runner _ _ world _ _ input inputs returned rest ih =>
      have result : (Visit.mk runner world input).result = _ := returned
      rw [← ih, finish, finish, feed, returned]
      dsimp only
      cases rest with
      | nil =>
          rw [feed, List.getLast?_singleton]
          dsimp only
          rw [result]
          rfl
      | cons again _ =>
          rw [feed, List.getLast?_cons_cons, List.getLast?_cons]

/-- A call that does not return ends the run. -/
theorem finish_concat_of_exited (passes : runner.Passes world inputs after left) {code : Nat}
    {last : Runner σ} {ended : World σ}
    (exited : after.runOne input left = (.exited code, last, ended)) :
    runner.finish world (inputs ++ [input]) = ended := by
  have result : (Visit.mk after left input).result = (.exited code, last, ended) := exited
  rw [finish, passes.feed_concat, List.getLast?_concat]
  dsimp only
  rw [result]

end Runner.Passes

namespace RunnerSpec

/-- The calls of a run that starts without files. -/
def visits (spec : RunnerSpec Unit) (inputs : List Bytes) : List (Visit Unit) :=
  (spec.runner []).feed (spec.build (.fresh () .empty)).2 inputs

def ending (spec : RunnerSpec Unit) (inputs : List Bytes) : World Unit :=
  (spec.runner []).finish (spec.build (.fresh () .empty)).2 inputs

end RunnerSpec

end FuzzHarness
