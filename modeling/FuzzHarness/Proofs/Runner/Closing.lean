import FuzzHarness.Proofs.Runner.Uneventful

/-!
# One shutdown in the life of a runner

A runner is asked to run inputs and to shut down, in any order, also after a call in which the
engine was asked to end the process or in which foreign code panicked. Dropping the runner is
one more request to shut down. One turn of all shuts it down: the one that uses up the budget,
or the first that is asked to. Until then a turn takes no step of a shutdown and leaves what is
to be shut down as it was built; from then on shutdown counts as done.
-/

namespace FuzzHarness

variable {σ : Type}

/-- What a runner can be asked to do. -/
inductive Request where
  | input (data : Bytes)
  | shutDown
  deriving DecidableEq, Repr

/-- One turn of a runner: the request, and the runner and its world before it. -/
structure Turn (σ : Type) where
  runner : Runner σ
  world : World σ
  request : Request

namespace Turn

/-- How the turn ends, and the runner and its world then. -/
def result (turn : Turn σ) : RunEnd × Runner σ × World σ :=
  match turn.request with
  | .input data => turn.runner.runOne data turn.world
  | .shutDown => turn.runner.shutDown turn.world

def left (turn : Turn σ) : World σ :=
  turn.result.2.2

/-- The turn is a call whose finding is reported, and this comes of making its reproducer. -/
def Makes (turn : Turn σ) (generated : Generated) : Prop :=
  ∃ data, turn.request = .input data ∧ (Visit.mk turn.runner turn.world data).Makes generated

end Turn

/-- The turns of a runner, each of which starts from where the one before it ended, however
it ended. -/
def Runner.turns (runner : Runner σ) (world : World σ) : List Request → List (Turn σ)
  | [] => []
  | request :: requests =>
    let turn : Turn σ := ⟨runner, world, request⟩
    turn :: turn.result.2.1.turns turn.left requests

/-- The steps of the shutdown of a runner, in their order. -/
def RunnerSpec.steps (spec : RunnerSpec σ) : List ShutdownStep :=
  .announced :: (spec.sinks.steps ++ spec.target.stopSteps)

theorem RunnerSpec.nodup_steps (spec : RunnerSpec σ) : spec.steps.Nodup := by
  rw [steps, Sinks.steps, Target.stopSteps]
  cases spec.sinks.recorder with
  | none => cases spec.target.tearDown <;> simp
  | some recorder =>
      cases spec.sinks.dump <;> cases spec.sinks.report <;> cases spec.target.tearDown <;> simp

/-- What a shutdown makes of the world that it was announced in: the sinks are flushed, the
target is stopped in what this leaves, and what was found in the tear-down hook is written. -/
def RunnerSpec.close (spec : RunnerSpec σ) (told : World σ) : List Finding × World σ :=
  let (host, tree) := spec.sinks.flush told.host told.tree
  let (ended, host) := spec.target.stop host
  let findings := stopFindings ended
  (findings,
    { told with
      host := host
      tree := tree
      emissions := told.emissions ++ findings.map (.finding .tearDown) })

theorem RunnerSpec.close_steps (spec : RunnerSpec σ) (told : World σ) :
    (spec.close told).2.host.steps =
      told.host.steps ++ (spec.sinks.steps ++ spec.target.stopSteps) := by
  rw [← List.append_assoc, ← Sinks.flush_steps spec.sinks told.host told.tree]
  exact spec.target.stop_steps _

theorem RunnerSpec.close_blocks (spec : RunnerSpec σ) (told : World σ) :
    (spec.close told).2.tearDownBlocks = told.tearDownBlocks ++ (spec.close told).1 := by
  have written (findings : List Finding) :
      (findings.map (Emission.finding .tearDown)).filterMap Emission.tearDown? = findings := by
    rw [List.filterMap_map]
    exact List.filterMap_some
  exact List.filterMap_append.trans (congrArg _ (written _))

/-- How a turn that shuts a runner down ends. Only a request to do so returns, and only if
nothing was found in the tear-down hook. -/
def Request.endAfter : Request → List Finding → RunEnd
  | .shutDown, [] => .returned
  | _, _ => .exited findingExitCode

/-- What is left for a runner to shut down is what its specification says. -/
def RunnerSpec.Awaits (spec : RunnerSpec σ) (runner : Runner σ) : Prop :=
  runner.shutdown = .pending spec.sinks spec.target.tearDown

namespace Runner

/-- The world in which the shutdown of a runner has been announced. -/
def tell (runner : Runner σ) (world : World σ) : World σ :=
  world.logged (.shuttingDown runner.distinctFindings)

variable {spec : RunnerSpec σ} {runner : Runner σ}

/-- A runner is shut down on request. -/
theorem shutDown_of_awaits (awaits : spec.Awaits runner) (world : World σ) :
    ∃ after : Runner σ, after.shutdown.done = true ∧
      runner.shutDown world = (Request.shutDown.endAfter (spec.close (runner.tell world)).1, after,
        (spec.close (runner.tell world)).2) := by
  obtain ⟨result, shutdown, done, ran, same⟩ := Shutdown.run_pending spec.sinks spec.target
    (runner.tell world).host (runner.tell world).tree
  have waiting : runner.shutdown.done = false := congrArg Shutdown.done awaits
  refine ⟨{ runner with shutdown := shutdown }, done, ?_⟩
  rw [shutDown, waiting, RunnerSpec.close]
  dsimp only [Bool.false_eq_true, if_false]
  rw [← same, awaits]
  dsimp only [tell] at ran ⊢
  rw [ran]
  cases result with
  | ok _ => simp [ShutdownFault.findings, Request.endAfter, World.logged]
  | error fault => rfl

/-- A runner is shut down when its budget is used up. -/
theorem conclude_of_awaits (awaits : spec.Awaits runner)
    (used : runner.budget.afterReport = .terminate) (world : World σ) (data : Bytes) :
    ∃ after : Runner σ, after.shutdown.done = true ∧
      runner.conclude world = ((Request.input data).endAfter (spec.close (runner.tell world)).1,
        after, (spec.close (runner.tell world)).2) := by
  obtain ⟨after, done, shut⟩ := shutDown_of_awaits awaits world
  refine ⟨after, done, ?_⟩
  rw [conclude, used, shut]
  cases (spec.close (runner.tell world)).1 <;> rfl

theorem shutDown_of_done (done : runner.shutdown.done = true) (world : World σ) :
    runner.shutDown world = (.returned, runner, world) := by
  rw [shutDown, done]
  rfl

theorem conclude_of_done (done : runner.shutdown.done = true)
    (used : runner.budget.afterReport = .terminate) (world : World σ) :
    runner.conclude world = (.exited findingExitCode, runner, world) := by
  rw [conclude, used, shutDown_of_done done]

end Runner

namespace Turn

/-- A turn that takes no step of a shutdown. Only if a reproducer cannot be made does it end
the process, and not with the code of a finding. -/
structure KeepsOpen (turn : Turn σ) : Prop where
  uneventful : turn.world.Uneventful turn.left
  exits : ∀ code, turn.result.1 = .exited code →
    code = faultExitCode ∧ ∃ fault, turn.Makes (.failed fault)

/-- The turn that shuts the runner down, which it announces in the world `told`. -/
structure Closes (spec : RunnerSpec σ) (turn : Turn σ) (told : World σ) : Prop where
  announced : told.host.steps = turn.world.host.steps ++ [.announced]
  left : turn.left = (spec.close told).2
  steps : turn.left.host.steps = turn.world.host.steps ++ spec.steps
  blocks : turn.left.tearDownBlocks = turn.world.tearDownBlocks ++ (spec.close told).1
  ending : turn.result.1 = turn.request.endAfter (spec.close told).1

/-- A turn that finds the runner shut down. It takes no further step of a shutdown, and a
request for one just returns. -/
structure FindsClosed (turn : Turn σ) : Prop where
  uneventful : turn.world.Uneventful turn.left
  returns : turn.request = .shutDown → turn.result.1 = .returned
  exits : ∀ code, turn.result.1 = .exited code →
    code = findingExitCode ∨
      code = faultExitCode ∧ ∃ fault, turn.Makes (.failed fault)

theorem Closes.of_result {spec : RunnerSpec σ} {turn : Turn σ} {runner after : Runner σ}
    {world : World σ} (uneventful : turn.world.Uneventful world)
    (same : turn.result = (turn.request.endAfter (spec.close (runner.tell world)).1, after,
      (spec.close (runner.tell world)).2)) :
    turn.Closes spec (runner.tell world) := by
  have announced : (runner.tell world).host.steps = turn.world.host.steps ++ [.announced] := by
    rw [← uneventful.steps]
    exact world.host.steps_logged _
  have left : turn.left = (spec.close (runner.tell world)).2 := congrArg (·.2.2) same
  refine ⟨announced, left, ?_, ?_, congrArg (·.1) same⟩
  · rw [left, spec.close_steps, announced, List.append_assoc]
    rfl
  · rw [left, spec.close_blocks, ← uneventful.blocks]
    rfl

/-- The first request to shut down shuts the runner down, unless an input did. -/
theorem closes_of_shutDown {spec : RunnerSpec σ} {turn : Turn σ}
    (awaits : spec.Awaits turn.runner) (asked : turn.request = .shutDown) :
    (∃ told, turn.Closes spec told) ∧ turn.result.2.1.shutdown.done = true := by
  obtain ⟨after, done, shut⟩ := Runner.shutDown_of_awaits awaits turn.world
  have same : turn.result = turn.runner.shutDown turn.world := by
    rw [result, asked]
  rw [shut, ← asked] at same
  refine ⟨⟨_, .of_result (.refl _) same⟩, ?_⟩
  rw [same]
  exact done

theorem KeepsOpen.of_result {turn : Turn σ} {ended : RunEnd} {after : Runner σ} {left : World σ}
    (same : turn.result = (ended, after, left)) (uneventful : turn.world.Uneventful left)
    (exits : ∀ code, ended = .exited code →
      code = faultExitCode ∧ ∃ fault, turn.Makes (.failed fault)) :
    turn.KeepsOpen := by
  constructor
  · rwa [Turn.left, same]
  · rwa [same]

/-- A turn for an input takes no step of a shutdown, unless it uses up the budget and then
comes to its conclusion. -/
theorem keepsOpen_or_concludes {turn : Turn σ} {data : Bytes} (asked : turn.request = .input data) :
    ∃ after left, after.shutdown = turn.runner.shutdown ∧ turn.world.Uneventful left ∧
      (turn.KeepsOpen ∧ turn.result.2.1 = after ∨
        after.budget.afterReport = .terminate ∧ turn.result = after.conclude left) := by
  have visited : turn.result = (Visit.mk turn.runner turn.world data).result := by
    rw [result, asked]
    rfl
  obtain ⟨after, left, kept, uneventful, ending⟩ :=
    (Visit.mk turn.runner turn.world data).exists_ending
  refine ⟨after, left, kept, uneventful, ?_⟩
  cases ending with
  | returned same =>
      have same := visited.trans same
      exact .inl ⟨.of_result same uneventful nofun, by rw [same]⟩
  | escaped payload same =>
      have same := visited.trans same
      exact .inl ⟨.of_result same uneventful nofun, by rw [same]⟩
  | failed fault makes same =>
      have same := visited.trans same
      refine .inl ⟨.of_result same uneventful ?_, by rw [same]⟩
      rintro code ⟨⟩
      exact ⟨rfl, fault, data, asked, makes⟩
  | concluded used same => exact .inr ⟨used, visited.trans same⟩

/-- Until the runner is shut down, a turn either leaves what is to be shut down as it was or
is the one that shuts the runner down. -/
theorem of_awaits {spec : RunnerSpec σ} {turn : Turn σ} (awaits : spec.Awaits turn.runner) :
    turn.KeepsOpen ∧ spec.Awaits turn.result.2.1 ∨
      (∃ told, turn.Closes spec told) ∧ turn.result.2.1.shutdown.done = true := by
  cases asked : turn.request with
  | shutDown => exact .inr (closes_of_shutDown awaits asked)
  | input data =>
      obtain ⟨after, left, kept, uneventful, keeps | concludes⟩ := keepsOpen_or_concludes asked
      · obtain ⟨keeps, rfl⟩ := keeps
        exact .inl ⟨keeps, kept.trans awaits⟩
      · obtain ⟨used, same⟩ := concludes
        obtain ⟨closed, done, concluded⟩ :=
          Runner.conclude_of_awaits (kept.trans awaits) used left data
        rw [concluded, ← asked] at same
        refine .inr ⟨⟨_, .of_result uneventful same⟩, ?_⟩
        rw [same]
        exact done

/-- Once the runner is shut down, it stays so. -/
theorem of_done {turn : Turn σ} (done : turn.runner.shutdown.done = true) :
    turn.FindsClosed ∧ turn.result.2.1.shutdown.done = true := by
  cases asked : turn.request with
  | shutDown =>
      have same : turn.result = (.returned, turn.runner, turn.world) := by
        rw [result, asked]
        exact Runner.shutDown_of_done done turn.world
      refine ⟨⟨?_, ?_, ?_⟩, ?_⟩
      · rw [Turn.left, same]
        exact .refl _
      · rw [same]
        exact fun _ => rfl
      · rw [same]
        nofun
      · rwa [same]
  | input data =>
      obtain ⟨after, left, kept, uneventful, keeps | concludes⟩ := keepsOpen_or_concludes asked
      · obtain ⟨keeps, rfl⟩ := keeps
        refine ⟨⟨keeps.uneventful, ?_, ?_⟩, kept ▸ done⟩
        · rw [asked]
          nofun
        · intro code exits
          exact .inr (keeps.exits code exits)
      · obtain ⟨used, same⟩ := concludes
        have done : after.shutdown.done = true := kept ▸ done
        rw [Runner.conclude_of_done done used] at same
        refine ⟨⟨?_, ?_, ?_⟩, ?_⟩
        · rwa [Turn.left, same]
        · rw [asked]
          nofun
        · rw [same]
          rintro code ⟨⟩
          exact .inl rfl
        · rwa [same]

end Turn

/-- Exactly one turn shuts the runner down. -/
def RunnerSpec.ClosesOnce (spec : RunnerSpec σ) (turns : List (Turn σ)) : Prop :=
  ∃ early closing late told, turns = early ++ closing :: late ∧
    (∀ turn ∈ early, turn.KeepsOpen) ∧ closing.Closes spec told ∧
    ∀ turn ∈ late, turn.FindsClosed

namespace RunnerSpec.ClosesOnce

variable {spec : RunnerSpec σ} {turn : Turn σ} {turns : List (Turn σ)}

theorem cons (keeps : turn.KeepsOpen) (once : spec.ClosesOnce turns) :
    spec.ClosesOnce (turn :: turns) := by
  obtain ⟨early, closing, late, told, rfl, before, closes, closed⟩ := once
  exact ⟨turn :: early, closing, late, told, rfl, List.forall_mem_cons.mpr ⟨keeps, before⟩,
    closes, closed⟩

theorem of_closes (closes : ∃ told, turn.Closes spec told)
    (closed : ∀ later ∈ turns, later.FindsClosed) : spec.ClosesOnce (turn :: turns) := by
  obtain ⟨told, closes⟩ := closes
  exact ⟨[], turn, turns, told, rfl, by simp, closes, closed⟩

end RunnerSpec.ClosesOnce

namespace Runner

variable {spec : RunnerSpec σ} {runner : Runner σ} {world : World σ}

theorem findsClosed_of_mem_turns (done : runner.shutdown.done = true) (world : World σ)
    (requests : List Request) : ∀ turn ∈ runner.turns world requests, turn.FindsClosed := by
  induction requests generalizing runner world with
  | nil => simp [turns]
  | cons request requests ih =>
      have first : (Turn.mk runner world request).FindsClosed ∧ _ := Turn.of_done done
      rw [turns]
      exact List.forall_mem_cons.mpr ⟨first.1, ih first.2 _⟩

/-- However a runner is asked, at most one turn shuts it down. -/
theorem turns_of_awaits (awaits : spec.Awaits runner) (world : World σ)
    (requests : List Request) :
    (∀ turn ∈ runner.turns world requests, turn.KeepsOpen) ∨
      spec.ClosesOnce (runner.turns world requests) := by
  -- `spec.Awaits` carries the induction up to the turn that closes; behind it nothing is
  -- left but that shutdown counts as done.
  induction requests generalizing runner world with
  | nil => simp [turns]
  | cons request requests ih =>
      have first : (Turn.mk runner world request).KeepsOpen ∧ _ ∨ _ := Turn.of_awaits awaits
      rw [turns]
      rcases first with ⟨keeps, awaits⟩ | ⟨closes, done⟩
      · rcases ih awaits _ with later | once
        · exact .inl (List.forall_mem_cons.mpr ⟨keeps, later⟩)
        · exact .inr (once.cons keeps)
      · exact .inr (.of_closes closes (findsClosed_of_mem_turns done _ requests))

/-- A runner that is asked to shut down in the end is shut down in exactly one turn. -/
theorem closesOnce_of_awaits (awaits : spec.Awaits runner) (world : World σ)
    (requests : List Request) :
    spec.ClosesOnce (runner.turns world (requests ++ [.shutDown])) := by
  induction requests generalizing runner world with
  | nil =>
      have last : (∃ told, (Turn.mk runner world .shutDown).Closes spec told) ∧ _ :=
        Turn.closes_of_shutDown awaits rfl
      exact .of_closes last.1 (findsClosed_of_mem_turns last.2 _ [])
  | cons request requests ih =>
      have first : (Turn.mk runner world request).KeepsOpen ∧ _ ∨ _ := Turn.of_awaits awaits
      rw [List.cons_append, turns]
      rcases first with ⟨keeps, awaits⟩ | ⟨closes, done⟩
      · exact (ih awaits _).cons keeps
      · exact .of_closes closes (findsClosed_of_mem_turns done _ _)

end Runner

namespace RunnerSpec

variable {spec : RunnerSpec σ} {start world : World σ}

/-- The same specification with other parties to a shutdown. -/
def withParties (engine : Engine) (recorder : Option CoverageRecorder)
    (tearDown : Option (TearDown σ)) (spec : RunnerSpec σ) : RunnerSpec σ :=
  { spec with
    engine := engine
    recorder := recorder
    target := { spec.target with tearDown := tearDown } }

/-- Where no runner is built, none of the parties to a shutdown has been asked anything. -/
theorem build_of_error {fault : RunnerFault} (failed : spec.build start = (.error fault, world))
    (engine : Engine) (recorder : Option CoverageRecorder) (tearDown : Option (TearDown σ)) :
    (spec.withParties engine recorder tearDown).build start = (.error fault, world) ∧
      world.tree = start.tree ∧ world.crashingInputs = start.crashingInputs := by
  have announced : (spec.announce start).tree = start.tree ∧
      (spec.announce start).crashingInputs = start.crashingInputs := by
    obtain ⟨host, same⟩ := spec.exists_announce_eq start
    rw [same]
    exact ⟨rfl, rfl⟩
  unfold build at failed ⊢
  dsimp only [withParties]
  split at failed
  · cases failed
    exact ⟨rfl, rfl, rfl⟩
  · cases failed
    exact ⟨rfl, rfl, rfl⟩
  · dsimp only at failed
    split at failed
    · next finding host started =>
      cases failed
      refine ⟨?_, announced.1, announced.2⟩
      have ran : (spec.withParties engine recorder tearDown).target.start spec.settings.targetArgs
        ((spec.withParties engine recorder tearDown).announce start).host = _ := started
      dsimp only [withParties] at ran
      rw [ran]
      rfl
    · cases failed

/-- A runner that has just been built has its whole shutdown before it. -/
theorem awaits_of_build {runner : Runner σ} (built : spec.build start = (.ok runner, world)) :
    spec.Awaits runner := by
  obtain ⟨_, tokens, _, rfl, _⟩ := build_spec built
  rfl

end RunnerSpec

/-- Where no runner is built, none of the parties to a shutdown is called. A runner that is
built shuts down at most once, however it is asked to run inputs and to shut down and however
its turns end, and exactly once if it is dropped in the end: every step of the shutdown is taken
in one turn, in their order, and no other turn takes any. Before this turn the process is asked
to end only where a reproducer could not be made. In this turn a finding of the tear-down hook
is written once, and it is asked to end once, be it for this finding or for that of an input. -/
theorem shutdown_once_in_order (spec : RunnerSpec σ) (start world : World σ) :
    spec.steps.Nodup ∧
      (∀ fault, spec.build start = (.error fault, world) →
        start.Uneventful world ∧ world.tree = start.tree ∧
          world.crashingInputs = start.crashingInputs ∧
          ∀ engine recorder tearDown,
            (spec.withParties engine recorder tearDown).build start = (.error fault, world)) ∧
      ∀ runner, spec.build start = (.ok runner, world) →
        start.Uneventful world ∧ ∀ requests : List Request,
          ((∀ turn ∈ runner.turns world requests, turn.KeepsOpen) ∨
            spec.ClosesOnce (runner.turns world requests)) ∧
          spec.ClosesOnce (runner.turns world (requests ++ [.shutDown])) := by
  have uneventful := spec.build_uneventful start
  refine ⟨spec.nodup_steps, ?_, ?_⟩
  · intro fault failed
    rw [failed] at uneventful
    obtain ⟨_, tree, asked⟩ := RunnerSpec.build_of_error failed .observing none none
    refine ⟨uneventful, tree, asked, ?_⟩
    intro engine recorder tearDown
    exact (RunnerSpec.build_of_error failed engine recorder tearDown).1
  · intro runner built
    rw [built] at uneventful
    have awaits := RunnerSpec.awaits_of_build built
    refine ⟨uneventful, ?_⟩
    intro requests
    exact ⟨Runner.turns_of_awaits awaits world requests,
      Runner.closesOnce_of_awaits awaits world requests⟩

/-- A target that panics on the octet `1` and whose tear-down hook fails. -/
def failsLate : RunnerSpec Unit where
  target :=
    { name := "demo::fails_late"
      entry := .bytes fun
        | 1 :: _ => .panic (.symbolic "one") (.str "one")
        | _ => .finish ()
      startup := none
      tearDown := some (.finish (.error ["disk full"]))
      writer := none
      channel := .shared }
  settings := { Settings.default with coverageDump := some "coverage.json" }
  engine := .observing
  recorder := some .shared
  normalizer := none

def failsEarly : RunnerSpec Unit :=
  { failsLate with settings := { failsLate.settings with keepGoing := 0 } }

/-- The second input of this run shuts the runner down, and dropping it does nothing more.
With settings that are not valid no hook is called. -/
theorem failsLate_closes : ∃ runner world,
    failsLate.build (.fresh () .empty) = (.ok runner, world) ∧
      failsLate.ClosesOnce (runner.turns world ([.input [2], .input [1]] ++ [.shutDown])) ∧
      (runner.turns world [.input [2], .input [1], .shutDown]).map
          (fun turn => (turn.left.host.steps, turn.left.tearDownBlocks.length)) =
        [([], 0), ([.announced, .dump, .tearDown], 1), ([.announced, .dump, .tearDown], 1)] ∧
      ∀ engine recorder tearDown,
        (failsEarly.withParties engine recorder tearDown).build (.fresh () .empty) =
          (.error (.settings .zeroKeepGoing), .fresh () .empty) := by
  have built : failsLate.build (.fresh () .empty) =
    (.ok (failsLate.runner []), (failsLate.build (.fresh () .empty)).2) := by rfl
  have refused : failsEarly.build (.fresh () .empty) =
    (.error (.settings .zeroKeepGoing), .fresh () .empty) := by rfl
  refine ⟨_, _, built, ?_, by decide +kernel, ?_⟩
  · exact (((shutdown_once_in_order failsLate _ _).2.2 _ built).2 [.input [2], .input [1]]).2
  · exact ((shutdown_once_in_order failsEarly _ _).2.1 _ refused).2.2.2

end FuzzHarness
