import FuzzHarness.Proofs.Files.Save
import FuzzHarness.Proofs.Runner.Closing
import FuzzHarness.Proofs.Runner.Idle

/-!
# What a report saves and prints

A report saves two files, the crashing input where the engine wants it and the reproducer, and
prints one finding. Shutting down behind it flushes the sinks and prints nothing more, if
nothing goes wrong in the tear-down hook.
-/

namespace FuzzHarness

variable {σ : Type}

/-- The finding of an input that a write to the streams is about. -/
def Emission.iteration? : Emission → Option Finding
  | .finding .iteration found => some found
  | _ => none

def World.printed (world : World σ) : List Finding :=
  world.emissions.filterMap Emission.iteration?

theorem World.mem_printed {world : World σ} {found : Finding} :
    found ∈ world.printed ↔ .finding .iteration found ∈ world.emissions := by
  rw [printed, List.mem_filterMap]
  constructor
  · rintro ⟨emission, mem, same⟩
    cases emission with
    | finding phase other =>
        cases phase <;> cases same
        exact mem
    | token _ => cases same
    | crashingInput => cases same
    | line _ => cases same
  · intro mem
    exact ⟨_, mem, rfl⟩

def Engine.writes (input : Bytes) : Engine → List (String × Bytes)
  | .observing => []
  | .standalone start => [(s!"{start}crash-{contentHash input}", input)]

theorem Engine.describe_tree (engine : Engine) (input : Bytes) (world : World σ) :
    (engine.describe input world).tree = world.tree.saveAll (engine.writes input) := by
  cases engine with
  | observing => rfl
  | standalone start =>
      rw [writes, FileTree.saveAll_cons, FileTree.saveAll_nil, FileTree.save, describe]
      dsimp only
      split
      · next wrote =>
        rw [wrote]
        rfl
      · next wrote =>
        rw [wrote]
        rfl

/-- What is saved in a directory for a reproducer. -/
def Artifact.file (artifact : Artifact) (directory : String) : String × Bytes :=
  (artifact.pathIn directory, Text.Utf8.ofString artifact.render)

theorem Executor.writeArtifact_saves (artifact : Artifact) (directory : String) (host : Host σ)
    (tree : FileTree) :
    (writeArtifact artifact directory host tree).2 =
      tree.saveAll [artifact.file directory] := by
  rw [FileTree.saveAll_cons, FileTree.saveAll_nil, Artifact.file]
  dsimp only
  cases leads : tree.destination (artifact.pathIn directory) with
  | ok place => rw [FileTree.save_of_destination leads, writeArtifact_tree leads]
  | error fault =>
      rw [FileTree.save_of_error leads]
      unfold writeArtifact Artifact.writeTo FileTree.write
      dsimp only
      rw [leads]
      rfl

/-- The reproducer that is made is the one that is saved. -/
theorem Executor.generate_saves {executor : Executor σ} (plain : executor.target.writer = none)
    {directory : String} {input : Bytes} {host : Host σ} {tree : FileTree} {artifact : Artifact}
    (made : (executor.generate directory input host tree).1 = .artifact artifact) :
    (executor.generate directory input host tree).2.2.2 =
      tree.saveAll [artifact.file directory] := by
  rw [generate_of_writer_none plain] at made ⊢
  dsimp only at made ⊢
  rw [writeArtifact_saves, Generated.artifact.inj made]

theorem Runner.announce_tree (runner : Runner σ) (classified : Classified) (input : Bytes)
    (world : World σ) :
    (runner.announce classified input world).tree =
      world.tree.saveAll (runner.engine.writes input) := by
  rw [announce]
  split <;> exact runner.engine.describe_tree input _

/-- Of findings, a report prints its own. -/
theorem Runner.announce_printed (runner : Runner σ) (classified : Classified) (input : Bytes)
    (world : World σ) :
    (runner.announce classified input world).printed = world.printed ++ [classified.finding] := by
  obtain ⟨_, own, _, wrote⟩ := runner.announce_spec classified input world
  have lines : (own.map Emission.line).filterMap Emission.iteration? = [] := by
    simp [Emission.iteration?]
  rw [World.printed, wrote, List.filterMap_append, List.filterMap_append, lines, List.append_nil,
    reportBlock]
  cases runner.classifier.dedup <;> rfl

/-- What is saved for an input that is reported with a reproducer. -/
def RunnerSpec.writes (spec : RunnerSpec σ) (input : Bytes) (artifact : Artifact) :
    List (String × Bytes) :=
  spec.engine.writes input ++ [artifact.file spec.settings.reproducerPath]

/-- The world behind a report, before the run is concluded. -/
structure Visit.Leaves (visit : Visit σ) (spec : RunnerSpec σ) (classified : Classified)
    (artifact : Artifact) (left : World σ) : Prop where
  tree : left.tree = visit.world.tree.saveAll (spec.writes visit.input artifact)
  printed : left.printed = visit.world.printed ++ [classified.finding]
  steps : left.host.steps = visit.world.host.steps

theorem Visit.leaves_reproduced {spec : RunnerSpec σ} {visit : Visit σ} {offered : Runner σ}
    (drives : spec.Drives offered) (plain : spec.target.writer = none) {classified : Classified}
    {artifact : Artifact} (made : (visit.reproduced offered classified).1 = .artifact artifact) :
    visit.Leaves spec classified artifact (visit.reproduced offered classified).2.2 where
  tree := by
    have announced := offered.announce_tree classified visit.input visit.examined.2
    have saved := Executor.generate_saves (drives.target.symm ▸ plain) made
    rw [RunnerSpec.writes, FileTree.saveAll_append, ← drives.directory, ← drives.engine]
    exact saved.trans
      (congrArg (fun tree => tree.saveAll [artifact.file offered.directory]) announced)
  printed := offered.announce_printed classified visit.input visit.examined.2
  steps := by
    have examined := visit.runner.examine_uneventful visit.input visit.world
    have announced := offered.announce_uneventful classified visit.input visit.examined.2
    have reproduced := offered.reproduce_uneventful visit.input
      (offered.announce classified visit.input visit.examined.2)
    exact ((examined.trans announced).trans reproduced).steps

/-- Nothing goes wrong when the target is stopped. -/
def Target.StopsClean (target : Target σ) : Prop :=
  ∀ host, stopFindings (target.stop host).1 = []

/-- The world behind a shutdown. -/
structure World.Closed (spec : RunnerSpec σ) (world closed : World σ) : Prop where
  tree : ∃ host : Host σ, closed.tree = (spec.sinks.flush host world.tree).2
  emissions : closed.emissions = world.emissions
  steps : closed.host.steps = world.host.steps ++ spec.steps

namespace Runner

variable {spec : RunnerSpec σ} {runner : Runner σ}

theorem closed_tell (clean : spec.target.StopsClean) (runner : Runner σ) (world : World σ) :
    (spec.close (runner.tell world)).1 = [] ∧
      world.Closed spec (spec.close (runner.tell world)).2 := by
  have silent : (spec.close (runner.tell world)).1 = [] := clean _
  refine ⟨silent, ⟨_, rfl⟩, ?_, ?_⟩
  · change world.emissions ++ (spec.close (runner.tell world)).1.map (.finding .tearDown) = _
    rw [silent]
    exact List.append_nil _
  · have announced : (runner.tell world).host.steps = world.host.steps ++ [.announced] :=
      world.host.steps_logged _
    rw [spec.close_steps, announced, List.append_assoc]
    rfl

theorem shutDown_of_clean (clean : spec.target.StopsClean) (awaits : spec.Awaits runner)
    (world : World σ) :
    ∃ after closed, runner.shutDown world = (.returned, after, closed) ∧
      world.Closed spec closed := by
  obtain ⟨silent, closed⟩ := closed_tell clean runner world
  obtain ⟨after, _, shut⟩ := shutDown_of_awaits awaits world
  rw [silent] at shut
  exact ⟨after, _, shut, closed⟩

theorem conclude_of_clean (clean : spec.target.StopsClean) (awaits : spec.Awaits runner)
    (used : runner.budget.afterReport = .terminate) (world : World σ) :
    ∃ after closed, runner.conclude world = (.exited findingExitCode, after, closed) ∧
      world.Closed spec closed := by
  obtain ⟨_, closed⟩ := closed_tell clean runner world
  obtain ⟨after, _, concluded⟩ := conclude_of_awaits awaits used world []
  exact ⟨after, _, concluded, closed⟩

end Runner

end FuzzHarness
