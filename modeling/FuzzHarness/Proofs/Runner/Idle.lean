import FuzzHarness.Proofs.Runner.Feeding

/-!
# A runner between two inputs

Before every input of a run no report is pending, so that what the target is found to do
with the input is not owed to an earlier one. A writer of reproducers is target code that
runs outside the runs of the target and may leave a report behind, so the lemmas are about
targets without one.
-/

namespace FuzzHarness

variable {σ : Type}

theorem Engine.describe_reports (engine : Engine) (input : Bytes) (world : World σ) :
    (engine.describe input world).host.reports = world.host.reports := by
  cases engine with
  | observing => rfl
  | standalone start =>
      rw [describe]
      dsimp only
      split <;> rfl

theorem Runner.announce_reports (runner : Runner σ) (classified : Classified) (input : Bytes)
    (world : World σ) :
    (runner.announce classified input world).host.reports = world.host.reports := by
  rw [announce]
  apply (runner.engine.describe_reports _ _).trans
  split <;> rfl

/-- The runner decides by its specification, and no report is pending. -/
structure RunnerSpec.Idles (spec : RunnerSpec σ) (runner : Runner σ) (world : World σ) : Prop
    extends spec.Drives runner where
  quiet : world.host.reports.get spec.target.channel = none

namespace RunnerSpec.Idles

variable {spec : RunnerSpec σ} {visit : Visit σ} {runner : Runner σ} {world : World σ}

/-- A runner that has just been built is idle. -/
theorem of_build {start : World σ} (built : spec.build start = (.ok runner, world)) :
    spec.Idles runner world := by
  obtain ⟨positive, tokens, _, rfl, quiet⟩ := build_spec built
  exact ⟨spec.drives_runner positive tokens, quiet⟩

/-- After an input has been examined the runner is idle, whatever it was before. -/
theorem of_examined (drives : spec.Drives visit.runner) :
    spec.Idles visit.examined.1 visit.examined.2 where
  toDrives := drives.examined
  quiet := by
    obtain ⟨_, emptied⟩ := visit.runner.executor.execute_spec visit.input visit.world.host
    rw [drives.target] at emptied
    exact emptied

/-- Making a reproducer leaves the runner idle. -/
theorem reproduced (idles : spec.Idles runner visit.examined.2)
    (plain : spec.target.writer = none) (classified : Classified) :
    spec.Idles (visit.reproduced runner classified).2.1
      (visit.reproduced runner classified).2.2 where
  toDrives := idles.toDrives.reproduced classified
  quiet := by
    have told := runner.announce_reports classified visit.input visit.examined.2
    have made := @Executor.generate_reports _ runner.executor
    rw [idles.target] at made
    exact made plain (told ▸ idles.quiet) _ _ _

/-- A call that returns leaves the runner idle. -/
theorem after (drives : spec.Drives visit.runner) (plain : spec.target.writer = none)
    (returned : visit.result.1 = .returned) :
    spec.Idles visit.result.2.1 visit.result.2.2 := by
  have examined := of_examined drives
  cases found : visit.found with
  | none =>
      rw [Visit.result_of_quiet found]
      exact examined
  | some classified =>
      rcases passed : visit.examined.1.offer classified.token with ⟨admission, offered⟩
      have drives := examined.toDrives.offered passed
      cases admission with
      | suppress =>
          rw [Visit.result_of_suppressed found passed]
          exact ⟨drives, examined.quiet⟩
      | report =>
          have idles : spec.Idles offered visit.examined.2 := ⟨drives, examined.quiet⟩
          have reproduced := idles.reproduced plain classified
          have result := Visit.Admits.result_of_made ⟨found, passed⟩
            (Visit.reproduced_isMade (drives.target ▸ plain) classified)
          rw [result] at returned ⊢
          rw [Runner.conclude_of_returned reproduced.toDrives.pending returned]
          exact reproduced

/-- The runner is idle before every call of a run. -/
theorem of_mem_feed {start : World σ} (built : spec.build start = (.ok runner, world))
    (plain : spec.target.writer = none) {inputs : List Bytes}
    (mem : visit ∈ runner.feed world inputs) : spec.Idles visit.runner visit.world := by
  obtain ⟨before, after, place⟩ := List.append_of_mem mem
  exact @Runner.feed_induction _ (fun _ runner world => spec.Idles runner world)
    _ _ _ [] (of_build built)
    (fun _ _ _ idles returned => RunnerSpec.Idles.after idles.toDrives plain returned)
    _ _ _ place

end RunnerSpec.Idles

end FuzzHarness
