import FuzzHarness.Proofs.Runner.Feeding
import FuzzHarness.Proofs.Shutdown

/-!
# What happens between shutdowns

Building a runner takes no step of a shutdown, and neither does anything that is done for an
input until the budget is used up. Nor does any of it write a finding of a tear-down hook or
touch what is left to shut down.
-/

namespace FuzzHarness

variable {σ : Type}

/-- The finding of a tear-down hook that a write to the streams is about. -/
def Emission.tearDown? : Emission → Option Finding
  | .finding .tearDown found => some found
  | _ => none

namespace World

def tearDownBlocks (world : World σ) : List Finding :=
  world.emissions.filterMap Emission.tearDown?

/-- Between two worlds no step of a shutdown was taken and no finding of a tear-down hook
was written. -/
structure Uneventful (world after : World σ) : Prop where
  steps : after.host.steps = world.host.steps
  blocks : after.tearDownBlocks = world.tearDownBlocks

namespace Uneventful

variable {world between after : World σ}

theorem refl (world : World σ) : world.Uneventful world :=
  ⟨rfl, rfl⟩

theorem trans (first : world.Uneventful between) (second : between.Uneventful after) :
    world.Uneventful after :=
  ⟨second.steps.trans first.steps, second.blocks.trans first.blocks⟩

/-- Log events that are no step of a shutdown. -/
theorem logged (world : World σ) {event : Event} (other : event.step? = none) :
    world.Uneventful (world.logged event) :=
  ⟨world.host.steps_logged_of_none other, rfl⟩

/-- Writes that are not about a tear-down hook. -/
theorem of_emissions {own : List Emission} (other : own.filterMap Emission.tearDown? = [])
    (steps : after.host.steps = world.host.steps)
    (wrote : after.emissions = world.emissions ++ own) : world.Uneventful after := by
  refine ⟨steps, ?_⟩
  rw [tearDownBlocks, wrote, List.filterMap_append, other, List.append_nil]
  rfl

end Uneventful

end World

theorem Engine.describe_steps (engine : Engine) (input : Bytes) (world : World σ) :
    (engine.describe input world).host.steps = world.host.steps := by
  cases engine with
  | observing => rfl
  | standalone start =>
      rw [describe]
      dsimp only
      split
      · rfl
      · exact world.host.steps_logged_of_none rfl

namespace Runner

/-- Announcing a finding of an input is uneventful. -/
theorem announce_uneventful (runner : Runner σ) (classified : Classified) (input : Bytes)
    (world : World σ) : world.Uneventful (runner.announce classified input world) := by
  obtain ⟨_, own, _, wrote⟩ := runner.announce_spec classified input world
  apply World.Uneventful.of_emissions _ _ wrote
  · rw [List.filterMap_append, List.filterMap_map, reportBlock]
    split <;> simp [Emission.tearDown?]
  · rw [announce]
    apply (runner.engine.describe_steps _ _).trans
    split <;> rfl

theorem reproduce_uneventful (runner : Runner σ) (input : Bytes) (world : World σ) :
    world.Uneventful (runner.reproduce input world).2.2 :=
  ⟨runner.executor.generate_steps _ _ _ _, rfl⟩

theorem examine_uneventful (runner : Runner σ) (input : Bytes) (world : World σ) :
    world.Uneventful (runner.examine input world).2.2 :=
  ⟨runner.executor.execute_steps _ _, rfl⟩

end Runner

/-- The ways in which a call for an input ends: nothing is reported or the run goes on, the
target's own writer of reproducers panics or fails, or the budget is used up. -/
inductive Visit.Ending (visit : Visit σ) (after : Runner σ) (left : World σ) : Prop where
  | returned (same : visit.result = (.returned, after, left))
  | escaped (payload : Payload) (same : visit.result = (.escaped payload, after, left))
  | failed (fault : ArtifactFault) (makes : visit.Makes (.failed fault))
      (same : visit.result = (.exited faultExitCode, after, left))
  | concluded (used : after.budget.afterReport = .terminate)
      (same : visit.result = after.conclude left)

namespace Visit

variable {visit : Visit σ} {after : Runner σ} {left : World σ}

theorem Ending.of_conclude (same : visit.result = after.conclude left) :
    visit.Ending after left := by
  cases decision : after.budget.afterReport with
  | proceed => exact .returned (same.trans (Runner.conclude_proceed decision left))
  | terminate => exact .concluded decision same

/-- A finding that is reported is announced and reproduced before anything is shut down. -/
theorem Admits.exists_ending {classified : Classified} {offered : Runner σ}
    (admits : visit.Admits classified offered) :
    ∃ after left, after.shutdown = offered.shutdown ∧ visit.examined.2.Uneventful left ∧
      visit.Ending after left := by
  have kept : (visit.reproduced offered classified).2.1.shutdown = offered.shutdown := rfl
  have uneventful : visit.examined.2.Uneventful (visit.reproduced offered classified).2.2 :=
    (offered.announce_uneventful _ _ _).trans (offered.reproduce_uneventful _ _)
  have makes : visit.Makes (visit.reproduced offered classified).1 :=
    ⟨classified, offered, admits, rfl⟩
  have handled := admits.result_eq_handle
  have reproduced : offered.reproduce visit.input
    (offered.announce classified visit.input visit.examined.2) =
      visit.reproduced offered classified := rfl
  -- What comes next depends on what was made only: a writer that fails or panics keeps the
  -- budget from being looked at.
  rw [Runner.handle, reproduced] at handled
  rcases ran : visit.reproduced offered classified with ⟨generated, after, left⟩
  rw [ran] at kept uneventful makes handled
  cases generated with
  | artifact artifact => exact ⟨after, left, kept, uneventful, .of_conclude handled⟩
  | delegated => exact ⟨after, left, kept, uneventful, .of_conclude handled⟩
  | escaped payload => exact ⟨after, left, kept, uneventful, .escaped payload handled⟩
  | failed fault =>
      refine ⟨after, _, kept, ?_, .failed fault makes handled⟩
      exact uneventful.trans (.of_emissions rfl rfl rfl)

/-- A call for an input takes no step of a shutdown before the budget is used up. -/
theorem exists_ending (visit : Visit σ) :
    ∃ after left, after.shutdown = visit.runner.shutdown ∧ visit.world.Uneventful left ∧
      visit.Ending after left := by
  have examined : visit.world.Uneventful visit.examined.2 :=
    visit.runner.examine_uneventful visit.input visit.world
  cases found : visit.found with
  | none => exact ⟨visit.examined.1, _, rfl, examined, .returned (result_of_quiet found)⟩
  | some classified =>
      rcases passed : visit.examined.1.offer classified.token with ⟨admission, offered⟩
      have kept : offered.shutdown = visit.runner.shutdown := by
        obtain ⟨_, rfl, _⟩ := Runner.offer_spec passed
        rfl
      cases admission with
      | suppress =>
          exact ⟨offered, _, kept, examined.trans (.logged _ rfl),
            .returned (result_of_suppressed found passed)⟩
      | report =>
          obtain ⟨after, left, same, later, ending⟩ := Admits.exists_ending ⟨found, passed⟩
          exact ⟨after, left, same.trans kept, examined.trans later, ending⟩

end Visit

theorem Target.start_steps (target : Target σ) (arguments : List String) (host : Host σ) :
    (target.start arguments host).2.steps = host.steps := by
  rw [start]
  split
  · rfl
  · next code _ => exact code.invoked_steps _ _
  · next code _ => exact (code arguments).invoked_steps _ _

namespace RunnerSpec

/-- Announcing a run is a matter of the log. -/
theorem exists_announce_eq (spec : RunnerSpec σ) (world : World σ) :
    ∃ host, spec.announce world = { world with host := host } := by
  rw [announce]
  split <;> exact ⟨_, rfl⟩

theorem announce_uneventful (spec : RunnerSpec σ) (world : World σ) :
    world.Uneventful (spec.announce world) := by
  rw [announce]
  split
  · exact (World.Uneventful.logged world rfl).trans (.logged _ rfl)
  · exact .logged world rfl

theorem settle_steps (spec : RunnerSpec σ) (host : Host σ) :
    (spec.settle host).steps = host.steps := by
  rw [settle, Sinks.recordStartup]
  split
  · split <;> rfl
  · rfl

/-- Building a runner takes no step of a shutdown, whether it succeeds or not. -/
theorem build_uneventful (spec : RunnerSpec σ) (start : World σ) :
    start.Uneventful (spec.build start).2 := by
  have announced := spec.announce_uneventful start
  have started := spec.target.start_steps spec.settings.targetArgs (spec.announce start).host
  rw [build]
  split
  · exact .refl start
  · exact .refl start
  · dsimp only
    split
    · next same =>
      rw [same] at started
      exact announced.trans (.of_emissions rfl started rfl)
    · next same =>
      rw [same] at started
      exact announced.trans ⟨(spec.settle_steps _).trans started, rfl⟩

end RunnerSpec

end FuzzHarness
