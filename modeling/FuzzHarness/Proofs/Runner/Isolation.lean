import FuzzHarness.Proofs.Runner.Feeding
import FuzzHarness.Proofs.Target.Deeds

/-!
# Isolated iterations

Three things outlive an iteration: the cursor with its input, the slot for reports, and the
record of the last panic. Feeding an input replaces the first, a capture scope starts without
the last, and every operation of an executor leaves the slot empty. So a target that makes
nothing of its variables does with an input what it does in a new executor, whatever was run,
recorded or written before, and whatever was reported before its runner was built.
-/

namespace FuzzHarness

variable {σ : Type}

/-- What running an input shows: the outcome, and the notes, log events and coverage points
that it adds. -/
structure Trial where
  outcome : Outcome
  notes : List Note
  log : List Event
  covered : List UInt32
  deriving DecidableEq, Repr

/-- A run shows this much in surroundings that it leaves in such a way. -/
structure Trial.ShownBy (trial : Trial) (before : Host σ) (outcome : Outcome)
    (after : Host σ) : Prop where
  outcome : outcome = trial.outcome
  notes : after.notes = before.notes ++ trial.notes
  log : after.log = before.log ++ trial.log
  covered : ∀ id, id ∈ after.coverage.covered ↔ id ∈ before.coverage.covered ∨ id ∈ trial.covered

namespace Target

/-- What a new executor that stands on this stack shows for an input in new surroundings. -/
def trial (target : Target σ) (input : Bytes) (stack : List Frame) (memory : σ) : Trial :=
  let (outcome, _, host) :=
    (Executor.ofTarget target).execute input ((Host.fresh memory).onStack stack)
  ⟨outcome, host.notes, host.log, host.coverage.covered⟩

/-- What the target does is a function of its input: the variables that a new executor finds
make no difference. -/
def IgnoresVariables (target : Target σ) : Prop :=
  ∀ (input : Bytes) (stack : List Frame) (memory other : σ),
    target.trial input stack memory = target.trial input stack other

/-- A run of entry code shows one thing wherever no report is pending. -/
theorem exists_shownBy_iterate {P : Type} [Provider P] (target : Target σ) (way : Way)
    (code : Code σ Unit) (stack : List Frame) (memory : σ) (provider : Option P) :
    ∃ trial : Trial, ∀ host : Host σ, host.memory = memory → host.stack = stack →
      host.reports.get target.channel = none →
        trial.ShownBy host (target.iterate way code ⟨host, provider⟩).1
          (target.iterate way code ⟨host, provider⟩).2.host := by
  obtain ⟨result, deeds, after, record, left, invoked⟩ :=
    code.exists_invoked way memory stack provider
  let fresh : Host σ := (Host.fresh memory).onStack stack
  refine ⟨⟨(target.iterate way code ⟨fresh, provider⟩).1, deeds.filterMap Deed.note?,
    deeds.filterMap Deed.event?, deeds.filterMap Deed.mark?⟩, ?_⟩
  intro host same there quiet
  have slots : host.reports.get target.channel = fresh.reports.get target.channel := by
    rw [quiet]
    cases target.channel <;> rfl
  refine ⟨?_, ?_, ?_, ?_⟩
  · rw [iterate, iterate, invoked host same there, invoked fresh rfl rfl]
    exact congrArg (Outcome.resolve _) (Host.get_reports_addingAll slots deeds)
  · rw [iterate, invoked host same there]
    exact Host.addingAll_notes host deeds
  · rw [iterate, invoked host same there]
    exact Host.addingAll_log host deeds
  · intro id
    rw [iterate, invoked host same there]
    exact Host.mem_covered_addingAll host deeds

/-- What an executor has run before makes no difference to what it shows for an input. -/
theorem exists_shownBy_execute (target : Target σ) (input : Bytes) (stack : List Frame)
    (memory : σ) :
    ∃ trial : Trial, ∀ (executor : Executor σ) (host : Host σ), executor.target = target →
      host.memory = memory → host.stack = stack → host.reports.get target.channel = none →
        trial.ShownBy host (executor.execute input host).1 (executor.execute input host).2.2 := by
  cases entry : target.entry with
  | bytes code =>
      obtain ⟨trial, shown⟩ := target.exists_shownBy_iterate (.execute .bytes) (code input)
        stack memory (none : Option Cursor)
      refine ⟨trial, ?_⟩
      rintro executor host rfl same there quiet
      rw [Executor.execute, entry]
      exact shown host same there quiet
  | provider code =>
      obtain ⟨trial, shown⟩ := target.exists_shownBy_iterate (.execute .provider) code
        stack memory (some (Cursor.ofBytes input))
      refine ⟨trial, ?_⟩
      rintro executor host rfl same there quiet
      rw [Executor.execute, entry]
      exact shown host same there quiet

/-- An executor shows for an input what a new one on its stack does. -/
theorem shownBy_execute {executor : Executor σ} {host : Host σ}
    (quiet : host.reports.get executor.target.channel = none) (input : Bytes) :
    (executor.target.trial input host.stack host.memory).ShownBy host
      (executor.execute input host).1 (executor.execute input host).2.2 := by
  obtain ⟨trial, shown⟩ :=
    executor.target.exists_shownBy_execute input host.stack host.memory
  let fresh : Host σ := (Host.fresh host.memory).onStack host.stack
  have empty : fresh.reports.get executor.target.channel = none := by
    cases executor.target.channel <;> rfl
  have new := shown (.ofTarget executor.target) fresh rfl rfl rfl empty
  have used := shown executor host rfl rfl rfl quiet
  refine ⟨used.outcome.trans new.outcome.symm, ?_, ?_, ?_⟩
  · rw [used.notes, ← List.nil_append trial.notes]
    exact congrArg _ new.notes.symm
  · rw [used.log, ← List.nil_append trial.log]
    exact congrArg _ new.log.symm
  · intro id
    have marked := (new.covered id).trans (or_iff_right List.not_mem_nil)
    exact (used.covered id).trans (or_congr_right marked.symm)

end Target

/-- What an executor can be asked to do. -/
inductive Operation where
  | execute (input : Bytes)
  | canonicalBytes (input : Bytes)
  | record
  | handOver (directory contentHash : String)
  | generate (directory : String) (input : Bytes)
  deriving DecidableEq, Repr

/-- An executor with its surroundings and the files. -/
structure Bench (σ : Type) where
  executor : Executor σ
  host : Host σ
  tree : FileTree

namespace Bench

/-- Do what is asked, whatever comes of it. -/
def perform (bench : Bench σ) : Operation → Bench σ
  | .execute input =>
    let (_, executor, host) := bench.executor.execute input bench.host
    { bench with executor := executor, host := host }
  | .canonicalBytes input =>
    let (_, executor) := bench.executor.canonicalBytes input
    { bench with executor := executor }
  | .record =>
    let (_, executor, host) := bench.executor.record bench.host
    { bench with executor := executor, host := host }
  | .handOver directory contentHash =>
    let (_, executor, host) := bench.executor.handOver directory contentHash bench.host
    { bench with executor := executor, host := host }
  | .generate directory input =>
    let (_, executor, host, tree) :=
      bench.executor.generate directory input bench.host bench.tree
    ⟨executor, host, tree⟩

def performAll (bench : Bench σ) (history : List Operation) : Bench σ :=
  history.foldl perform bench

/-- Where a history of operations on a target starts: with a new executor while no report is
pending, or with the executor of a runner as it is built, whatever was reported until then. -/
inductive Starts (target : Target σ) : Bench σ → Prop where
  | new (host : Host σ) (tree : FileTree) (quiet : host.reports.get target.channel = none) :
      Starts target ⟨.ofTarget target, host, tree⟩
  | built {spec : RunnerSpec σ} (same : spec.target = target) {start world : World σ}
      {runner : Runner σ} (built : spec.build start = (.ok runner, world)) :
      Starts target ⟨runner.executor, world.host, world.tree⟩

/-- An executor of the target, with no report pending. -/
structure Settled (target : Target σ) (bench : Bench σ) : Prop where
  runs : bench.executor.target = target
  quiet : bench.host.reports.get target.channel = none

variable {target : Target σ} {bench : Bench σ}

theorem Starts.settled (starts : bench.Starts target) : bench.Settled target := by
  cases starts with
  | new host tree quiet => exact ⟨rfl, quiet⟩
  | built same built =>
      obtain ⟨_, tokens, _, rfl, quiet⟩ := RunnerSpec.build_spec built
      subst same
      exact ⟨rfl, quiet⟩

theorem Settled.perform (settled : bench.Settled target) (silent : target.WriterStaysQuiet)
    (operation : Operation) : (bench.perform operation).Settled target := by
  obtain ⟨rfl, quiet⟩ := settled
  cases operation with
  | execute input =>
      obtain ⟨kept, left⟩ := bench.executor.execute_spec input bench.host
      exact ⟨kept, left⟩
  | canonicalBytes input => exact ⟨bench.executor.canonicalBytes_target input, quiet⟩
  | record => exact ⟨bench.executor.record_target bench.host, Executor.record_reports quiet⟩
  | handOver directory contentHash =>
      exact ⟨bench.executor.handOver_target directory contentHash bench.host,
        Executor.handOver_reports silent quiet directory contentHash⟩
  | generate directory input =>
      exact ⟨bench.executor.generate_target directory input bench.host bench.tree,
        Executor.generate_quiet silent quiet directory input bench.tree⟩

theorem Settled.performAll (settled : bench.Settled target) (silent : target.WriterStaysQuiet)
    (history : List Operation) : (bench.performAll history).Settled target := by
  induction history generalizing bench with
  | nil => exact settled
  | cons operation history ih => exact ih (settled.perform silent operation)

/-- After any history of operations, running an input shows what it shows in a new executor on
the same stack, and nothing else; and it leaves no report pending. So nothing that came before
the run is taken for a result of it. -/
theorem execute_isolated (steady : target.IgnoresVariables) (silent : target.WriterStaysQuiet)
    (starts : bench.Starts target) (history : List Operation) (input : Bytes) (memory : σ) :
    let before := bench.performAll history
    let run := before.executor.execute input before.host
    (target.trial input before.host.stack memory).ShownBy before.host run.1 run.2.2 ∧
      run.2.2.reports.get target.channel = none := by
  obtain ⟨rfl, quiet⟩ := starts.settled.performAll silent history
  intro before run
  rw [steady input before.host.stack memory before.host.memory]
  exact ⟨Target.shownBy_execute quiet input, (Executor.execute_spec _ _ _).2⟩

end Bench

/-- A target in provider mode that counts in its variables, reports and panics at once for one
input and panics for another, whose startup hook reports and whose writer draws. -/
def tracing : RunnerSpec Nat where
  target :=
    { name := "demo::tracing"
      entry := .provider (.store 0 (.draw .u8 fun value =>
        if value = some (.u8 1) then
          .report .own (.bare "Reported" "by the target") (.panic (.symbolic "one") (.str "one"))
        else if value = some (.u8 2) then
          .store 7 (.panic (.symbolic "two") (.str "two"))
        else .load fun count => .note (.remark (toString count)) (.finish ())))
      startup := some (.plain (.report .own (.bare "Reported" "at the start") (.finish ())))
      tearDown := none
      writer := some fun _ _ => .draw .u8 fun _ => .finish (.ok ())
      channel := .own }
  settings := Settings.default
  engine := .observing
  recorder := none
  normalizer := none

/-- Operations that leave a panic on record, a counted variable and a cursor used up. -/
def tracingHistory : List Operation :=
  [.execute [1], .record, .generate "." [1], .execute [2], .canonicalBytes [2],
    .handOver "." "00", .record]

theorem tracing_isolated :
    tracing.target.IgnoresVariables ∧ tracing.target.WriterStaysQuiet ∧
      ∃ runner world, tracing.build (.fresh 5 .empty) = (.ok runner, world) ∧
        let before := (Bench.mk runner.executor world.host world.tree).performAll tracingHistory
        let run := before.executor.execute [0] before.host
        run.1 = .none ∧ run.2.2.notes = before.host.notes ++ [.remark "0"] ∧
          run.2.2.reports.get .own = none := by
  have built : tracing.build (.fresh 5 .empty) =
    (.ok (tracing.runner []), (tracing.build (.fresh 5 .empty)).2) := rfl
  have steady : tracing.target.IgnoresVariables := fun _ _ _ _ => rfl
  have silent : tracing.target.WriterStaysQuiet := by
    intro writer own directory hash host provider quiet
    obtain rfl := Option.some.inj own
    cases provider with
    | none => exact quiet
    | some cursor => exact quiet
  obtain ⟨shown, empty⟩ :=
    Bench.execute_isolated steady silent (.built rfl built) tracingHistory [0] 0
  have trial (stack : List Frame) : (tracing.target.trial [0] stack 0).outcome = .none ∧
      (tracing.target.trial [0] stack 0).notes = [.remark "0"] := by
    refine ⟨rfl, ?_⟩
    change [Note.remark (toString 0)] = _
    decide
  refine ⟨steady, silent, _, _, built, shown.outcome.trans (trial _).1, ?_, empty⟩
  exact shown.notes.trans (congrArg _ (trial _).2)

end FuzzHarness
