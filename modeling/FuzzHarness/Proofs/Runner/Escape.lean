import FuzzHarness.Proofs.Runner.Closing

/-!
# Panics that leave a runner

Entry code and tear-down hooks run in capture scopes, where their panics become findings. A
target's own writer of reproducers does not. It is called when a finding has been reported and
before the budget is looked at, so a panic of it leaves the runner with a finding that counts
and a decision that was not made. Nothing else that a target does can get out.
-/

namespace FuzzHarness

variable {σ : Type}

/-- The panic with which a call ended, if foreign code left it with one. -/
def RunEnd.escaped? : RunEnd → Option Payload
  | .escaped payload => some payload
  | _ => none

/-- The target's own writer panics when it is asked for a reproducer of the input just run. -/
def Executor.WriterPanics (executor : Executor σ) (directory : String) (input : Bytes)
    (host : Host σ) (payload : Payload) : Prop :=
  ∃ writer, executor.target.writer = some writer ∧
    ((writer directory (contentHash (executor.canonicalBytes input).1)).run
      ⟨host, some (executor.canonicalBytes input).2.cursor.reset⟩).1 = .unwound payload

/-- Making a reproducer lets through what the writer panics with, and nothing else. -/
theorem Executor.generate_eq_escaped_iff {executor : Executor σ} {directory : String}
    {input : Bytes} {host : Host σ} {tree : FileTree} {payload : Payload} :
    (executor.generate directory input host tree).1 = .escaped payload ↔
      executor.WriterPanics directory input host payload := by
  rw [WriterPanics]
  cases own : executor.target.writer with
  | none => simp [generate_of_writer_none own]
  | some writer =>
      have made := (generate_of_writer own directory input host tree).1
      rw [made]
      rcases ran : (writer directory (contentHash (executor.canonicalBytes input).1)).run
        ⟨host, some (executor.canonicalBytes input).2.cursor.reset⟩ with ⟨exit, session⟩
      cases exit with
      | finished value => cases value <;> simp [Generated.ofExit, ran]
      | unwound thrown => simp [Generated.ofExit, ran]

namespace Runner

theorem reproduce_eq_escaped_iff {runner : Runner σ} {input : Bytes} {world : World σ}
    {payload : Payload} : (runner.reproduce input world).1 = .escaped payload ↔
      runner.executor.WriterPanics runner.directory input world.host payload := by
  rw [← Executor.generate_eq_escaped_iff, reproduce]

/-- A tear-down hook that panics makes the runner ask for the end of the process. -/
@[simp] theorem shutDown_escaped? (runner : Runner σ) (world : World σ) :
    (runner.shutDown world).1.escaped? = none := by
  rw [shutDown]
  split
  · rfl
  · dsimp only
    split <;> rfl

@[simp] theorem conclude_escaped? (runner : Runner σ) (world : World σ) :
    (runner.conclude world).1.escaped? = none := by
  have shut := runner.shutDown_escaped? world
  rw [conclude]
  split
  · rfl
  · split
    · rfl
    · exact shut

/-- Shutting down leaves the executor alone. -/
theorem shutDown_executor (runner : Runner σ) (world : World σ) :
    (runner.shutDown world).2.1.executor = runner.executor := by
  rw [shutDown]
  split
  · rfl
  · dsimp only
    split <;> rfl

theorem conclude_executor (runner : Runner σ) (world : World σ) :
    (runner.conclude world).2.1.executor = runner.executor := by
  have shut := runner.shutDown_executor world
  rw [conclude]
  split
  · rfl
  · split
    · next same => rwa [same] at shut
    · exact shut

/-- A runner keeps its target, however the handling of a finding ends. -/
theorem handle_target (runner : Runner σ) (classified : Classified) (input : Bytes)
    (world : World σ) :
    (runner.handle classified input world).2.1.executor.target = runner.executor.target := by
  have reproduced : (runner.reproduce input (runner.announce classified input
      world)).2.1.executor.target = runner.executor.target := Executor.generate_target ..
  rw [handle]
  split
  · next made => rwa [made] at reproduced
  · next made => rwa [made] at reproduced
  · next made =>
    rw [made] at reproduced
    rwa [conclude_executor]

end Runner

namespace Visit

/-- The writer panics on the input of a call whose finding is reported, in what the engine
left when it was asked to describe the input. -/
def WriterPanics (visit : Visit σ) (classified : Classified) (offered : Runner σ)
    (payload : Payload) : Prop :=
  offered.executor.WriterPanics offered.directory visit.input
    (offered.announce classified visit.input visit.examined.2).host payload

/-- The budget decides how the call ends; it is the one that knows the reported finding. -/
def IsDecided (visit : Visit σ) (offered : Runner σ) : Prop :=
  ∃ (after : Runner σ) (left : World σ), after.budget = offered.budget ∧
    visit.result = after.conclude left

/-- The process is asked to end because no reproducer can be made. -/
def FailsToReproduce (visit : Visit σ) : Prop :=
  (∃ fault, visit.Makes (.failed fault)) ∧ visit.result.1 = .exited faultExitCode

/-- The call ends with the reported finding known to the budget, but before the budget decides
anything and before any step of a shutdown. -/
structure IsUndecided (visit : Visit σ) (offered : Runner σ) : Prop where
  budget : visit.result.2.1.budget = offered.budget
  shutdown : visit.result.2.1.shutdown = visit.runner.shutdown
  uneventful : visit.world.Uneventful visit.result.2.2

/-- How a call ends. A panic that leaves it is one of the writer, and it alone keeps the budget
from deciding after a report that has its reproducer. -/
structure EndsByLaw (visit : Visit σ) : Prop where
  escaped_iff : ∀ payload, visit.result.1.escaped? = some payload ↔
    ∃ classified offered, visit.Admits classified offered ∧
      visit.WriterPanics classified offered payload
  returns : (∀ classified offered, ¬visit.Admits classified offered) →
    visit.result.1 = .returned
  undecided : ∀ classified offered, visit.Admits classified offered →
    visit.result.1.escaped? ≠ none → visit.IsUndecided offered
  decided : ∀ classified offered, visit.Admits classified offered →
    visit.result.1.escaped? = none → visit.IsDecided offered ∨ visit.FailsToReproduce

variable {visit : Visit σ} {classified : Classified} {offered : Runner σ}

/-- A call that reports nothing returns. -/
theorem result_of_not_admits (silent : ∀ classified offered, ¬visit.Admits classified offered) :
    visit.result.1 = .returned := by
  cases found : visit.found with
  | none => rw [result_of_quiet found]
  | some classified =>
      rcases passed : visit.examined.1.offer classified.token with ⟨admission, offered⟩
      cases admission with
      | suppress => rw [result_of_suppressed found passed]
      | report => exact absurd ⟨found, passed⟩ (silent classified offered)

/-- The runner that admits a finding has its shutdown before it if the runner of the call has. -/
theorem Admits.shutdown (admits : visit.Admits classified offered) :
    offered.shutdown = visit.runner.shutdown := by
  obtain ⟨_, rfl, _⟩ := Runner.offer_spec admits.passed
  rfl

/-- The law of a call whose finding is reported speaks of that finding only. -/
theorem Admits.endsByLaw_of (admits : visit.Admits classified offered)
    (escaped : ∀ payload, visit.result.1.escaped? = some payload ↔
      visit.WriterPanics classified offered payload)
    (undecided : visit.result.1.escaped? ≠ none → visit.IsUndecided offered)
    (decided : visit.result.1.escaped? = none →
      visit.IsDecided offered ∨ visit.FailsToReproduce) : visit.EndsByLaw := by
  constructor
  · intro payload
    rw [escaped]
    constructor
    · exact fun panics => ⟨classified, offered, admits, panics⟩
    · rintro ⟨other, next, again, panics⟩
      obtain ⟨rfl, rfl⟩ := admits.unique again
      exact panics
  · exact fun silent => absurd admits (silent classified offered)
  · intro other next again
    obtain ⟨rfl, rfl⟩ := admits.unique again
    exact undecided
  · intro other next again
    obtain ⟨rfl, rfl⟩ := admits.unique again
    exact decided

/-- What was made of a reproducer tells how the call ends. -/
theorem Admits.endsByLaw (admits : visit.Admits classified offered) : visit.EndsByLaw := by
  have examined : visit.world.Uneventful visit.examined.2 :=
    visit.runner.examine_uneventful visit.input visit.world
  have later : visit.examined.2.Uneventful (visit.reproduced offered classified).2.2 :=
    (offered.announce_uneventful _ _ _).trans (offered.reproduce_uneventful _ _)
  have uneventful := examined.trans later
  have shutdown : (visit.reproduced offered classified).2.1.shutdown = visit.runner.shutdown :=
    admits.shutdown
  have budget : (visit.reproduced offered classified).2.1.budget = offered.budget := rfl
  have panics (payload : Payload) :
      visit.WriterPanics classified offered payload ↔
        (visit.reproduced offered classified).1 = .escaped payload :=
    Runner.reproduce_eq_escaped_iff.symm
  have makes : visit.Makes (visit.reproduced offered classified).1 :=
    ⟨classified, offered, admits, rfl⟩
  have ended := admits.result_eq_handle
  rw [Runner.handle, ← reproduced] at ended
  clear later
  generalize visit.reproduced offered classified = came at *
  obtain ⟨generated, after, left⟩ := came
  apply admits.endsByLaw_of
  · intro payload
    rw [panics, ended]
    cases generated with
    | artifact _ => simp
    | delegated => simp
    | failed _ => simp [RunEnd.escaped?]
    | escaped _ => simp [RunEnd.escaped?]
  · intro escaped
    cases generated with
    | escaped payload =>
        exact ⟨by rw [ended, budget], by rw [ended, shutdown], by rwa [ended]⟩
    | artifact artifact => simp [ended] at escaped
    | delegated => simp [ended] at escaped
    | failed fault => simp [ended, RunEnd.escaped?] at escaped
  · intro remains
    cases generated with
    | escaped payload => simp [ended, RunEnd.escaped?] at remains
    | artifact artifact => exact .inl ⟨after, left, budget, ended⟩
    | delegated => exact .inl ⟨after, left, budget, ended⟩
    | failed fault => exact .inr ⟨⟨fault, makes⟩, congrArg Prod.fst ended⟩

/-- Every call ends by the law, whatever has happened to its runner. -/
theorem endsByLaw (visit : Visit σ) : visit.EndsByLaw := by
  by_cases admits : ∃ classified offered, visit.Admits classified offered
  · obtain ⟨classified, offered, admits⟩ := admits
    exact admits.endsByLaw
  · have silent : ∀ classified offered, ¬visit.Admits classified offered := by
      simpa using admits
    have returned := result_of_not_admits silent
    constructor
    · simp [returned, silent, RunEnd.escaped?]
    · exact fun _ => returned
    · exact fun classified offered admits => absurd admits (silent classified offered)
    · exact fun classified offered admits => absurd admits (silent classified offered)

/-- A call keeps the target. -/
theorem result_target (visit : Visit σ) :
    visit.result.2.1.executor.target = visit.runner.executor.target := by
  have examined : visit.examined.1.executor.target = visit.runner.executor.target :=
    (Executor.execute_spec ..).1
  cases found : visit.found with
  | none =>
      rw [result_of_quiet found]
      exact examined
  | some classified =>
      rcases passed : visit.examined.1.offer classified.token with ⟨admission, offered⟩
      rw [← examined, ← executor_of_offered passed]
      cases admission with
      | suppress => rw [result_of_suppressed found passed]
      | report =>
          rw [Admits.result_eq_handle ⟨found, passed⟩]
          exact offered.handle_target ..

end Visit

/-- In every turn a runner has the target that it was built with. -/
theorem Runner.target_of_mem_turns {runner : Runner σ} {world : World σ}
    {requests : List Request} {turn : Turn σ} (mem : turn ∈ runner.turns world requests) :
    turn.runner.executor.target = runner.executor.target := by
  induction requests generalizing runner world with
  | nil => cases mem
  | cons request requests ih =>
      rcases List.mem_cons.mp mem with rfl | mem
      · rfl
      · rw [ih mem, Turn.result]
        cases request with
        | input data => exact Visit.result_target ⟨runner, world, data⟩
        | shutDown => exact congrArg Executor.target (runner.shutDown_executor world)

/-- However a runner is asked to run inputs and to shut down, and however its turns end, a panic
of foreign code leaves a call for an input if and only if the finding of the input is reported
and the target's own writer of reproducers panics on it. Such a call ends undecided: the finding
counts, but the budget is not looked at. Every other call returns or asks for the end of the
process, after a report by the decision of the budget or for a reproducer that failed. Requests
to shut down let nothing through. -/
theorem escaped_iff_writerPanics {spec : RunnerSpec σ} {start world : World σ}
    {runner : Runner σ} (built : spec.build start = (.ok runner, world))
    (requests : List Request) :
    ∀ turn ∈ runner.turns world requests,
      turn.runner.executor.target = spec.target ∧
      (turn.request = .shutDown → turn.result.1.escaped? = none) ∧
      ∀ data, turn.request = .input data →
        turn.result = (Visit.mk turn.runner turn.world data).result ∧
          (Visit.mk turn.runner turn.world data).EndsByLaw := by
  obtain ⟨_, tokens, _, rfl, _⟩ := RunnerSpec.build_spec built
  intro turn mem
  refine ⟨Runner.target_of_mem_turns mem, ?_, ?_⟩
  · intro asked
    rw [Turn.result, asked]
    exact turn.runner.shutDown_escaped? turn.world
  · intro data asked
    refine ⟨?_, Visit.endsByLaw _⟩
    rw [Turn.result, asked]
    rfl

/-- A target that panics on the octet `1` and on the octet `2`, and whose writer panics unless
the hash it gets is that of the input `2`. -/
def failsToWrite : RunnerSpec Unit where
  target :=
    { name := "demo::fails_to_write"
      entry := .bytes fun
        | 1 :: _ => .panic (.symbolic "one") (.str "one")
        | 2 :: _ => .panic (.symbolic "two") (.str "two")
        | _ => .finish ()
      startup := none
      tearDown := some (.panic (.symbolic "late") (.str "late"))
      writer := some fun _ hash =>
        if hash = contentHash [2] then .finish (.ok ())
        else .panic (.symbolic "writer") (.str "disk full")
      channel := .shared }
  settings := { Settings.default with keepGoing := 2 }
  engine := .observing
  recorder := none
  normalizer := none

/-- The first call is left by the panic of the writer, before the budget of two is looked at.
The second uses it up, and the panic of the tear-down hook does not leave it. -/
theorem failsToWrite_escapes : ∃ runner world,
    failsToWrite.build (.fresh () .empty) = (.ok runner, world) ∧
      ((runner.turns world [.input [1], .input [2], .input [3], .shutDown]).map fun turn =>
        (turn.result.1.escaped?, turn.left.host.steps.length)) =
          [(some (.str "disk full"), 0), (none, 2), (none, 2), (none, 2)] ∧
      (∃ classified offered, (Visit.mk runner world [1]).Admits classified offered ∧
        (Visit.mk runner world [1]).WriterPanics classified offered (.str "disk full") ∧
        (Visit.mk runner world [1]).IsUndecided offered) := by
  have built : failsToWrite.build (.fresh () .empty) =
    (.ok (failsToWrite.runner []), (failsToWrite.build (.fresh () .empty)).2) := by rfl
  obtain ⟨_, _, called⟩ := escaped_iff_writerPanics built [.input [1]] _ List.mem_cons_self
  obtain ⟨_, law⟩ := called [1] rfl
  have escaped : (Visit.mk (failsToWrite.runner []) (failsToWrite.build (.fresh () .empty)).2
      [1]).result.1.escaped? = some (.str "disk full") := by decide +kernel
  obtain ⟨classified, offered, admits, panics⟩ := (law.escaped_iff _).mp escaped
  refine ⟨_, _, built, by decide +kernel, classified, offered, admits, panics, ?_⟩
  apply law.undecided classified offered admits
  rw [escaped]
  exact Option.some_ne_none _

end FuzzHarness
