import FuzzHarness.Reproducer.Run
import FuzzHarness.Shutdown

/-!
# What the log tells of a shutdown

A shutdown announces itself, writes the coverage sinks that are set and enters the tear-down
hook, and the log tells of each of these steps. Target code has no access to the log, and what
capture scopes and reproducers log is no such step. So whatever runs in between, the steps in
the log are those of shutdowns.
-/

namespace FuzzHarness

inductive ShutdownStep where
  | announced
  | dump
  | report
  | tearDown
  deriving DecidableEq, Repr

/-- The step of a shutdown that an event tells of. A sink was written also if this failed. -/
def Event.step? : Event → Option ShutdownStep
  | .shuttingDown _ => some .announced
  | .dumpWritten _ _ => some .dump
  | .dumpFailed _ => some .dump
  | .reportWritten _ => some .report
  | .reportFailed _ => some .report
  | .tearingDown => some .tearDown
  | _ => none

namespace Host

variable {σ : Type}

def steps (host : Host σ) : List ShutdownStep :=
  host.log.filterMap Event.step?

theorem steps_logged (event : Event) (host : Host σ) :
    (host.logged event).steps = host.steps ++ event.step?.toList := by
  rw [steps, logged, List.filterMap_append, ← steps]
  cases event <;> rfl

theorem steps_logged_of_none (host : Host σ) {event : Event} (other : event.step? = none) :
    (host.logged event).steps = host.steps := by
  rw [steps_logged, other]
  exact List.append_nil _

end Host

theorem Session.filterMap_captureEvents (record : Option Site) (payload : Payload) :
    (captureEvents record payload).filterMap Event.step? = [] := by
  cases payload <;> cases record <;> rfl

theorem Session.leave_steps {σ ρ P : Type} (outer : Bool) (exit : Exit ρ)
    (session : Session σ P) :
    (leave outer (exit, session)).2.host.steps = session.host.steps := by
  cases exit with
  | finished value => rfl
  | unwound payload =>
      show (session.host.log ++ captureEvents _ payload).filterMap Event.step? = _
      rw [List.filterMap_append, filterMap_captureEvents, List.append_nil]
      rfl

namespace Code

variable {σ ρ P : Type} [Provider P]

/-- Target code takes no step of a shutdown. -/
theorem run_steps (code : Code σ ρ) (session : Session σ P) :
    (code.run session).2.host.steps = session.host.steps := by
  -- Bodies and continuations run in changed surroundings, but with the log as it is.
  induction code generalizing session with
  | finish value => rfl
  | load next ih => exact ih _ session
  | store memory next ih => exact ih _
  | draw call next ih =>
      rw [run]
      split
      · exact ih none session
      · split
        · next value provider _ => exact ih (some value) { session with provider := some provider }
        · rfl
  | note entry next ih => exact ih _
  | mark id next ih => exact ih _
  | report channel finding next ih => exact ih _
  | stack next ih => exact ih _ session
  | panic site payload => rfl
  | resume payload => rfl
  | guard body next bodyIh nextIh => exact (nextIh _ _).trans (bodyIh session)
  | capture body next bodyIh nextIh =>
      apply (nextIh _ _).trans
      apply (Session.leave_steps _ _ _).trans
      exact bodyIh (session.withScope .entered)
  | thread body next bodyIh nextIh =>
      apply (nextIh _ _).trans
      exact bodyIh ⟨session.host.onNewThread, none⟩

/-- Nor does leaving its capture scope. -/
theorem invoked_steps (way : Way) (code : Code σ ρ) (session : Session σ P) :
    (code.invoked way session).2.host.steps = session.host.steps :=
  (Session.leave_steps _ _ _).trans (code.run_steps _)

end Code

theorem Target.iterate_steps {σ P : Type} [Provider P] (target : Target σ) (way : Way)
    (code : Code σ Unit) (session : Session σ P) :
    (target.iterate way code session).2.host.steps = session.host.steps :=
  code.invoked_steps way session

namespace Executor

variable {σ : Type}

theorem execute_steps (executor : Executor σ) (input : Bytes) (host : Host σ) :
    (executor.execute input host).2.2.steps = host.steps := by
  rw [execute]
  split
  · exact Target.iterate_steps _ _ _ _
  · exact Target.iterate_steps _ _ _ _

theorem record_steps (executor : Executor σ) (host : Host σ) :
    (executor.record host).2.2.steps = host.steps := by
  rw [record]
  split
  · rfl
  · exact Target.iterate_steps _ _ _ _

theorem handOver_steps (executor : Executor σ) (directory hash : String) (host : Host σ) :
    (executor.handOver directory hash host).2.2.steps = host.steps := by
  rw [handOver]
  split
  · rfl
  · exact Code.run_steps _ _

theorem payload_steps (executor : Executor σ) (octets : Bytes) (host : Host σ) :
    (executor.payload octets host).2.2.steps = host.steps := by
  have recorded := executor.record_steps host
  rw [payload]
  split
  · next same =>
    rw [same] at recorded
    dsimp only
    split
    · exact recorded
    · exact (Host.steps_logged_of_none _ rfl).trans recorded
  · next same => rwa [same] at recorded

theorem writeArtifact_steps (artifact : Artifact) (directory : String) (host : Host σ)
    (tree : FileTree) : (writeArtifact artifact directory host tree).1.steps = host.steps := by
  unfold writeArtifact
  split
  · exact host.steps_logged_of_none rfl
  · exact host.steps_logged_of_none rfl

/-- Making a reproducer takes no step of a shutdown. -/
theorem generate_steps (executor : Executor σ) (directory : String) (input : Bytes)
    (host : Host σ) (tree : FileTree) :
    (executor.generate directory input host tree).2.2.1.steps = host.steps := by
  rw [generate]
  rcases executor.canonicalBytes input with ⟨octets, fed⟩
  have handed := fed.handOver_steps directory (contentHash octets) host
  dsimp only
  split
  · next same => rwa [same] at handed
  · next same => rwa [same] at handed
  · next same => rwa [same] at handed
  · next same =>
    rw [same] at handed
    dsimp only at handed ⊢
    rw [writeArtifact_steps, payload_steps, handed]

end Executor

namespace Sinks

variable {σ : Type}

/-- The steps that flushing takes: one for each file that is set, if there is a recorder. -/
def steps (sinks : Sinks) : List ShutdownStep :=
  match sinks.recorder with
  | none => []
  | some _ =>
    (sinks.dump.map fun _ => .dump).toList ++ (sinks.report.map fun _ => .report).toList

theorem askDump_steps (recorder : CoverageRecorder) (ids : List UInt32) (path : String)
    (host : Host σ) (tree : FileTree) :
    (askDump recorder ids path host tree).2.1.steps = host.steps := by
  cases recorder <;> rfl

theorem askReport_steps (recorder : CoverageRecorder) (ids : List UInt32) (path : String)
    (host : Host σ) (tree : FileTree) :
    (askReport recorder ids path host tree).2.1.steps = host.steps := by
  cases recorder <;> rfl

theorem flushDump_steps (sinks : Sinks) (recorder : CoverageRecorder) (ids : List UInt32)
    (host : Host σ) (tree : FileTree) :
    (sinks.flushDump recorder ids host tree).1.steps =
      host.steps ++ (sinks.dump.map fun _ => .dump).toList := by
  rw [flushDump]
  cases sinks.dump with
  | none => exact (List.append_nil _).symm
  | some path =>
      have asked := askDump_steps recorder ids path host tree
      dsimp only
      split
      · next same =>
        rw [same] at asked
        rw [Host.steps_logged, asked]
        rfl
      · next same =>
        rw [same] at asked
        rw [Host.steps_logged, asked]
        rfl

theorem flushReport_steps (sinks : Sinks) (recorder : CoverageRecorder) (ids : List UInt32)
    (host : Host σ) (tree : FileTree) :
    (sinks.flushReport recorder ids host tree).1.steps =
      host.steps ++ (sinks.report.map fun _ => .report).toList := by
  rw [flushReport]
  cases sinks.report with
  | none => exact (List.append_nil _).symm
  | some path =>
      have asked := askReport_steps recorder ids path host tree
      dsimp only
      split
      · next same =>
        rw [same] at asked
        rw [Host.steps_logged, asked]
        rfl
      · next same =>
        rw [same] at asked
        rw [Host.steps_logged, asked]
        rfl

/-- A sink that fails does not keep the other from being written. -/
theorem flush_steps (sinks : Sinks) (host : Host σ) (tree : FileTree) :
    (sinks.flush host tree).1.steps = host.steps ++ sinks.steps := by
  rw [flush, steps]
  cases sinks.recorder with
  | none => exact (List.append_nil _).symm
  | some recorder =>
      dsimp only
      rw [flushReport_steps, flushDump_steps, List.append_assoc]

end Sinks

namespace Target

variable {σ : Type}

/-- Run the tear-down hook in a capture scope, if there is one. -/
def stop (target : Target σ) (host : Host σ) : Except Finding (Except Failure Unit) × Host σ :=
  match target.tearDown with
  | none => (.ok (.ok ()), host)
  | some hook =>
    let (ended, session) :=
      hook.invoked .tearDown (⟨host.logged .tearingDown, none⟩ : Session σ Cursor)
    (ended, session.host)

/-- The steps that stopping takes: one, if there is a tear-down hook. -/
def stopSteps (target : Target σ) : List ShutdownStep :=
  (target.tearDown.map fun _ => .tearDown).toList

theorem stop_steps (target : Target σ) (host : Host σ) :
    (target.stop host).2.steps = host.steps ++ target.stopSteps := by
  rw [stop, stopSteps]
  cases target.tearDown with
  | none => exact (List.append_nil _).symm
  | some hook => exact (hook.invoked_steps _ _).trans (host.steps_logged .tearingDown)

end Target

/-- The finding that the end of a tear-down hook comes to, if it panicked or failed. -/
def stopFindings : Except Finding (Except Failure Unit) → List Finding
  | .ok (.ok ()) => []
  | .ok (.error failure) => [.bare ShutdownFault.errorKind failure.text]
  | .error finding => [finding]

def ShutdownFault.findings : Except ShutdownFault Unit → List Finding
  | .ok () => []
  | .error fault => [fault.finding]

namespace Shutdown

variable {σ : Type}

theorem tear_eq_stop {target : Target σ} {hook : TearDown σ} (bound : target.tearDown = some hook)
    (host : Host σ) :
    (tear hook host).2 = (target.stop host).2 ∧
      ShutdownFault.findings (tear hook host).1 = stopFindings (target.stop host).1 := by
  rw [tear, Target.stop, bound]
  dsimp only
  rcases hook.invoked .tearDown (⟨host.logged .tearingDown, none⟩ : Session σ Cursor) with
    ⟨finding | ⟨failure | done⟩, session⟩
  · exact ⟨rfl, rfl⟩
  · exact ⟨rfl, rfl⟩
  · exact ⟨rfl, rfl⟩

/-- A shutdown that is pending flushes the sinks and then stops the target. -/
theorem run_pending (sinks : Sinks) (target : Target σ) (host : Host σ) (tree : FileTree) :
    ∃ result after, after.done = true ∧
      (pending sinks target.tearDown).run host tree =
        (result, after, (target.stop (sinks.flush host tree).1).2, (sinks.flush host tree).2) ∧
      ShutdownFault.findings result = stopFindings (target.stop (sinks.flush host tree).1).1 := by
  rw [run, pending]
  cases bound : target.tearDown with
  | none =>
      rw [Target.stop, bound]
      exact ⟨.ok (), _, rfl, rfl, rfl⟩
  | some hook =>
      obtain ⟨left, findings⟩ := tear_eq_stop bound (sinks.flush host tree).1
      rw [← left, ← findings]
      exact ⟨_, _, rfl, rfl, rfl⟩

end Shutdown

end FuzzHarness
