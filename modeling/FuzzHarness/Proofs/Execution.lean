import FuzzHarness.Execution

/-!
# What running a target leaves as it was

An executor keeps its target whatever it runs, and a run of entry code leaves the slot of
the target empty, so that no report of one input is taken for one of the next. Only a writer
of reproducers runs without that, so it may leave a report behind.
-/

namespace FuzzHarness

namespace Target

variable {σ P : Type} [Provider P]

/-- A run of entry code leaves the slot of its target empty. -/
theorem iterate_reports (target : Target σ) (way : Way) (code : Code σ Unit)
    (session : Session σ P) :
    (target.iterate way code session).2.host.reports.get target.channel = none :=
  Reports.get_clear _ _

/-- The target's own writer of reproducers, if it has one, leaves no report behind. -/
def WriterStaysQuiet {σ : Type} (target : Target σ) : Prop :=
  ∀ writer, target.writer = some writer → ∀ (directory hash : String) (host : Host σ)
    (provider : Option Cursor), host.reports.get target.channel = none →
      ((writer directory hash).run ⟨host, provider⟩).2.host.reports.get target.channel = none

end Target

namespace Executor

variable {σ : Type}

/-- Running an input keeps the target and leaves its slot empty. -/
theorem execute_spec (executor : Executor σ) (input : Bytes) (host : Host σ) :
    (executor.execute input host).2.1.target = executor.target ∧
      (executor.execute input host).2.2.reports.get executor.target.channel = none := by
  rw [execute]
  split
  · exact ⟨rfl, Target.iterate_reports _ _ _ _⟩
  · exact ⟨rfl, Target.iterate_reports _ _ _ _⟩

theorem canonicalBytes_target (executor : Executor σ) (input : Bytes) :
    (executor.canonicalBytes input).2.target = executor.target := by
  rw [canonicalBytes]
  split <;> rfl

theorem handOver_target (executor : Executor σ) (directory hash : String) (host : Host σ) :
    (executor.handOver directory hash host).2.1.target = executor.target := by
  rw [handOver]
  split <;> rfl

theorem record_target (executor : Executor σ) (host : Host σ) :
    (executor.record host).2.1.target = executor.target := by
  rw [record]
  split <;> rfl

theorem record_reports {executor : Executor σ} {host : Host σ}
    (quiet : host.reports.get executor.target.channel = none) :
    (executor.record host).2.2.reports.get executor.target.channel = none := by
  rw [record]
  split
  · exact quiet
  · exact Target.iterate_reports _ _ _ _

theorem handOver_reports {executor : Executor σ} (silent : executor.target.WriterStaysQuiet)
    {host : Host σ} (quiet : host.reports.get executor.target.channel = none)
    (directory hash : String) :
    (executor.handOver directory hash host).2.2.reports.get executor.target.channel = none := by
  rw [handOver]
  split
  · exact quiet
  · next writer own => exact silent writer own directory hash host _ quiet

end Executor

end FuzzHarness
