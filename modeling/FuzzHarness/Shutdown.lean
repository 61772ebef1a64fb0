import FuzzHarness.Coverage.Sinks
import FuzzHarness.Target.Basic

/-!
# Shutting down

Shutdown flushes coverage and then runs the tear-down hook, once: it counts as done
before any foreign code runs, and later requests do nothing. What goes wrong in the
hook is a finding, whether it panics or ends with an error.
-/

namespace FuzzHarness

/-- The exit code of a run that ended with a finding. -/
def findingExitCode : Nat := 77

/-- The exit code of a run in which the harness failed. -/
def faultExitCode : Nat := 1

inductive ShutdownFault where
  | panicked (finding : Finding)
  | failed (failure : Failure)
  deriving DecidableEq, Repr

namespace ShutdownFault

/-- The kind of the finding that an error of the tear-down hook becomes. -/
def errorKind : String := "TearDownError"

def finding : ShutdownFault → Finding
  | .panicked finding => finding
  | .failed failure => .bare errorKind failure.text

def exitCode : ShutdownFault → Nat
  | _ => findingExitCode

end ShutdownFault

/-- What is left to do at the end of a run. -/
structure Shutdown (σ : Type) where
  done : Bool
  sinks : Sinks
  tearDown : Option (TearDown σ)

namespace Shutdown

variable {σ : Type}

/-- A shutdown that has not run. -/
def pending (sinks : Sinks) (tearDown : Option (TearDown σ)) : Shutdown σ :=
  ⟨false, sinks, tearDown⟩

/-- Run the tear-down hook in a capture scope. -/
def tear (code : TearDown σ) (host : Host σ) : Except ShutdownFault Unit × Host σ :=
  let (result, session) :=
    code.invoked .tearDown (⟨host.logged .tearingDown, none⟩ : Session σ Cursor)
  let result := match result with
    | .ok (.ok ()) => .ok ()
    | .ok (.error failure) => .error (.failed failure)
    | .error finding => .error (.panicked finding)
  (result, session.host)

/-- Shut down unless that has been done. -/
def run (shutdown : Shutdown σ) (host : Host σ) (tree : FileTree) :
    Except ShutdownFault Unit × Shutdown σ × Host σ × FileTree :=
  if shutdown.done then (.ok (), shutdown, host, tree)
  else
    let (host, tree) := shutdown.sinks.flush host tree
    let shutdown' := { shutdown with done := true, tearDown := none }
    match shutdown.tearDown with
    | none => (.ok (), shutdown', host, tree)
    | some code =>
      let (result, host) := tear code host
      (result, shutdown', host, tree)

end Shutdown

end FuzzHarness
