import FuzzHarness.Finding.Site
import FuzzHarness.Target.Mode

/-!
# Ways into target code

The harness enters target code through boundary functions, which are never inlined. So
on every stack a frame of a boundary stands beneath the frames of the target's own code.
Beneath it stand the harness functions that led there, and beneath these whatever called
the harness.
-/

namespace FuzzHarness

/-- The functions through which target code is entered. -/
inductive Boundary where
  | bytes
  | provider
  /-- The boundary of lifecycle hooks. -/
  | hook
  deriving DecidableEq, Repr

namespace Boundary

def function : Boundary → String
  | .bytes => "fuzzgate_core::capture::target_boundary_bytes"
  | .provider => "fuzzgate_core::capture::target_boundary_provider"
  | .hook => "fuzzgate_core::capture::target_boundary_hook"

def ofMode : Mode → Boundary
  | .bytes => .bytes
  | .provider => .provider

end Boundary

/-- A boundary, and the harness functions that led to it, innermost first. -/
structure Way where
  boundary : Boundary
  callers : List String
  deriving DecidableEq, Repr

namespace Way

/-- The frames that the harness puts on the stack. Where their lines are is left out. -/
def frames (way : Way) : List Frame :=
  (way.boundary.function :: way.callers).map fun function => ⟨function, none⟩

/-- The way to entry code, on behalf of a harness function. -/
def toEntry (mode : Mode) (caller : String) : Way where
  boundary := .ofMode mode
  callers :=
    ["fuzzgate_core::capture::catch_finding",
      match mode with
      | .bytes => "fuzzgate_core::executor::run_bytes"
      | .provider => "fuzzgate_core::executor::run_provider",
      caller]

def execute (mode : Mode) : Way :=
  toEntry mode "fuzzgate_core::executor::InProcessExecutor::execute"

def record : Way :=
  toEntry .provider "fuzzgate_core::executor::InProcessExecutor::record"

def replay (mode : Mode) : Way :=
  toEntry mode "fuzzgate_core::reproducer::ReproducerArtifact::replay"

/-- The way to a lifecycle hook, on behalf of a harness function. -/
def toHook (caller : String) : Way :=
  ⟨.hook, ["fuzzgate_core::capture::catch_finding", caller]⟩

def startup : Way :=
  toHook "fuzzgate_core::target::FuzzTarget::initialize"

def tearDown : Way :=
  toHook "fuzzgate_core::shutdown::ShutdownCoordinator::run"

end Way

end FuzzHarness
