import FuzzHarness.Coverage.Map
import FuzzHarness.Finding.Outcome
import FuzzHarness.Input.Call
import FuzzHarness.Log

/-!
# What target code touches

Target code has variables of its own, reports findings, marks coverage points and
leaves notes. It runs on top of a stack. The harness keeps, for the thread that runs it,
whether target code is running and where the last panic was raised, with the whole stack
as it was then. A panic outside target code is not recorded.
-/

namespace FuzzHarness

inductive Hook where
  | startup
  | startupWithArguments
  | tearDown
  deriving DecidableEq, Repr

/-- Something an observer of target code sees happen. -/
inductive Note where
  | entered (hook : Hook)
  | drew (value : Value)
  | remark (text : String)
  | arguments (arguments : List String)
  /-- A guarded body ended, by itself or by a panic that was caught. -/
  | guarded (completed : Bool)
  /-- A nested capture ended, possibly with a finding. -/
  | captured (finding : Option Finding)
  /-- A thread was joined, which ended by itself or by a panic. -/
  | joined (completed : Bool)
  /-- The target's own reproducer writer was called. -/
  | handedOver (directory contentHash : String)
  | dumpAsked (ids : List UInt32) (path : String)
  | reportAsked (ids : List UInt32) (path : String)
  /-- The engine was asked to describe the crashing input. -/
  | crashingInput
  deriving DecidableEq, Repr

/-- What the harness keeps for a thread. -/
structure Scope where
  inTarget : Bool
  /-- Where the last recorded panic was raised. -/
  record : Option Site
  deriving DecidableEq, Repr

namespace Scope

/-- A thread that runs no target code. -/
def outside : Scope :=
  ⟨false, none⟩

/-- A panic at a site passes the hook. -/
def hooked (site : Site) (scope : Scope) : Scope :=
  if scope.inTarget then { scope with record := some site } else scope

/-- Target code is entered. -/
def entered : Scope :=
  ⟨true, none⟩

end Scope

/-- The surroundings of target code with variables of type `σ`. -/
structure Host (σ : Type) where
  memory : σ
  scope : Scope
  /-- The frames beneath the running code, innermost first. -/
  stack : List Frame
  reports : Reports
  coverage : CoverageMap
  notes : List Note
  log : List Event

namespace Host

variable {σ : Type}

def fresh (memory : σ) : Host σ where
  memory := memory
  scope := .outside
  stack := []
  reports := .empty
  coverage := .empty
  notes := []
  log := []

def note (entry : Note) (host : Host σ) : Host σ :=
  { host with notes := host.notes ++ [entry] }

def logged (event : Event) (host : Host σ) : Host σ :=
  { host with log := host.log ++ [event] }

/-- A panic at a site passes the hook, which captures the stack. -/
def hooked (site : Site) (host : Host σ) : Host σ :=
  { host with scope := host.scope.hooked (site.upon host.stack) }

/-- The same surroundings on another stack. -/
def onStack (stack : List Frame) (host : Host σ) : Host σ :=
  { host with stack := stack }

/-- The same surroundings on a new thread. -/
def onNewThread (host : Host σ) : Host σ :=
  { host with scope := .outside, stack := [] }

/-- The same surroundings back on the thread of others. -/
def onThreadOf (host outer : Host σ) : Host σ :=
  { host with scope := outer.scope, stack := outer.stack }

end Host

end FuzzHarness
