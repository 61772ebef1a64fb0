import FuzzHarness.Target.Host
import FuzzHarness.Target.Way

/-!
# Target code

Target code is a tree of actions. An action that yields something continues with a
function of what it yields; a panic has no continuation. Code can catch panics of a
body by itself, run a body in a capture scope of the harness, or run it in a thread.

Capture turns a panic into a finding. Entering a scope clears the record of the last
panic, and leaving it by a panic takes the record. A finding that was thrown as such
is kept unchanged. Any other payload is described; without a record the finding is
marked as having bypassed the hook.
-/

namespace FuzzHarness

inductive Payload where
  | str (text : String)
  | string (text : String)
  | finding (finding : Finding)
  /-- A value that capture knows nothing about. -/
  | other
  deriving DecidableEq, Repr

namespace Payload

/-- The type and the text of a payload that is no finding. -/
def describe : Payload → PayloadType × String
  | .str text => (.str, text)
  | .string text => (.string, text)
  | _ => (.unknown, "Unknown panic type")

end Payload

/-- Code over variables of type `σ` that ends with a value of type `ρ`. -/
inductive Code (σ ρ : Type) where
  | finish (value : ρ)
  /-- Read the variables. -/
  | load (next : σ → Code σ ρ)
  /-- Set the variables. -/
  | store (memory : σ) (next : Code σ ρ)
  /-- Draw a value; nothing is drawn where there is no provider. -/
  | draw (call : Call) (next : Option Value → Code σ ρ)
  | note (entry : Note) (next : Code σ ρ)
  | mark (id : UInt32) (next : Code σ ρ)
  | report (channel : Channel) (finding : Finding) (next : Code σ ρ)
  /-- Capture the stack beneath the code. -/
  | stack (next : List Frame → Code σ ρ)
  /-- Panic through the hook. -/
  | panic (site : Site) (payload : Payload)
  /-- Unwind without passing the hook. -/
  | resume (payload : Payload)
  /-- Run a body and catch its panic. -/
  | guard (body : Code σ ρ) (next : Option ρ → Code σ ρ)
  /-- Run a body in a capture scope. -/
  | capture (body : Code σ ρ) (next : Except Finding ρ → Code σ ρ)
  /-- Run a body in a new thread, without a provider, and join it. -/
  | thread (body : Code σ ρ) (next : Option ρ → Code σ ρ)

/-- How code ends. -/
inductive Exit (ρ : Type) where
  | finished (value : ρ)
  | unwound (payload : Payload)

def Exit.value? {ρ : Type} : Exit ρ → Option ρ
  | .finished value => some value
  | .unwound _ => none

/-- The surroundings of running code, and its provider if it has one. -/
structure Session (σ P : Type) where
  host : Host σ
  provider : Option P

namespace Session

variable {σ P ρ : Type}

def withScope (scope : Scope) (session : Session σ P) : Session σ P :=
  { session with host := { session.host with scope := scope } }

/-- The finding that a payload becomes, given the record of the last panic. -/
def findingOf (record : Option Site) : Payload → Finding
  | .finding finding => finding
  | payload =>
    let (type, message) := payload.describe
    match record with
    | some site => .capturedAt site Finding.panicKind message
    | none => ⟨⟨Finding.panicKind, message, none, [], some type⟩, []⟩

/-- The log events of turning a payload into a finding. -/
def captureEvents (record : Option Site) : Payload → List Event
  | .finding _ => []
  | payload =>
    match record with
    | some _ => []
    | none => [.unhookedPanic payload.describe.1]

/-- Leave a capture scope, `outer` telling whether target code was running before. -/
def leave (outer : Bool) : Exit ρ × Session σ P → Except Finding ρ × Session σ P
  | (.finished value, session) =>
    (.ok value, session.withScope ⟨outer, session.host.scope.record⟩)
  | (.unwound payload, session) =>
    let record := session.host.scope.record
    let host := session.host
    (.error (findingOf record payload),
      { session with
        host := { host with
          scope := ⟨outer, none⟩
          log := host.log ++ captureEvents record payload } })

end Session

namespace Code

variable {σ P ρ : Type} [Provider P]

/-- Run code. -/
def run : Code σ ρ → Session σ P → Exit ρ × Session σ P
  | .finish value, session => (.finished value, session)
  | .load next, session => (next session.host.memory).run session
  | .store memory next, session =>
    next.run { session with host := { session.host with memory := memory } }
  | .draw call next, session =>
    match session.provider with
    | none => (next none).run session
    | some provider =>
      match Provider.call call provider with
      | (.ok value, provider) =>
        (next (some value)).run { session with provider := some provider }
      | (.error fault, provider) =>
        (.unwound (.string fault.message), ⟨session.host.hooked fault.site, some provider⟩)
  | .note entry next, session => next.run { session with host := session.host.note entry }
  | .mark id next, session =>
    next.run { session with
      host := { session.host with coverage := session.host.coverage.mark id } }
  | .report channel finding next, session =>
    next.run { session with
      host := { session.host with reports := session.host.reports.put finding channel } }
  | .stack next, session => (next session.host.stack).run session
  | .panic site payload, session =>
    (.unwound payload, { session with host := session.host.hooked site })
  | .resume payload, session => (.unwound payload, session)
  | .guard body next, session =>
    let (exit, session) := body.run session
    (next exit.value?).run session
  | .capture body next, session =>
    let (result, session) :=
      Session.leave session.host.scope.inTarget (body.run (session.withScope .entered))
    (next result).run session
  | .thread body next, session =>
    let (exit, inner) := body.run ⟨session.host.onNewThread, none⟩
    (next exit.value?).run ⟨inner.host.onThreadOf session.host, session.provider⟩

def caught (code : Code σ ρ) (session : Session σ P) : Except Finding ρ × Session σ P :=
  Session.leave session.host.scope.inTarget (code.run (session.withScope .entered))

/-- Run code in a capture scope, on top of the frames that lead to it. -/
def invoked (way : Way) (code : Code σ ρ) (session : Session σ P) :
    Except Finding ρ × Session σ P :=
  let host := session.host
  let (result, left) :=
    code.caught { session with host := host.onStack (way.frames ++ host.stack) }
  (result, { left with host := left.host.onStack host.stack })

end Code

end FuzzHarness
