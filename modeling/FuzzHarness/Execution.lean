import FuzzHarness.Recording.Tape
import FuzzHarness.Target.Basic

/-!
# Running a target

An executor owns a target and the cursor that is fed every input of a target in
provider mode. A run happens in a capture scope; afterwards the report slot is
emptied, and what it held takes precedence over a panic.
-/

namespace FuzzHarness

namespace Target

variable {σ P : Type} [Provider P]

/-- Run entry code once and resolve what it threw and reported. -/
def iterate (target : Target σ) (way : Way) (code : Code σ Unit) (session : Session σ P) :
    Outcome × Session σ P :=
  let (result, session) := code.invoked way session
  let thrown := match result with
    | .ok _ => none
    | .error finding => some finding
  let reports := session.host.reports
  (.resolve thrown (reports.get target.channel),
    { session with host := { session.host with reports := reports.clear target.channel } })

end Target

/-- A target with the cursor for its inputs. -/
structure Executor (σ : Type) where
  target : Target σ
  cursor : Cursor

namespace Executor

variable {σ : Type}

def ofTarget (target : Target σ) : Executor σ :=
  ⟨target, .empty⟩

def after (executor : Executor σ) (session : Session σ Cursor) : Executor σ :=
  { executor with cursor := session.provider.getD executor.cursor }

def execute (executor : Executor σ) (input : Bytes) (host : Host σ) :
    Outcome × Executor σ × Host σ :=
  match executor.target.entry with
  | .bytes code =>
    let (outcome, session) :=
      executor.target.iterate (.execute .bytes) (code input) (⟨host, none⟩ : Session σ Cursor)
    (outcome, executor, session.host)
  | .provider code =>
    let (outcome, session) :=
      executor.target.iterate (.execute .provider) code
        ⟨host, some (executor.cursor.feed input)⟩
    (outcome, executor.after session, session.host)

/-- The octets that identify the last run: the input itself, or everything that the
cursor was fed, which is taken from it. -/
def canonicalBytes (executor : Executor σ) (input : Bytes) : Bytes × Executor σ :=
  match executor.target.mode with
  | .bytes => (input, executor)
  | .provider =>
    let cursor := executor.cursor.reset
    let (octets, cursor) := cursor.takeFront cursor.left
    (octets, { executor with cursor := cursor })

/-- Run a target in provider mode again on the input of the cursor and record what it
draws. Other targets draw nothing to record. -/
def record (executor : Executor σ) (host : Host σ) :
    Option (Outcome × Recording) × Executor σ × Host σ :=
  match executor.target.entry with
  | .bytes _ => (none, executor, host)
  | .provider code =>
    let recorder := Recorder.start executor.cursor.reset
    let (outcome, session) := executor.target.iterate .record code ⟨host, some recorder⟩
    let recorder := session.provider.getD recorder
    (some (outcome, recorder.recording), { executor with cursor := recorder.source },
      session.host)

/-- Hand the cursor, at its start, to the target's own writer of reproducers. The
writer runs outside any capture scope. -/
def handOver (executor : Executor σ) (directory contentHash : String) (host : Host σ) :
    Option (Exit (Except Failure Unit)) × Executor σ × Host σ :=
  match executor.target.writer with
  | none => (none, executor, host)
  | some writer =>
    let (exit, session) := (writer directory contentHash).run ⟨host, some executor.cursor.reset⟩
    (some exit, executor.after session, session.host)

end Executor

end FuzzHarness
