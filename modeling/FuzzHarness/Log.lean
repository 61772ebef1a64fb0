import FuzzHarness.Finding.Basic
import FuzzHarness.Target.Mode
import FuzzHarness.Text.Hex

/-!
# Log events

What the harness logs while it works. Each event has a level and prints on one line,
its fields in a fixed order.
-/

namespace FuzzHarness

inductive Event where
  /-- A panic had no record of the hook to identify it by. -/
  | unhookedPanic (type : PayloadType)
  /-- Other settings turned deduplication on. -/
  | dedupForced
  | usingTarget (name : String) (mode : Mode) (keepGoing : UInt64) (dedup : Bool)
  | duplicateSkipped (token : UInt64)
  | shuttingDown (distinctFindings : Nat)
  | tearingDown
  | dumpWritten (path : String) (ids : Nat)
  | dumpFailed (reason : String)
  | reportWritten (path : String)
  | reportFailed (reason : String)
  /-- The recording run of a crashing input ended without a finding. -/
  | notReproduced
  | reproducerWritten (path : String)
  | reproducerFailed (reason : String)
  | targetNameDiffers (artifact target : String)
  | crashingInputFailed (path : String) (reason : String)
  deriving DecidableEq, Repr

/-- The line of an event: level, message and fields. -/
def Event.line : Event → String
  | .unhookedPanic type =>
    "WARN Panic unwound without reaching the panic hook; deduplicating it by message " ++
      s!"payload_type={type.name}"
  | .dedupForced => "WARN Deduplication enabled because keep-going or ignore is set"
  | .usingTarget name mode keepGoing dedup =>
    s!"INFO Using fuzz target fuzz_target={name} mode={mode.word} " ++
      s!"keep_going={keepGoing.toNat} dedup={dedup}"
  | .duplicateSkipped token =>
    s!"DEBUG Skipping duplicate finding with dedup token {Text.hexWord token}"
  | .shuttingDown distinctFindings =>
    s!"INFO Shutting down fuzz target distinct_findings={distinctFindings}"
  | .tearingDown => "INFO calling fuzzer_tear_down function"
  | .dumpWritten path ids => s!"INFO Coverage dump written path={path} ids={ids}"
  | .dumpFailed reason => s!"ERROR Failed to dump coverage: {reason}"
  | .reportWritten path => s!"INFO Coverage report written path={path}"
  | .reportFailed reason => s!"ERROR Failed to write coverage report: {reason}"
  | .notReproduced => "WARN Failed to reproduce crash when rerunning with recorder"
  | .reproducerWritten path => s!"INFO Reproducer written path={path}"
  | .reproducerFailed reason => s!"ERROR Failed to write reproducer: {reason}"
  | .targetNameDiffers artifact target =>
    "WARN Replaying reproducer against a differently named target " ++
      s!"artifact={artifact} fuzz_target={target}"
  | .crashingInputFailed path reason =>
    s!"ERROR Failed to write crashing input to {path}: {reason}"

end FuzzHarness
