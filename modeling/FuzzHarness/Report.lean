import FuzzHarness.Finding.Basic
import FuzzHarness.Text.Hex

/-!
# Reports

The harness writes to two streams. Findings and other lines go to the error stream,
tokens to the output stream, so that tokens can be collected by a program.
-/

namespace FuzzHarness

/-- The part of a run that a reported finding comes from. -/
inductive Phase where
  | iteration
  | startup
  | tearDown
  deriving DecidableEq, Repr

def Phase.header : Phase → String
  | .iteration => "== Rust Panic: "
  | .startup => "== Rust Panic in fuzzer_initialize: "
  | .tearDown => "== Rust Panic in fuzzer_tear_down: "

inductive Emission where
  | finding (phase : Phase) (finding : Finding)
  | token (token : UInt64)
  | crashingInput
  | line (text : String)
  deriving DecidableEq, Repr

namespace Emission

def crashingInputHeader : String := "== libFuzzer crashing input =="

def err : Emission → String
  | .finding phase found => "\n" ++ phase.header ++ found.display
  | .token _ => ""
  | .crashingInput => crashingInputHeader ++ "\n"
  | .line text => text ++ "\n"

def out : Emission → String
  | .token word => s!"DEDUP_TOKEN: {Text.hexWord word}\n"
  | _ => ""

end Emission

end FuzzHarness
