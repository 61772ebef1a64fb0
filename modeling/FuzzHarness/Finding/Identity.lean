import FuzzHarness.Digest.Sha256
import FuzzHarness.Finding.Basic
import FuzzHarness.Text.Blank
import FuzzHarness.Text.Pieces
import FuzzHarness.Text.Utf8

/-!
# The identity of a finding

Two findings are the same crash if their chains agree on kind, location and the
frames that the target's own code put on the stack. Panic machinery above those
frames and harness frames below them do not count, nor do messages, except that a
panic which bypassed the hook has nothing else to tell it apart. The token of a
finding is the start of the digest of this identity, written without lengths: each
part ends in a zero octet and each link in an octet that no text contains.
-/

namespace FuzzHarness

open Text

/-- The beginning of the functions through which target code is entered. -/
def boundaryStart : String := "fuzzgate_core::capture::target_boundary"

/-- Beginnings of functions that belong to the harness or to panic machinery. -/
def harnessStarts : List String := [
  "std::",
  "core::",
  "alloc::",
  "rust_begin_unwind",
  "__rust",
  "fuzzgate_core::capture::",
  "fuzzgate_core::finding::",
  "<unknown>"]

/-- How many frames of a link count at most. -/
def frameLimit : Nat := 5

namespace Frame

/-- Whether a frame enters target code. -/
def isBoundary (frame : Frame) : Bool :=
  startsWith boundaryStart.toList frame.function.toList

/-- Whether a frame belongs to the harness, whatever opening angle brackets precede
its function. -/
def isHarness (frame : Frame) : Bool :=
  let function := frame.function.toList.dropWhile (· == '<')
  harnessStarts.any (fun start => startsWith start.toList function) ||
    occursIn " as core::ops::function::".toList function

/-- The frames that identify a link: the first few above the boundary that do not
belong to the harness. -/
def significant (frames : List Frame) : List Frame :=
  ((frames.takeWhile fun frame => !frame.isBoundary).filter fun frame => !frame.isHarness).take
    frameLimit

end Frame

/-- Text behind which a zero octet stands. -/
def terminated (text : String) : Bytes :=
  Utf8.ofString text ++ [0]

/-- The hashed octets of a location. An octet that no text contains sets a name apart
from text. -/
def Location.preimage : Location → Bytes
  | .printed text => Utf8.ofString text
  | .named name => 0xFE :: Utf8.ofString name

/-- The hashed octets of a link. -/
def Link.preimage (link : Link) : Bytes :=
  terminated link.kind ++ (link.location.map Location.preimage).getD [] ++ [0] ++
    (Frame.significant link.frames).flatMap (fun frame => terminated frame.function) ++
    (match link.unhooked with
      | some type => terminated type.name ++ terminated link.message
      | none => []) ++ [0xFF]

namespace Finding

/-- The hashed octets of a finding. -/
def preimage (finding : Finding) : Bytes :=
  finding.chain.flatMap Link.preimage

def token (finding : Finding) : UInt64 :=
  Bytes.bigEndian ((Digest.Sha256.digest finding.preimage).take 8)

end Finding

/-- The token of every finding where findings are not told apart. It suppresses
nothing. -/
def disabledToken : UInt64 := 0

/-- A change made to findings before they are identified and reported. -/
abbrev Normalizer := Finding → Finding

structure Classifier where
  dedup : Bool
  normalizer : Option Normalizer

/-- A finding as it is reported, with its token. -/
structure Classified where
  finding : Finding
  token : UInt64
  deriving DecidableEq, Repr

def Classifier.classify (classifier : Classifier) (finding : Finding) : Classified :=
  let finding := match classifier.normalizer with
    | some normalize => normalize finding
    | none => finding
  ⟨finding, if classifier.dedup then finding.token else disabledToken⟩

end FuzzHarness
