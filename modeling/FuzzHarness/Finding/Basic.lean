import FuzzHarness.Finding.Site

/-!
# Findings

A failure of target code: what went wrong, where, and what caused it. The causes
form a chain, so a finding is a nonempty list of links, outermost first.
-/

namespace FuzzHarness

/-- The type of a panic payload, as far as capture tells types apart. -/
inductive PayloadType where
  | str
  | string
  | unknown
  deriving DecidableEq, Repr

def PayloadType.name : PayloadType → String
  | .str => "&str"
  | .string => "String"
  | .unknown => "unknown"

structure Link where
  /-- What went wrong, such as `panic` or a category chosen by the target. -/
  kind : String
  message : String
  location : Option Location
  /-- Frames from innermost to outermost. -/
  frames : List Frame
  /-- The payload type of a panic that unwound without passing the panic hook, which
  leaves no location or frames to identify it by. -/
  unhooked : Option PayloadType
  deriving DecidableEq, Repr, Inhabited

/-- A failure and the chain of its causes. -/
structure Finding where
  top : Link
  causes : List Link
  deriving DecidableEq, Repr, Inhabited

namespace Finding

/-- The kind of a finding raised by a plain panic. -/
def panicKind : String := "panic"

def chain (finding : Finding) : List Link :=
  finding.top :: finding.causes

/-- A finding without location, frames and causes. -/
def bare (kind message : String) : Finding :=
  ⟨⟨kind, message, none, [], none⟩, []⟩

/-- A finding made at a site, with its stack captured. -/
def capturedAt (site : Site) (kind message : String) : Finding :=
  ⟨⟨kind, message, some site.location, site.frames, none⟩, []⟩

end Finding

def Frame.display (frame : Frame) : String :=
  match frame.location with
  | some location => s!"\tat {frame.function} ({location})\n"
  | none => s!"\tat {frame.function}\n"

/-- A link in a report: a headline, then its location and frames, one to a line. -/
def Link.display (link : Link) : String :=
  let headline := if link.message.isEmpty then link.kind else s!"{link.kind}: {link.message}"
  let location := match link.location with
    | some location => s!"\tat {location.display}\n"
    | none => ""
  s!"{headline}\n" ++ location ++ String.join (link.frames.map Frame.display)

def Finding.display (finding : Finding) : String :=
  finding.top.display ++
    String.join (finding.causes.map fun link => "Caused by: " ++ link.display)

end FuzzHarness
