import FuzzHarness.Failure
import FuzzHarness.Files.Tree
import FuzzHarness.Target.Host

/-!
# Coverage sinks

At the end of a run the covered points are written to a dump and to a report, each
if a file is set for it. A sink that fails is logged and does not stop the other.
-/

namespace FuzzHarness

namespace CoverageMap

def dumpText (ids : List UInt32) : String :=
  let numbers := ",".intercalate (ids.map fun id => toString id.toNat)
  s!"[{numbers}]"

/-- The report on identifiers: two counts, then one identifier to a line, those hit
during startup being marked. -/
def reportText (map : CoverageMap) (ids : List UInt32) : String :=
  let line := fun id : UInt32 =>
    let marker := if search id map.startup then " (startup)" else ""
    s!"{id.toNat}{marker}\n"
  s!"Covered ids: {ids.length}\n" ++
    s!"Covered during startup: {map.startup.length}\n" ++ String.join (ids.map line)

def writeSink (purpose path text : String) (tree : FileTree) :
    Except Failure Unit × FileTree :=
  match tree.write path (Text.Utf8.ofString text) with
  | .ok tree => (.ok (), tree)
  | .error fault => (.error [s!"writing coverage {purpose} {path}", fault.message], tree)

def dump (ids : List UInt32) (path : String) (tree : FileTree) :
    Except Failure Unit × FileTree :=
  writeSink "dump" path (dumpText ids) tree

def report (map : CoverageMap) (ids : List UInt32) (path : String) (tree : FileTree) :
    Except Failure Unit × FileTree :=
  writeSink "report" path (map.reportText ids) tree

end CoverageMap

/-- Where coverage comes from. -/
inductive CoverageRecorder where
  /-- The map that the target marks. -/
  | shared
  /-- The same map, but nothing can be written and startup is not recorded; each
  request is noted. -/
  | broken (dumpFailure reportFailure : Failure)

/-- A recorder, if there is one, and the files of its sinks. -/
structure Sinks where
  recorder : Option CoverageRecorder
  dump : Option String
  report : Option String

namespace Sinks

variable {σ : Type}

def recordStartup (sinks : Sinks) (host : Host σ) : Host σ :=
  match sinks.recorder with
  | some .shared => { host with coverage := host.coverage.recordStartup }
  | _ => host

def askDump (recorder : CoverageRecorder) (ids : List UInt32) (path : String) (host : Host σ)
    (tree : FileTree) : Except Failure Unit × Host σ × FileTree :=
  match recorder with
  | .shared =>
    let (result, tree) := CoverageMap.dump ids path tree
    (result, host, tree)
  | .broken failure _ => (.error failure, host.note (.dumpAsked ids path), tree)

def askReport (recorder : CoverageRecorder) (ids : List UInt32) (path : String)
    (host : Host σ) (tree : FileTree) : Except Failure Unit × Host σ × FileTree :=
  match recorder with
  | .shared =>
    let (result, tree) := host.coverage.report ids path tree
    (result, host, tree)
  | .broken _ failure => (.error failure, host.note (.reportAsked ids path), tree)

/-- Write the dump, if a file is set for it. -/
def flushDump (sinks : Sinks) (recorder : CoverageRecorder) (ids : List UInt32)
    (host : Host σ) (tree : FileTree) : Host σ × FileTree :=
  match sinks.dump with
  | none => (host, tree)
  | some path =>
    match askDump recorder ids path host tree with
    | (.ok (), host, tree) => (host.logged (.dumpWritten path ids.length), tree)
    | (.error failure, host, tree) => (host.logged (.dumpFailed failure.text), tree)

/-- Write the report, if a file is set for it. -/
def flushReport (sinks : Sinks) (recorder : CoverageRecorder) (ids : List UInt32)
    (host : Host σ) (tree : FileTree) : Host σ × FileTree :=
  match sinks.report with
  | none => (host, tree)
  | some path =>
    match askReport recorder ids path host tree with
    | (.ok (), host, tree) => (host.logged (.reportWritten path), tree)
    | (.error failure, host, tree) => (host.logged (.reportFailed failure.text), tree)

def flush (sinks : Sinks) (host : Host σ) (tree : FileTree) : Host σ × FileTree :=
  match sinks.recorder with
  | none => (host, tree)
  | some recorder =>
    let ids := host.coverage.covered
    let (host, tree) := sinks.flushDump recorder ids host tree
    sinks.flushReport recorder ids host tree

end Sinks

end FuzzHarness
