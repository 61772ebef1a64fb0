import FuzzHarness.Input.Call

/-!
# Recording and replaying values

A recorder passes calls on to a provider and keeps every value it hands out, in
order. A replay serves such values again: each call removes the next value, and
panics if there is none or if it does not answer the request.
-/

namespace FuzzHarness

/-- The values a target was handed, in order. -/
abbrev Recording := List Value

/-- A provider together with the values it handed out so far. -/
structure Recorder (P : Type) where
  source : P
  recording : Recording

namespace Recorder

variable {P : Type} [Provider P]

def start (source : P) : Recorder P :=
  ⟨source, []⟩

/-- Pass one call on. A call that panics hands out no value. -/
def call (request : Call) (recorder : Recorder P) : Except CallFault Value × Recorder P :=
  match Provider.call request recorder.source with
  | (.ok value, source) => (.ok value, ⟨source, recorder.recording ++ [value]⟩)
  | (.error fault, source) => (.error fault, ⟨source, recorder.recording⟩)

instance : Provider (Recorder P) := ⟨call⟩

end Recorder

/-- The values that are still to be served. -/
structure Replay where
  pending : Recording
  deriving DecidableEq, Repr

namespace Replay

def isExhausted (replay : Replay) : Bool :=
  replay.pending.isEmpty

/-- Serve the next value if it answers the request; it is removed in any case. -/
def call (request : Call) (replay : Replay) : Except CallFault Value × Replay :=
  match replay.pending with
  | [] => (.error (.exhausted request), replay)
  | value :: pending =>
    if request.accepts value then (.ok value, ⟨pending⟩)
    else (.error (.diverged request value), ⟨pending⟩)

instance : Provider Replay := ⟨call⟩

end Replay

end FuzzHarness
