import FuzzHarness.Finding.Basic
import FuzzHarness.Text.Pieces

/-!
# Findings of injected hooks

A hook injected into the target wraps what it finds and leaves its own frames on
the stack. A stripper takes both away: outer links of wrapper kinds give way to
their causes, and frames of injected functions are removed from every link.
-/

namespace FuzzHarness

/-- The kinds of wrapping links and the beginnings of injected functions. -/
structure Stripper where
  wrapperKinds : List String
  injectedStarts : List String
  deriving DecidableEq, Repr

namespace Stripper

def empty : Stripper :=
  ⟨[], []⟩

/-- Whether a frame belongs to an injected function. -/
def isInjected (stripper : Stripper) (frame : Frame) : Bool :=
  stripper.injectedStarts.any fun start =>
    Text.startsWith start.toList frame.function.toList

/-- A link without the frames of injected functions. -/
def stripLink (stripper : Stripper) (link : Link) : Link :=
  { link with frames := link.frames.filter fun frame => !stripper.isInjected frame }

/-- Pass over wrapping links that have a cause. -/
def unwrap (stripper : Stripper) (top : Link) : List Link → Finding
  | [] => ⟨top, []⟩
  | cause :: causes =>
    if stripper.wrapperKinds.contains top.kind then stripper.unwrap cause causes
    else ⟨top, cause :: causes⟩

def normalize (stripper : Stripper) (finding : Finding) : Finding :=
  let inner := stripper.unwrap finding.top finding.causes
  ⟨stripper.stripLink inner.top, inner.causes.map stripper.stripLink⟩

theorem stripLink_empty (link : Link) : empty.stripLink link = link := by
  have kept : link.frames.filter (fun frame => !empty.isInjected frame) = link.frames :=
    List.filter_eq_self.mpr fun _ _ => rfl
  simp only [stripLink, kept]

theorem unwrap_empty (top : Link) (causes : List Link) :
    empty.unwrap top causes = ⟨top, causes⟩ := by
  cases causes <;> simp [unwrap, empty]

@[simp] theorem normalize_empty (finding : Finding) : empty.normalize finding = finding := by
  simp [normalize, unwrap_empty, List.map_congr_left fun link _ => stripLink_empty link,
    stripLink_empty]

end Stripper

end FuzzHarness
