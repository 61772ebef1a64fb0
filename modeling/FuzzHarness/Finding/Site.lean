/-!
# Frames and panic sites

A resolved stack frame, and the place of a panic as a stack shows it. Code of this
library that panics or captures its stack has sites known by name: what a stack
prints for them depends on the build, so the name stands in for it.
-/

namespace FuzzHarness

structure Frame where
  function : String
  location : Option String
  deriving DecidableEq, Repr, Inhabited

inductive Location where
  /-- A location as it is printed. -/
  | printed (text : String)
  /-- A location known by the name of the site there. -/
  | named (name : String)
  deriving DecidableEq, Repr, Inhabited

namespace Location

def isNamed : Location → Bool
  | .printed _ => false
  | .named _ => true

/-- A location in a report; a name stands in angle brackets. -/
def display : Location → String
  | .printed text => text
  | .named name => s!"⟨{name}⟩"

end Location

/-- Where a panic was raised: the location in the source and the frames, innermost
first. -/
structure Site where
  location : Location
  frames : List Frame
  deriving DecidableEq, Repr, Inhabited

namespace Site

/-- The site of code whose stack is known by name only. -/
def symbolic (name : String) : Site :=
  ⟨.named name, []⟩

/-- A site as it shows on top of a stack. -/
def upon (site : Site) (stack : List Frame) : Site :=
  { site with frames := site.frames ++ stack }

end Site

end FuzzHarness
