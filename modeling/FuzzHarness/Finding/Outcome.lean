import FuzzHarness.Finding.Basic

/-!
# Outcomes and explicit reports

A target reports through a slot beside its return value. The last report of an
iteration counts, and it takes precedence over a panic. A target without a slot of
its own reports to the shared one.
-/

namespace FuzzHarness

inductive Outcome where
  | none
  | reported (finding : Finding)
  | thrown (finding : Finding)
  deriving DecidableEq, Repr

namespace Outcome

/-- The outcome of what was thrown and what was reported. -/
def resolve (thrown reported : Option Finding) : Outcome :=
  match reported, thrown with
  | some finding, _ => .reported finding
  | .none, some finding => .thrown finding
  | .none, .none => .none

def isFinding : Outcome → Bool
  | .none => false
  | _ => true

def finding? : Outcome → Option Finding
  | .none => Option.none
  | .reported finding => some finding
  | .thrown finding => some finding

end Outcome

inductive Channel where
  | own
  | shared
  deriving DecidableEq, Repr

structure Reports where
  own : Option Finding
  shared : Option Finding
  deriving DecidableEq, Repr

namespace Reports

def empty : Reports :=
  ⟨none, none⟩

def get (reports : Reports) : Channel → Option Finding
  | .own => reports.own
  | .shared => reports.shared

/-- Put a finding into a slot, whatever it holds. -/
def put (reports : Reports) (finding : Finding) : Channel → Reports
  | .own => { reports with own := some finding }
  | .shared => { reports with shared := some finding }

def clear (reports : Reports) : Channel → Reports
  | .own => { reports with own := none }
  | .shared => { reports with shared := none }

@[simp] theorem get_clear (reports : Reports) (channel : Channel) :
    (reports.clear channel).get channel = none := by
  cases channel <;> rfl

end Reports

end FuzzHarness
