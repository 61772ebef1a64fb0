/-!
# Errors with their causes

An error of code outside the harness is known by its texts, outermost first.
-/

namespace FuzzHarness

/-- The texts of an error and of its causes. -/
abbrev Failure := List String

def Failure.text (failure : Failure) : String :=
  ": ".intercalate failure

end FuzzHarness
