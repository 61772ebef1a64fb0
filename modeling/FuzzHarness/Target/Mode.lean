import FuzzHarness.Text.Quoted

/-!
# Invocation modes

A target consumes its input either as raw bytes or through a provider.
-/

namespace FuzzHarness

inductive Mode where
  | bytes
  | provider
  deriving DecidableEq, Repr

namespace Mode

def word : Mode → String
  | .bytes => "bytes"
  | .provider => "provider"

def name : Mode → String
  | .bytes => "Bytes"
  | .provider => "Provider"

def ofWord? (word : String) : Option Mode :=
  if word = "bytes" then some .bytes
  else if word = "provider" then some .provider
  else none

/-- The text of the error for a word that stands for no mode. -/
def unknownWord (word : String) : String :=
  s!"unknown invocation mode {Text.quoted word}"

@[simp] theorem ofWord?_word (mode : Mode) : ofWord? mode.word = some mode := by
  cases mode <;> rfl

end Mode

end FuzzHarness
