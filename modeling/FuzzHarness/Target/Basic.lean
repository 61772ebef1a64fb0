import FuzzHarness.Failure
import FuzzHarness.Input.Cursor
import FuzzHarness.Target.Code
import FuzzHarness.Target.Mode

/-!
# Fuzz targets

A target has a name, exactly one entry point, and hooks for its startup and its end.
It may come with a writer of reproducers of its own. A target is bound from a
specification in which anything can be missing or given twice.
-/

namespace FuzzHarness

inductive Entry (σ : Type) where
  | bytes (code : Bytes → Code σ Unit)
  | provider (code : Code σ Unit)

def Entry.mode {σ : Type} : Entry σ → Mode
  | .bytes _ => .bytes
  | .provider _ => .provider

inductive Startup (σ : Type) where
  | plain (code : Code σ Unit)
  | withArguments (code : List String → Code σ Unit)

/-- A tear-down hook; it may end with an error. -/
abbrev TearDown (σ : Type) := Code σ (Except Failure Unit)

/-- A target's own writer of reproducers, given the directory for them and the hash
of the crashing input. It may end with an error. -/
abbrev ReproducerWriter (σ : Type) := String → String → Code σ (Except Failure Unit)

/-- A fuzz target over variables of type `σ`. -/
structure Target (σ : Type) where
  /-- The path of the target function, which identifies it in reproducers. -/
  name : String
  entry : Entry σ
  startup : Option (Startup σ)
  tearDown : Option (TearDown σ)
  writer : Option (ReproducerWriter σ)
  channel : Channel

inductive BindingFault where
  | entryPoint (name : String)
  | invalidName (name : String)
  deriving DecidableEq, Repr

def BindingFault.message : BindingFault → String
  | .entryPoint name =>
    s!"{name} must define exactly one of the following two functions:\n" ++
      "fn fuzzer_test_one_input(data: &[u8])\n" ++
      "fn fuzzer_test_one_input(provider: &mut dyn FuzzedDataProvider)"
  | .invalidName name => s!"fuzz target name {Text.quoted name} is not a Rust path"

/-- Everything a target can be bound from. -/
structure TargetSpec (σ : Type) where
  name : String
  bytes : Option (Bytes → Code σ Unit)
  provider : Option (Code σ Unit)
  startup : Option (Code σ Unit)
  startupWithArguments : Option (List String → Code σ Unit)
  tearDown : Option (TearDown σ)
  writer : Option (ReproducerWriter σ)
  channel : Channel

/-- Whether a character can stand in the name of a target. -/
def isNameChar (c : Char) : Bool :=
  c.isAlphanum || c == '_' || c == ':'

def isTargetName (name : String) : Bool :=
  !name.isEmpty && name.toList.all isNameChar

namespace TargetSpec

variable {σ : Type}

/-- A specification with a name and nothing else. -/
def named (name : String) : TargetSpec σ where
  name := name
  bytes := none
  provider := none
  startup := none
  startupWithArguments := none
  tearDown := none
  writer := none
  channel := .shared

/-- Bind a target. The name is checked first. Of two startup hooks the one that takes
arguments counts. -/
def build (spec : TargetSpec σ) : Except BindingFault (Target σ) :=
  if !isTargetName spec.name then .error (.invalidName spec.name)
  else
    let bind (entry : Entry σ) : Target σ :=
      { name := spec.name
        entry := entry
        startup := match spec.startupWithArguments, spec.startup with
          | some code, _ => some (.withArguments code)
          | none, some code => some (.plain code)
          | none, none => none
        tearDown := spec.tearDown
        writer := spec.writer
        channel := spec.channel }
    match spec.bytes, spec.provider with
    | some code, none => .ok (bind (.bytes code))
    | none, some code => .ok (bind (.provider code))
    | _, _ => .error (.entryPoint spec.name)

end TargetSpec

namespace Target

variable {σ : Type}

def mode (target : Target σ) : Mode :=
  target.entry.mode

/-- A description of a target. -/
def describe (target : Target σ) : String :=
  let word := fun present : Bool => if present then "true" else "false"
  "FuzzTarget \x7b name: " ++ Text.quoted target.name ++
    ", mode: " ++ target.mode.name ++
    ", initialize: " ++ word target.startup.isSome ++
    ", tear_down: " ++ word target.tearDown.isSome ++
    ", autofuzz: " ++ word target.writer.isSome ++ " \x7d"

/-- Run the startup hook, if there is one. Its panic is a finding. -/
def start (target : Target σ) (arguments : List String) (host : Host σ) :
    Except Finding Unit × Host σ :=
  let run (code : Code σ Unit) :=
    let (result, session) := code.invoked .startup (⟨host, none⟩ : Session σ Cursor)
    (result, session.host)
  match target.startup with
  | none => (.ok (), host)
  | some (.plain code) => run code
  | some (.withArguments code) => run (code arguments)

end Target

end FuzzHarness
