import FuzzHarness.Target.Code
import FuzzHarness.Text.Pieces

/-!
# Scripted target code

A script is a list of steps, each with one visible effect. It is the plain language
in which target code can be written down; its meaning is the code it is turned into.
The variables of a script are the text of the last drawn value, which steps can test
and panic messages can show, and the number of runs so far. A thread draws nothing and
has a last value of its own, which is empty.
-/

namespace FuzzHarness

/-- The variables of a script. -/
structure ScriptMemory where
  last : String
  runs : Nat
  deriving DecidableEq, Repr

def ScriptMemory.start : ScriptMemory :=
  ⟨"", 0⟩

/-- A test on the input, on the last drawn value, or on the number of the run. -/
inductive Test where
  | startsWith (start : Bytes)
  | equals (input : Bytes)
  | longerThan (length : Nat)
  | lastIs (text : String)
  | runIs (number : Nat)
  deriving DecidableEq, Repr

inductive Step where
  | draw (call : Call)
  | choose (test : Test) (yes no : List Step)
  /-- End the innermost body. -/
  | leave
  | note (entry : Note)
  | noteArguments
  | mark (id : UInt32)
  /-- Panic with a message in which a placeholder stands for the last drawn value. -/
  | panicText (site : Site) (template : String)
  | panic (site : Site) (payload : Payload)
  /-- Panic with a finding that is made on the spot. -/
  | throwNew (site : Site) (kind message : String)
  | resume (payload : Payload)
  | report (finding : Finding)
  /-- Report a finding that is made on the spot. -/
  | reportNew (site : Site) (kind message : String)
  | guard (body : List Step)
  | capture (body : List Step)
  | thread (body : List Step)

/-- A list of steps. -/
abbrev Script := List Step

namespace Script

/-- What a script knows about its run. -/
structure Context where
  input : Bytes
  run : Nat
  arguments : List String
  channel : Channel

/-- What the steps of a thread know: everything but the arguments. -/
def Context.forThread (context : Context) : Context :=
  { context with arguments := [] }

/-- The placeholder for the last drawn value. -/
def lastPlaceholder : List Char :=
  ['\x7b', 'l', 'a', 's', 't', '\x7d']

/-- A message with the last drawn value in place. -/
def fillLast (template last : String) : String :=
  String.ofList (Text.replaceAll lastPlaceholder last.toList template.toList)

def holds (context : Context) (last : String) : Test → Bool
  | .startsWith start => start.isPrefixOf context.input
  | .equals input => context.input == input
  | .longerThan length => length < context.input.length
  | .lastIs text => last == text
  | .runIs number => context.run == number

end Script

variable {ρ : Type}

mutual

/-- The code of a step. A body that is left early ends with `left`, one that runs to
its end with `done`; `next` is what follows the step. -/
def Step.code (context : Script.Context) (done left : ρ) :
    Step → (leave next : Code ScriptMemory ρ) → Code ScriptMemory ρ
  | .draw call, _, next =>
    .draw call fun
      | none => next
      | some value =>
        .load fun memory =>
          .note (.drew value) (.store { memory with last := value.text } next)
  | .choose test yes no, leave, next =>
    .load fun memory =>
      if Script.holds context memory.last test then stepsCode context done left yes leave next
      else stepsCode context done left no leave next
  | .leave, leave, _ => leave
  | .note entry, _, next => .note entry next
  | .noteArguments, _, next => .note (.arguments context.arguments) next
  | .mark id, _, next => .mark id next
  | .panicText site template, _, _ =>
    .load fun memory => .panic site (.string (Script.fillLast template memory.last))
  | .panic site payload, _, _ => .panic site payload
  | .throwNew site kind message, _, _ =>
    .stack fun stack => .panic site (.finding (.capturedAt (site.upon stack) kind message))
  | .resume payload, _, _ => .resume payload
  | .report finding, _, next => .report context.channel finding next
  | .reportNew site kind message, _, next =>
    .stack fun stack =>
      .report context.channel (.capturedAt (site.upon stack) kind message) next
  | .guard body, _, next =>
    .guard (stepsCode context done left body (.finish left) (.finish done)) fun value =>
      .note (.guarded value.isSome) next
  | .capture body, _, next =>
    .capture (stepsCode context done left body (.finish left) (.finish done)) fun
      | .ok _ => .note (.captured none) next
      | .error finding => .note (.captured (some finding)) next
  | .thread body, _, next =>
    .load fun outer =>
      .store { outer with last := "" }
        (.thread
          (stepsCode context.forThread done left body (.finish left) (.finish done))
          fun value =>
            .load fun memory =>
              .store { memory with last := outer.last } (.note (.joined value.isSome) next))

def stepsCode (context : Script.Context) (done left : ρ) :
    List Step → (leave next : Code ScriptMemory ρ) → Code ScriptMemory ρ
  | [], _, next => next
  | step :: steps, leave, next =>
    step.code context done left leave (stepsCode context done left steps leave next)

end

namespace Script

def code (context : Context) (done left : ρ) (script : Script) : Code ScriptMemory ρ :=
  stepsCode context done left script (.finish left) (.finish done)

/-- A script as the entry point of a target: the run is counted, and nothing is
drawn yet. -/
def entry (channel : Channel) (script : Script) (input : Bytes) : Code ScriptMemory Unit :=
  .load fun memory =>
    .store ⟨"", memory.runs + 1⟩
      (script.code ⟨input, memory.runs + 1, [], channel⟩ () ())

/-- A script as a hook that ends with a given value. -/
def hook (channel : Channel) (hook : Hook) (arguments : List String) (result : ρ)
    (script : Script) : Code ScriptMemory ρ :=
  .load fun memory =>
    .store ⟨"", memory.runs⟩
      (.note (.entered hook) (script.code ⟨[], 0, arguments, channel⟩ result result))

/-- Calls made one after the other, each value being noted. -/
def drawAll (calls : List Call) (next : Code ScriptMemory ρ) : Code ScriptMemory ρ :=
  calls.foldr (fun call next =>
    .draw call fun
      | none => next
      | some value => .note (.drew value) next) next

end Script

end FuzzHarness
