import FuzzHarness.Toml.Fault

/-!
# Reading a document

Reading takes an item off the front of what is left of a document, or refuses it with a
fault. A fault that is not committed leaves other ways of reading open; whoever tries
another way starts again where the refused one began.
-/

namespace FuzzHarness.Toml

/-- Reading an item off the front of what is left. -/
abbrev Reader := StateT (List Char) (Except Fault)

namespace Reader

variable {α : Type}

/-- Refuse what is left, without committing. -/
def refuse (invalid : Option String) (expected : List String) : Reader α := fun rest =>
  .error ⟨.first rest, invalid, expected, none, false⟩

/-- Refuse a place for a cause, without committing. -/
def refuseFor (cause : Cause) (place : List Char) : Reader α := fun _ =>
  .error ⟨.first place, none, [], some cause, false⟩

/-- Leave no other way of reading open. -/
def commit (read : Reader α) : Reader α := fun rest =>
  (read rest).mapError fun fault => { fault with committed := true }

/-- Tell in faults what was being read, unless they tell already, and what could have
stood there. -/
def telling (invalid : Option String) (expected : List String) (read : Reader α) :
    Reader α := fun rest =>
  (read rest).mapError fun fault => { fault with
    invalid := fault.invalid.or invalid, expected := fault.expected ++ expected }

/-- Tell in faults which construct was being read. -/
def named (construct : String) (read : Reader α) : Reader α :=
  telling (some construct) [] read

/-- Read an item if there is one. -/
def attempt (read : Reader α) : Reader (Option α) := fun rest =>
  match read rest with
  | .ok (item, after) => .ok (some item, after)
  | .error fault => if fault.committed then .error fault else .ok (none, rest)

/-- Read an item together with the stretch it takes. -/
def spanned (read : Reader α) : Reader (Span × α) := fun rest =>
  (read rest).map fun (item, after) => ((⟨rest.length, after.length⟩, item), after)

/-- The next character, which stays. -/
def next? : Reader (Option Char) := do
  return (← get).head?

/-- The longest run of characters of a class. -/
def run (isMember : Char → Bool) : Reader (List Char) := fun rest =>
  .ok (rest.takeWhile isMember, rest.dropWhile isMember)

def mark (c : Char) : Reader Unit := do
  match ← get with
  | first :: rest => if first = c then set rest else refuse none []
  | [] => refuse none []

def word (chars : List Char) : Reader Unit := do
  let rest ← get
  if chars.isPrefixOf rest then set (rest.drop chars.length) else refuse none []

def isSpace (c : Char) : Bool :=
  c == ' ' || c == '\t'

/-- Whether a character can stand on a line as it is: no control except the tab. -/
def isPlain (c : Char) : Bool :=
  c == '\t' || (0x20 ≤ c.toNat && c.toNat != 0x7F)

def spaces : Reader Unit := do
  let _ ← run isSpace

/-- A line break; a carriage return alone is none. A character that begins none is passed
before it is refused. -/
def newline : Reader Unit := do
  match ← get with
  | '\n' :: rest => set rest
  | '\r' :: rest => set rest; mark '\n'
  | _ :: rest => set rest; refuse none []
  | [] => refuse none []

def comment : Reader Unit := do
  mark '#'
  let _ ← run isPlain

def lineEnd : Reader Unit := do
  unless (← get).isEmpty do
    if (← attempt newline).isNone then refuse none []

/-- What may stand behind the last item of a line, and its end. -/
def restOfLine : Reader Unit := do
  spaces
  let _ ← attempt comment
  lineEnd

/-- Spaces and line breaks. Each round passes a line break, so what is left bounds the
rounds. -/
def blankLines : Nat → Reader Unit
  | 0 => pure ()
  | rounds + 1 => do
    spaces
    if (← attempt newline).isSome then blankLines rounds

def commentLines : Nat → Reader Unit
  | 0 => pure ()
  | rounds + 1 => do
    spaces
    match ← next? with
    | some '#' => comment; newline; commentLines rounds
    | some '\n' | some '\r' => newline; commentLines rounds
    | _ => pure ()

end Reader

end FuzzHarness.Toml
