/-!
# Faults in a document

A fault names a stretch of the document and tells what is wrong there: which construct
is invalid, what was expected instead, and the cause where the syntax is not to blame.
It is shown with the line it lies on and a mark under the stretch.
-/

namespace FuzzHarness.Toml

/-- A stretch of a document: how many characters are left where it begins, and how many
come after it. -/
structure Span where
  left : Nat
  after : Nat
  deriving DecidableEq, Repr

/-- The first character of what is left, or the end of the document. -/
def Span.first (rest : List Char) : Span :=
  ⟨rest.length, rest.length - 1⟩

/-- What is wrong with a document whose syntax is right. -/
inductive Cause where
  /-- A key is bound twice; the table holding it, where that is told. -/
  | duplicateKey (key : String) (table : Option (List String))
  /-- A key leads into a value that is no table. -/
  | notTable (path : List String) (kind : String)
  | outOfRange
  | tooLarge
  | tooSmall
  | tooDeep
  | unknownField (name : String) (known : List String)
  | invalidType (found wanted : String)
  | invalidValue (found wanted : String)
  deriving DecidableEq, Repr

def Cause.message : Cause → String
  | .duplicateKey key none => s!"duplicate key `{key}`"
  | .duplicateKey key (some []) => s!"duplicate key `{key}` in document root"
  | .duplicateKey key (some table) =>
    let path := ".".intercalate table
    s!"duplicate key `{key}` in table `{path}`"
  | .notTable path kind =>
    let path := ".".intercalate path
    s!"dotted key `{path}` attempted to extend non-table type ({kind})"
  | .outOfRange => "value is out of range"
  | .tooLarge => "number too large to fit in target type"
  | .tooSmall => "number too small to fit in target type"
  | .tooDeep => "recursion limit exceeded"
  | .unknownField name known =>
    let names := ", ".intercalate (known.map fun name => s!"`{name}`")
    s!"unknown field `{name}`, expected one of {names}"
  | .invalidType found wanted => s!"invalid type: {found}, expected {wanted}"
  | .invalidValue found wanted => s!"invalid value: {found}, expected {wanted}"

/-- Why a document cannot be read, and where. -/
structure Fault where
  span : Span
  /-- The construct that is invalid. -/
  invalid : Option String := none
  expected : List String := []
  cause : Option Cause := none
  /-- Whether no other way of reading is tried any more. -/
  committed : Bool := false
  deriving DecidableEq, Repr

namespace Fault

/-- The text of a fault: a line for each part that is known. -/
def message (fault : Fault) : String :=
  let invalid := (fault.invalid.map fun name => s!"invalid {name}").toList
  let names := ", ".intercalate fault.expected
  let expected := if fault.expected.isEmpty then [] else [s!"expected {names}"]
  let cause := (fault.cause.map Cause.message).toList
  "\n".intercalate (invalid ++ expected ++ cause)

def octets (chars : List Char) : Nat :=
  (String.ofList chars).utf8ByteSize

/-- The text of a fault with its place: line and column counted from one, the line
itself, and a mark under the stretch, at least one wide and not beyond the line. The
end of the document lies on its last line, also where that line is ended. A column
counts characters, but octets where the stretch begins with a character of several. -/
def describe (document : String) (fault : Fault) : String :=
  let chars := document.toList
  let start := chars.length - fault.span.left
  let here := min start (chars.length - 1)
  let before := chars.take here
  let onLine := (before.reverse.takeWhile (· ≠ '\n')).reverse
  let line := String.ofList (onLine ++ (chars.drop here).takeWhile (· ≠ '\n'))
  let number := toString (before.count '\n' + 1)
  let isWide := (chars.drop start).head?.any fun c => 1 < c.utf8Size
  let passed := if isWide then octets onLine else onLine.length + (start - here)
  let column := toString (passed + 1)
  let stretch := octets ((chars.drop start).take (fault.span.left - fault.span.after))
  let width := max 1 (min stretch (line.utf8ByteSize - passed))
  let margin := "".pushn ' ' (number.length + 1)
  let mark := ("".pushn ' ' (passed + 1)).pushn '^' width
  let place := s!"TOML parse error at line {number}, column {column}"
  "\n".intercalate
    [place, margin ++ "|", s!"{number} | {line}", s!"{margin}|{mark}", fault.message, ""]

end Fault

end FuzzHarness.Toml
