import FuzzHarness.Toml.Quoted

/-!
# Keys

A key is a bare name, or a name between quotes; keys joined by dots name a binding in a
table within a table.
-/

namespace FuzzHarness.Toml

structure Key where
  name : String
  span : Span
  deriving DecidableEq, Repr

/-- How many keys may be joined, and how deep values may be nested. -/
def depthLimit : Nat := 79

/-- Whether a character can stand in a bare name. -/
def isKeyChar (c : Char) : Bool :=
  c.isAlphanum || c == '_' || c == '-'

/-- A character as it is written between double quotes. -/
def writtenChar (c : Char) : List Char :=
  match Reader.escapes.find? fun escape => escape.2 = c with
  | some (letter, _) => ['\\', letter]
  | none =>
    if Reader.isPlain c then [c]
    else
      let digits := (Nat.toDigits 16 c.toNat).map Char.toUpper
      ['\\', 'u'] ++ List.replicate (4 - digits.length) '0' ++ digits

/-- A name as messages write it: bare where it can be, else between double quotes, but
between apostrophes where these spare all escapes of quotes and backslashes. -/
def writtenKey (name : String) : String :=
  let chars := name.toList
  let spares := chars.any fun c => c == '"' || c == '\\'
  let isLiteral := chars.all fun c => Reader.isPlain c && c != '\''
  if !chars.isEmpty && chars.all isKeyChar then name
  else if spares && isLiteral then String.ofList ('\'' :: chars ++ ['\''])
  else String.ofList ('"' :: chars.flatMap writtenChar ++ ['"'])

namespace Reader

/-- The name of a key without dots. -/
def keyName : Reader String := do
  match ← next? with
  | some '"' => basicString
  | some '\'' => literalString
  | _ =>
    let name ← run isKeyChar
    if name.isEmpty then refuse none [] else return String.ofList name

/-- A key without dots, and the spaces around it. -/
def simpleKey : Reader Key := do
  spaces
  let (span, name) ← spanned keyName
  spaces
  return ⟨name, span⟩

/-- Further keys, each behind a dot. A dot that no key follows is left. -/
def furtherKeys : Nat → Reader (List Key)
  | 0 => pure []
  | rounds + 1 => do
    match ← attempt (do mark '.'; simpleKey) with
    | some key => return key :: (← furtherKeys rounds)
    | none => return []

/-- Keys joined by dots: those that lead to a table, and the one bound in it. -/
def key : Reader (List Key × Key) := do
  let start ← get
  let first ← named "key" simpleKey
  let others ← named "key" (furtherKeys (← get).length)
  if depthLimit ≤ others.length then
    set start
    refuseFor .tooDeep start
  else return ((first :: others).dropLast, others.getLast?.getD first)

end Reader

end FuzzHarness.Toml
