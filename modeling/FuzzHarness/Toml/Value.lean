import FuzzHarness.Toml.Moment
import FuzzHarness.Toml.Number

/-!
# Values and bindings

What stands behind a key: a string, a number, a date or time, a truth value, an array in
brackets or a table in braces. The first character decides which of them is read.
-/

namespace FuzzHarness.Toml.Reader

/-- A value that is a word. Whatever is no value is taken for a string whose quotes are
missing. -/
def wordOrString (read : Reader Scalar) : Reader Scalar :=
  telling (some "string") ["`\"`", "`'`"] read

def scalar : Reader Scalar := do
  match ← next? with
  | none => refuse none []
  | some '"' | some '\'' => return .string (← string)
  | some '_' => refuse (some "integer") ["leading digit"]
  | some '.' => refuse (some "floating-point number") ["leading digit"]
  | some 't' => wordOrString (commit (constant "true" (.boolean true)))
  | some 'f' => wordOrString (commit (constant "false" (.boolean false)))
  | some 'i' => wordOrString (constant "inf" (.float (1.0 / 0.0)))
  | some 'n' => wordOrString (constant "nan" (.float (0.0 / 0.0)))
  | some c =>
    if c.isDigit || c == '+' || c == '-' then
      match ← attempt moment with
      | some written => return .moment written
      | none => number
    else wordOrString (refuse none [])

/-- A key, which a path may lead to, and its item, up to an `ending`. -/
def binding (item : Reader Item) (ending : Reader Unit) : Reader (List Key × Key × Item) := do
  let (path, key) ← key
  commit do
    telling none ["`.`", "`=`"] (mark '=')
    spaces
    let item ← item
    ending
    return (path, key, item)

/-- The items of an array, with commas between them and possibly behind the last. -/
def items (item : Reader Item) : Nat → Reader (List Item)
  | 0 => pure []
  | rounds + 1 => do
    let next ← attempt do
      commentLines (← get).length
      let item ← item
      commentLines (← get).length
      return item
    match next with
    | none => return []
    | some first =>
      match ← attempt (mark ',') with
      | none => return [first]
      | some _ => return first :: (← items item rounds)

def array (item : Reader Item) : Reader Item := do
  let (span, items) ← spanned do
    mark '['
    commit do
      let items ← items item (← get).length
      commentLines (← get).length
      telling (some "array") ["`]`"] (mark ']')
      return items
  return .array span items

def furtherBindings (item : Reader Item) : Nat → Reader (List (List Key × Key × Item))
  | 0 => pure []
  | rounds + 1 => do
    match ← attempt (do mark ','; binding item spaces) with
    | none => return []
    | some next => return next :: (← furtherBindings item rounds)

def bracedTable (item : Reader Item) : Reader Item := do
  let (span, entries) ← spanned do
    mark '\x7b'
    commit do
      let start ← get
      let bindings ← match ← attempt (binding item spaces) with
        | none => pure []
        | some first => do
          let others ← furtherBindings item (← get).length
          pure (first :: others)
      spaces
      let bound := bindings.foldlM
        (fun entries (path, key, item) => Entries.bind none path key item entries) []
      match bound with
      | .error cause => refuseFor cause start
      | .ok entries =>
        telling (some "inline table") ["`\x7d`"] (mark '\x7d')
        return entries
  return .table (some span) .braced entries

def scalarItem : Reader Item := do
  let (span, value) ← spanned scalar
  return .scalar span value

/-- A value, its arrays and tables being nested no deeper than so many levels. -/
def valueWithin : Nat → Reader Item
  | 0 => do
    let rest ← get
    if rest.head?.any fun c => c == '[' || c == '\x7b' then commit (refuseFor .tooDeep rest)
    else scalarItem
  | depth + 1 => do
    match ← next? with
    | some '[' => array (valueWithin depth)
    | some '\x7b' => bracedTable (valueWithin depth)
    | _ => scalarItem

def value : Reader Item :=
  valueWithin depthLimit

end FuzzHarness.Toml.Reader
