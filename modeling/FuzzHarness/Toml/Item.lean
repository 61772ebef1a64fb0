import FuzzHarness.Text.Decimal
import FuzzHarness.Text.Quoted
import FuzzHarness.Toml.Key

/-!
# Items of a document

A document is a table of items by key: single values, arrays, and tables again. Keys
joined by dots lead through tables, which come into being on the way. A table that was
given on purpose is closed: keys of another line cannot add to it.
-/

namespace FuzzHarness.Toml

inductive Scalar where
  | string (text : String)
  | integer (value : Int)
  | float (value : Float)
  | boolean (value : Bool)
  /-- A date, a time or both, as the document has it. -/
  | moment (written : String)
  deriving Repr

inductive Origin where
  /-- It has a header of its own, or is the document. -/
  | headed
  /-- The header of a table within it leads through it. -/
  | implied
  /-- A key with dots leads through it. -/
  | dotted
  /-- It is written between braces. -/
  | braced
  deriving DecidableEq, Repr

/-- What a key can be bound to. -/
inductive Item where
  | scalar (span : Span) (value : Scalar)
  | array (span : Span) (items : List Item)
  /-- A table; one that only came into being on the way has no place of its own. -/
  | table (span : Option Span) (origin : Origin) (entries : List (Key × Item))
  /-- The tables of a header that is repeated. -/
  | tables (elements : List Item)

namespace Item

/-- The stretch that an item takes, if it has one: tables of a repeated header reach
from the first to the last. -/
def span? : Item → Option Span
  | .scalar span _ => some span
  | .array span _ => some span
  | .table span _ _ => span
  | .tables elements => do
    let own := elements.filterMap fun
      | .table span _ _ => span
      | _ => none
    return ⟨(← own.head?).left, (← own.getLast?).after⟩

/-- What messages call an item that cannot be extended. -/
def kind : Item → String
  | .scalar _ (.string _) => "string"
  | .scalar _ (.integer _) => "integer"
  | .scalar _ (.float _) => "float"
  | .scalar _ (.boolean _) => "boolean"
  | .scalar _ (.moment _) => "datetime"
  | .array _ _ => "array"
  | .table _ .braced _ => "inline table"
  | .table _ _ _ => "table"
  | .tables _ => "array of tables"

/-- A float as messages show it: a point is never missing in a finite one. -/
def shownFloat (value : Float) : String :=
  let shortest := Text.Decimal.shortest value
  if shortest.all fun c => c.isDigit || c == '-' then shortest ++ ".0" else shortest

/-- What messages say was found where an item of another type was wanted. -/
def found : Item → String
  | .scalar _ (.string text) => s!"string {Text.quoted text}"
  | .scalar _ (.integer value) => s!"integer `{value}`"
  | .scalar _ (.float value) => s!"floating point `{shownFloat value}`"
  | .scalar _ (.boolean value) => s!"boolean `{value}`"
  | .array _ _ => "sequence"
  | .tables _ => "sequence"
  | _ => "map"

end Item

/-- The entries of a table in order. -/
abbrev Entries := List (Key × Item)

namespace Entries

def get? (entries : Entries) (key : Key) : Option Item :=
  (entries.find? fun entry => entry.1.name = key.name).map Prod.snd

/-- Bind a key to another item; a new key comes last. -/
def put (entries : Entries) (key : Key) (item : Item) : Entries :=
  if (entries.get? key).isSome then
    entries.map fun entry => if entry.1.name = key.name then (entry.1, item) else entry
  else entries ++ [(key, item)]

/-- The entries without a key. -/
def erase (entries : Entries) (key : Key) : Entries :=
  entries.filter fun entry => entry.1.name ≠ key.name

/-- Change the table that a path leads to. Missing tables come into being on the way,
as `onTheWay`; of tables under a repeated header the last one counts. A dotted key
passes only through tables that came into being on the way themselves, and a table in
braces is a plain value to everything outside it (`outside`). -/
def modifyAt {α : Type} (onTheWay : Origin) (outside : Bool)
    (change : Origin → Entries → Except Cause (α × Entries)) (passed : List String) :
    List Key → Origin → Entries → Except Cause (α × Entries)
  | [], own, entries => change own entries
  | key :: path, _, entries =>
    let passed := passed ++ [key.name]
    let further := modifyAt onTheWay outside change passed path
    let within := fun (span : Option Span) (origin : Origin) (inner : Entries) => do
      let (result, inner) ← further origin inner
      return (result, Item.table span origin inner)
    let changed : Except Cause (α × Item) := match Entries.get? entries key with
      | none => within none onTheWay []
      | some (.table span origin inner) =>
        if origin = .braced ∧ outside then
          .error (.notTable passed (Item.table span origin inner).kind)
        else if onTheWay = .dotted ∧ (origin = .headed ∨ origin = .braced) then
          .error (.duplicateKey key.name none)
        else within span origin inner
      | some (.tables elements) =>
        match elements.getLast? with
        | some (.table span origin inner) => do
          let (result, last) ← within span origin inner
          return (result, .tables (elements.dropLast ++ [last]))
        | _ => .error (.notTable passed (Item.tables elements).kind)
      | some item => .error (.notTable passed item.kind)
    changed.map fun (result, item) => (result, entries.put key item)

/-- Bind a key, which a path of dotted keys leads to. `table` is the path of the table
in the document that the line belongs to, `none` between braces. -/
def bind (table : Option (List Key)) (path : List Key) (key : Key) (item : Item)
    (entries : Entries) : Except Cause Entries :=
  let change := fun own (entries : Entries) =>
    if path ≠ [] ∧ own ≠ Origin.dotted then .error (.duplicateKey key.name none)
    else if (entries.get? key).isSome then
      .error (.duplicateKey key.name (table.map fun path => path.map Key.name))
    else .ok ((), entries.put key item)
  (modifyAt .dotted table.isSome change [] path .headed entries).map Prod.snd

end Entries

end FuzzHarness.Toml
