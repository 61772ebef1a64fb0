import FuzzHarness.Toml.Value

/-!
# Documents

A document is a sequence of lines. A line binds a key, or its header says which table
the lines below it belong to; the lines above the first header belong to the document
itself.
-/

namespace FuzzHarness.Toml

/-- A document that is read in part: the tables that are complete, and the one that
lines belong to. -/
structure Draft where
  complete : Entries := []
  /-- The keys of the present header; none above the first one. -/
  path : List Key := []
  /-- Whether the present header can be repeated. -/
  repeated : Bool := false
  span : Option Span := none
  present : Entries := []

namespace Draft

def close (draft : Draft) : Except Cause Entries :=
  match draft.path.getLast? with
  | none => .ok draft.present
  | some key =>
    let table := Item.table draft.span .headed draft.present
    let add := fun (_ : Origin) (entries : Entries) =>
      match draft.repeated, entries.get? key with
      | true, some (.tables elements) => .ok ((), entries.put key (.tables (elements ++ [table])))
      | true, _ => .ok ((), entries.put key (.tables [table]))
      | false, _ => .ok ((), entries.put key table)
    let path := draft.path.dropLast
    (Entries.modifyAt .implied true add [] path .headed draft.complete).map Prod.snd

/-- Begin the table of a header. A table that only came into being on the way is taken
up again, with what it has. -/
def begin (draft : Draft) (path : List Key) (key : Key) (repeated : Bool) (span : Span) :
    Except Cause Draft := do
  let takeUp := fun (_ : Origin) (entries : Entries) =>
    match repeated, entries.get? key with
    | _, none => .ok ([], entries)
    | true, some (.tables _) => .ok ([], entries)
    | false, some (.table _ .implied inner) => .ok (inner, entries.erase key)
    | _, _ => .error (.duplicateKey (writtenKey key.name) (some (path.map Key.name)))
  let (present, complete) ←
    Entries.modifyAt .implied true takeUp [] path .headed (← draft.close)
  return ⟨complete, path ++ [key], repeated, some span, present⟩

/-- Bind a key in the present table, which reaches up to its last value. -/
def bind (draft : Draft) (path : List Key) (key : Key) (item : Item) : Except Cause Draft := do
  let present ← draft.present.bind (some draft.path) path key item
  let after := item.span?.map Span.after
  let span := draft.span.map fun span => { span with after := after.getD span.after }
  return { draft with present, span }

end Draft

namespace Reader

def ending : Reader Unit :=
  telling none ["newline", "`#`"] restOfLine

/-- A header, of a table that can be repeated if its brackets are double. -/
def header (draft : Draft) : Reader Draft := named "table header" do
  let start ← get
  if start.length = 1 then refuse none []
  let repeated := start[1]? == some '['
  let closing := if repeated then "]]" else "]"
  let (span, path, key) ← spanned do
    set (start.drop closing.length)
    let found ← key
    telling none ["`.`", s!"`{closing}`"] (word closing.toList)
    return found
  ending
  match draft.begin path key repeated span with
  | .ok draft => return draft
  | .error cause => refuseFor cause start

def bindingLine (draft : Draft) : Reader Draft := do
  let start ← get
  let (path, key, item) ← binding value ending
  match draft.bind path key item with
  | .ok draft => return draft
  | .error cause => refuseFor cause start

/-- The lines of a document. Each round passes a character at least. -/
def documentLines : Nat → Draft → Reader Draft
  | 0, draft => pure draft
  | rounds + 1, draft => do
    spaces
    match ← next? with
    | none => return draft
    | some '#' => comment; lineEnd; documentLines rounds draft
    | some '\n' | some '\r' => lineEnd; documentLines rounds draft
    | some '[' => documentLines rounds (← header draft)
    | some _ => documentLines rounds (← bindingLine draft)

end Reader

/-- The entries of a document in order. A byte order mark may precede it. -/
def document (text : String) : Except Fault Entries :=
  let chars := match text.toList with
    | '\ufeff' :: rest => rest
    | chars => chars
  match Reader.documentLines (chars.length + 1) {} chars with
  | .error fault => .error fault
  | .ok (draft, rest) =>
    draft.close.mapError fun cause => ⟨.first rest, none, [], some cause, true⟩

end FuzzHarness.Toml
