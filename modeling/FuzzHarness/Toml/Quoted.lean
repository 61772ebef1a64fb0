import FuzzHarness.Text.Hex
import FuzzHarness.Toml.Reader

/-!
# Strings

Between double quotes a backslash starts an escape, between apostrophes every character
stands for itself. Three quotes open a string of several lines; a line break right
behind them does not count, and one or two quotes within stand for themselves.
-/

namespace FuzzHarness.Toml.Reader

open Text

/-- The characters that a letter behind a backslash stands for. -/
def escapes : List (Char × Char) :=
  [('b', '\x08'), ('f', '\x0c'), ('n', '\n'), ('r', '\r'), ('t', '\t'), ('\\', '\\'), ('"', '"')]

def escapeNames : List String :=
  ["`b`", "`f`", "`n`", "`r`", "`t`", "`u`", "`U`", "`\\`", "`\"`"]

/-- The character with a number of so many hexadecimal digits. -/
def codePoint (count : Nat) : Reader Char := do
  let rest ← get
  let digits := rest.take count
  match digitsValue? 16 hexValue? digits with
  | none => refuse none []
  | some code =>
    if digits.length < count then refuse none []
    else if h : code.isValidChar then
      set (rest.drop count)
      return Char.ofNatAux code h
    else refuseFor .outOfRange rest

/-- A character written as an escape. A letter that stands for nothing is passed before
it is refused. -/
def escape : Reader Char := do
  mark '\\'
  match ← get with
  | [] => refuse none []
  | letter :: rest =>
    if letter = 'u' then
      set rest
      commit (named "unicode 4-digit hex code" (codePoint 4))
    else if letter = 'U' then
      set rest
      commit (named "unicode 8-digit hex code" (codePoint 8))
    else
      match escapes.lookup letter with
      | some c => set rest; return c
      | none =>
        if letter.utf8Size = 1 then set rest
        commit (refuse (some "escape sequence") escapeNames)

/-- Plain characters and escapes up to a double quote, or to what cannot stand in a
string. -/
def basicBody : Nat → Reader (List Char)
  | 0 => pure []
  | rounds + 1 => do
    match ← get with
    | '\\' :: _ =>
      match ← attempt escape with
      | some c => return c :: (← basicBody rounds)
      | none => return []
    | c :: rest =>
      if isPlain c && c != '"' then
        set rest
        return c :: (← basicBody rounds)
      else return []
    | [] => return []

def basicString : Reader String := do
  mark '"'
  let body ← basicBody (← get).length
  commit (named "basic string" (mark '"'))
  return String.ofList body

def literalString : Reader String := do
  mark '\''
  let body ← run fun c => isPlain c && c != '\''
  commit (named "literal string" (mark '\''))
  return String.ofList body

/-- A backslash at the end of a line, with all blanks and breaks behind it. -/
def continuation : Reader Unit := do
  mark '\\'
  spaces
  newline
  blankLines (← get).length

/-- The part of a string of several lines that stands for `chars`: a plain character, a
line break, or an escape where escapes count. -/
def piece (quote : Char) (escaped : Bool) : Reader (List Char) := do
  match ← get with
  | [] => refuse none []
  | c :: rest =>
    if escaped && c == '\\' then
      match ← attempt continuation with
      | some _ => return []
      | none => return [← escape]
    else if c == '\n' || c == '\r' then
      newline
      return ['\n']
    else if isPlain c && c != quote then
      set rest
      return [c]
    else refuse none []

/-- What a string of several lines stands for, up to the closing quotes. Of more than
three quotes the last three close it, and at most two more belong to it. -/
def linesBody (quote : Char) (escaped : Bool) : Nat → Reader (List Char)
  | 0 => pure []
  | rounds + 1 => do
    match ← attempt (piece quote escaped) with
    | some chars => return chars ++ (← linesBody quote escaped rounds)
    | none =>
      let rest ← get
      let quotes := rest.takeWhile (· == quote)
      let behind := rest.dropWhile (· == quote)
      if 3 ≤ quotes.length then
        let kept := (quotes.drop 3).take 2
        set (rest.drop kept.length)
        return kept
      else if quotes.isEmpty || behind.isEmpty then return []
      else
        set behind
        match ← attempt (piece quote escaped) with
        | some chars => return quotes ++ chars ++ (← linesBody quote escaped rounds)
        | none =>
          unless escaped do set rest
          return []

def linesString (construct : String) (quote : Char) (escaped : Bool) : Reader String := do
  let quotes := [quote, quote, quote]
  word quotes
  let _ ← attempt newline
  let body ← linesBody quote escaped (← get).length
  commit (named construct (word quotes))
  return String.ofList body

def string : Reader String := do
  match ← get with
  | '"' :: '"' :: '"' :: _ => linesString "multiline basic string" '"' true
  | '\'' :: '\'' :: '\'' :: _ => linesString "multiline literal string" '\'' false
  | '"' :: _ => basicString
  | _ => literalString

end FuzzHarness.Toml.Reader
