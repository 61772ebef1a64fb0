import FuzzHarness.Files.Tree
import FuzzHarness.Text.Blank
import FuzzHarness.Text.Quoted
import FuzzHarness.Toml.Document

/-!
# Settings of the harness

Each setting has a default; a settings file binds any of them by name. Settings are
valid if the number of findings to go on for is not zero and every entry to ignore
is a token.
-/

namespace FuzzHarness

structure Settings where
  /-- How many distinct findings end the run. -/
  keepGoing : UInt64
  dedup : Bool
  /-- Normalize findings of injected hooks and record startup coverage. -/
  hooks : Bool
  /-- Tokens that are never reported, in hexadecimal. -/
  ignore : List String
  reproducerPath : String
  coverageDump : Option String
  coverageReport : Option String
  /-- Arguments for the target's startup hook. -/
  targetArgs : List String
  deriving DecidableEq, Repr

inductive SettingsFault where
  | read (path : String) (fault : FileFault)
  /-- The document in the file has a fault, which is described. -/
  | parse (path description : String)
  | zeroKeepGoing
  | invalidToken (entry : String)
  deriving DecidableEq, Repr

namespace SettingsFault

def message : SettingsFault → String
  | .read path fault =>
    s!"Failed to read config file at {Text.quoted path}: {fault.message}"
  | .parse path description =>
    s!"Failed to parse TOML from config file {Text.quoted path}: {description}"
  | .zeroKeepGoing => "keep-going must be at least 1"
  | .invalidToken entry =>
    s!"ignore entry {Text.quoted entry} is not a 64-bit hex dedup token"

/-- The texts of a fault and of what lies behind it. -/
def messages : SettingsFault → List String
  | .read path fault => [(SettingsFault.read path fault).message, fault.message]
  | .parse path description => [(SettingsFault.parse path description).message, description]
  | fault => [fault.message]

end SettingsFault

namespace Settings

def default : Settings where
  keepGoing := 1
  dedup := true
  hooks := true
  ignore := []
  reproducerPath := "."
  coverageDump := none
  coverageReport := none
  targetArgs := []

/-- Digits without the marker of hexadecimal numbers. -/
def stripMarker : List Char → List Char
  | '0' :: 'x' :: digits => digits
  | '0' :: 'X' :: digits => digits
  | digits => digits

/-- The token of an entry: at most sixteen characters after an optional marker,
blanks around them not counting. -/
def token? (entry : String) : Option UInt64 :=
  let digits := stripMarker (Text.trim entry.toList)
  if digits.length ≤ 16 then Text.hexWord? digits else none

/-- The tokens of entries, or the first entry that is none. -/
def tokensOf : List String → Except SettingsFault (List UInt64)
  | [] => .ok []
  | entry :: entries =>
    match token? entry with
    | none => .error (.invalidToken entry)
    | some token => (tokensOf entries).map (token :: ·)

def ignoredTokens (settings : Settings) : Except SettingsFault (List UInt64) :=
  tokensOf settings.ignore

/-- Whether findings are told apart: going on past a finding, or ignoring some,
works only then. -/
def effectiveDedup (settings : Settings) : Bool :=
  settings.dedup || 1 < settings.keepGoing || !settings.ignore.isEmpty

def validate (settings : Settings) : Except SettingsFault Unit :=
  if settings.keepGoing = 0 then .error .zeroKeepGoing
  else settings.ignoredTokens.map fun _ => ()

def fields : List String :=
  ["keep-going", "dedup", "hooks", "ignore", "reproducer-path", "coverage-dump",
    "coverage-report", "target-args"]

/-- Refuse an item that is not of the type that is wanted. -/
def refuseItem {α : Type} (place : Toml.Span) (item : Toml.Item) (wanted : String) :
    Except Toml.Fault α :=
  .error ⟨place, none, [], some (.invalidType item.found wanted), true⟩

/-- The word that an item is. -/
def wordOf (place : Toml.Span) : Toml.Item → Except Toml.Fault UInt64
  | .scalar span (.integer value) =>
    let found := (Toml.Item.scalar span (.integer value)).found
    if 0 ≤ value then .ok (UInt64.ofNat value.toNat)
    else .error ⟨place, none, [], some (.invalidValue found "u64"), true⟩
  | item => refuseItem place item "u64"

/-- The truth value that an item is. -/
def switchOf (place : Toml.Span) : Toml.Item → Except Toml.Fault Bool
  | .scalar _ (.boolean value) => .ok value
  | item => refuseItem place item "a boolean"

def stringOf (wanted : String) (place : Toml.Span) : Toml.Item → Except Toml.Fault String
  | .scalar _ (.string value) => .ok value
  | item => refuseItem place item wanted

/-- The strings in an item; each has a place of its own. -/
def stringsOf (place : Toml.Span) : Toml.Item → Except Toml.Fault (List String)
  | .array _ items => items.mapM fun item => stringOf "a string" (item.span?.getD place) item
  | .tables items => items.mapM fun item => stringOf "a string" (item.span?.getD place) item
  | item => refuseItem place item "a sequence"

def bind (settings : Settings) : Toml.Key × Toml.Item → Except Toml.Fault Settings
  | (key, item) =>
    let place := item.span?.getD key.span
    let path := stringOf "path string" place item
    match key.name with
    | "keep-going" => (wordOf place item).map fun value => { settings with keepGoing := value }
    | "dedup" => (switchOf place item).map fun value => { settings with dedup := value }
    | "hooks" => (switchOf place item).map fun value => { settings with hooks := value }
    | "ignore" => (stringsOf place item).map fun values => { settings with ignore := values }
    | "reproducer-path" => path.map fun value => { settings with reproducerPath := value }
    | "coverage-dump" => path.map fun value => { settings with coverageDump := some value }
    | "coverage-report" => path.map fun value => { settings with coverageReport := some value }
    | "target-args" =>
      (stringsOf place item).map fun values => { settings with targetArgs := values }
    | name => .error ⟨key.span, none, [], some (.unknownField name fields), true⟩

def parse (text : String) : Except Toml.Fault Settings :=
  match Toml.document text with
  | .error fault => .error fault
  | .ok entries => entries.foldlM bind default

def load (tree : FileTree) (path : String) : Except SettingsFault Settings :=
  match tree.readText path with
  | .error fault => .error (.read path fault)
  | .ok text =>
    match parse text with
    | .error fault => .error (.parse path (fault.describe text))
    | .ok settings => settings.validate.map fun _ => settings

end Settings

end FuzzHarness
