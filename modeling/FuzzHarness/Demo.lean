import FuzzHarness.Target.Basic

/-!
# Demo targets

Two built-in targets, one for each mode. The first crashes on inputs that begin with
one of two words; the second draws a count and a name, and crashes on a bad name with
a large count.
-/

namespace FuzzHarness.Demo

def badSite : Site := .symbolic "demo bad input"

def crashSite : Site := .symbolic "demo crash input"

def recordSite : Site := .symbolic "demo record"

def checkBytes (input : Bytes) : Code Unit Unit :=
  .mark 1 <|
    if (Text.Utf8.ofString "BAD").isPrefixOf input then
      .mark 2 (.panic badSite (.str "BAD input detected by harness!"))
    else if (Text.Utf8.ofString "CRAS").isPrefixOf input then
      .mark 3 (.panic crashSite (.str "CRASH input detected by harness!"))
    else .finish ()

/-- What the provider target does with its count and its name. -/
def checkRecord (count : Nat) (name : String) : Code Unit Unit :=
  if Text.startsWith "BAD".toList name.toList then
    .mark 11 <|
      if 8 < count then
        .mark 12 <| .panic recordSite
          (.string s!"record {Text.quoted name} claims {count} entries")
      else .finish ()
  else .finish ()

def checkRecords : Code Unit Unit :=
  .mark 10 <|
    .draw (.u64In 0 16) fun
      | some (.u64 count) =>
        .draw (.string 16) fun
          | some (.str name) => checkRecord count.toNat name
          | _ => .finish ()
      | _ => .finish ()

def target (mode : Mode) : Target Unit where
  name := match mode with
    | .bytes => "fuzzgate_cli::demo::check_bytes"
    | .provider => "fuzzgate_cli::demo::check_records"
  entry := match mode with
    | .bytes => .bytes checkBytes
    | .provider => .provider checkRecords
  startup := some (.plain (.mark 0 (.finish ())))
  tearDown := some (.finish (.ok ()))
  writer := none
  channel := .shared

end FuzzHarness.Demo
