import FuzzHarness.Text.Utf8

/-!
# Paths

A path is text with slashes between its components. Joining appends a relative
path, with a slash unless the first path is empty or ends in one.
-/

namespace FuzzHarness.Path

/-- Cut at every slash; empty components count. -/
def split : List Char → List (List Char)
  | [] => [[]]
  | c :: rest =>
    match split rest with
    | [] => [[c]]
    | piece :: pieces => if c = '/' then [] :: piece :: pieces else (c :: piece) :: pieces

def components (path : String) : List String :=
  ((split path.toList).filter fun piece => !piece.isEmpty).map String.ofList

def endsInSlash (path : String) : Bool :=
  path.toList.getLast? == some '/'

/-- Append a relative path; an absolute one replaces everything. -/
def join (directory path : String) : String :=
  if path.toList.head? == some '/' then path
  else if directory.isEmpty || endsInSlash directory then directory ++ path
  else directory ++ "/" ++ path

end FuzzHarness.Path
