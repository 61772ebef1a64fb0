import FuzzHarness.Finding.Basic
import FuzzHarness.Text.Hex

/-!
# Printed backtraces

A printed backtrace has a line for each symbol, numbered unless the symbol was
inlined into the one before, and after a symbol possibly a line with its location.
Reading it back yields one frame for each symbol. The hash that mangling appends to
a symbol is dropped.
-/

namespace FuzzHarness.Backtrace

open Text

/-- Whether a path component is an `h` followed by sixteen hexadecimal digits. -/
def isHash : List Char → Bool
  | 'h' :: digits => digits.length == 16 && digits.all fun c => (hexValue? c).isSome
  | _ => false

/-- A symbol without the hash component at its end. -/
def stripHash (symbol : List Char) : List Char :=
  match splitLast [':', ':'] symbol with
  | some (path, last) => if isHash last then path else symbol
  | none => symbol

/-- A symbol line without the number in front. -/
def stripIndex (line : List Char) : List Char :=
  match splitFirst [':', ' '] line with
  | some (index, symbol) => if index.all Char.isDigit then symbol else line
  | none => line

/-- Give the last frame a location unless it has one. -/
def locateLast (location : List Char) : List Frame → List Frame
  | [] => []
  | [frame] =>
    match frame.location with
    | none => [{ frame with location := some (String.ofList location) }]
    | some _ => [frame]
  | frame :: next :: frames => frame :: locateLast location (next :: frames)

/-- Take one line into account. -/
def readLine (frames : List Frame) (line : List Char) : List Frame :=
  let line := trim line
  if line.isEmpty then frames
  else
    match dropPrefix? ['a', 't', ' '] line with
    | some location => locateLast location frames
    | none => frames ++ [⟨String.ofList (stripHash (stripIndex line)), none⟩]

def parse (text : String) : List Frame :=
  (lines text.toList).foldl readLine []

end FuzzHarness.Backtrace
