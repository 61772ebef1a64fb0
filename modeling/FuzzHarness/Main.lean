import FuzzHarness.CommandLine.Run

/-!
# The program

Takes the working directory into memory, runs the command line on it, writes back the
files that changed, and prints the two streams.
-/

open FuzzHarness

/-- Read the files and directories below a directory, `place` being where it is. -/
partial def readTree (place : List String) (tree : FileTree) : IO FileTree := do
  let path := if place.isEmpty then "." else "/".intercalate place
  let mut tree := tree
  for entry in ← (← IO.FS.realPath path).readDir do
    let inner := place ++ [entry.fileName]
    if ← entry.path.isDir then
      tree ← readTree inner { tree with directories := inner :: tree.directories }
    else
      try
        let content ← IO.FS.readBinFile entry.path
        tree := tree.put inner content.toList
      catch _ => pure ()
  return tree

def main (arguments : List String) : IO UInt32 := do
  let before ← readTree [] .empty
  let result := CommandLine.run arguments before
  for (place, content) in result.tree.files do
    if before.files.lookup place != some content then
      IO.FS.writeBinFile ("/".intercalate place) ⟨content.toArray⟩
  IO.eprint result.err
  IO.print result.out
  return UInt32.ofNat result.exitCode
