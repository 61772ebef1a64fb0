import FuzzHarness.Files.Path

/-!
# Places

A place is where a path leads to, written as the components that go there from the
working directory. Places above the working directory begin with `..`; the root
directory is `/`, and what is below it begins with that.
-/

namespace FuzzHarness

/-- A place in a file system, seen from the working directory. -/
abbrev Place := List String

namespace Place

def here : Place := []

def root : Place := ["/"]

/-- Whether a place is the working directory or any number of steps above it. -/
def isAncestor (place : Place) : Bool :=
  place.all (· == "..")

/-- Whether a place is a directory in every file system. -/
def isFixed (place : Place) : Bool :=
  place.isAncestor || place == root

/-- Whether a place is the working directory or lies below it. -/
def isInside (place : Place) : Bool :=
  place.head? != some ".." && place.head? != root.head?

/-- The directory above a directory. The root directory is above itself. -/
def parent (place : Place) : Place :=
  if place == root then place
  else if place.isAncestor then place ++ [".."]
  else place.dropLast

def follow (place : Place) (name : String) : Place :=
  if name = "." then place
  else if name = ".." then place.parent
  else place ++ [name]

/-- The places through which components lead from a directory. -/
def along (place : Place) : List String → List Place
  | [] => []
  | name :: names => place.follow name :: (place.follow name).along names

/-- Where the components of a path begin. -/
def startOf (path : String) : Place :=
  if path.toList.head? == some '/' then root else here

end Place

end FuzzHarness
