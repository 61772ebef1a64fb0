import FuzzHarness.Files.Place

/-!
# File trees

The directories and regular files below a working directory. A path is resolved
component by component: everything but the last component has to be a directory,
and names have a limited length. Reading and writing fail as an operating system
does, with the same texts. Outside the working directory only the directories above
it are there.
-/

namespace FuzzHarness

inductive FileFault where
  | notFound
  | notADirectory
  | isADirectory
  | nameTooLong
  | nulByte
  | notText
  deriving DecidableEq, Repr

def FileFault.message : FileFault → String
  | .notFound => "No such file or directory (os error 2)"
  | .notADirectory => "Not a directory (os error 20)"
  | .isADirectory => "Is a directory (os error 21)"
  | .nameTooLong => "File name too long (os error 36)"
  | .nulByte => "file name contained an unexpected NUL byte"
  | .notText => "stream did not contain valid UTF-8"

inductive FileNode where
  | file (content : Bytes)
  | directory
  deriving DecidableEq, Repr

/-- The regular files and directories below a working directory, each under its
place. -/
structure FileTree where
  files : List (Place × Bytes)
  directories : List Place
  deriving DecidableEq, Repr

namespace FileTree

def empty : FileTree :=
  ⟨[], []⟩

def node? (tree : FileTree) (place : Place) : Option FileNode :=
  if place.isFixed || tree.directories.contains place then some .directory
  else (tree.files.lookup place).map .file

/-- Longest name of a file, in octets. -/
def longestName : Nat := 255

/-- Longest path, in octets. -/
def longestPath : Nat := 4095

/-- Go from a place to the component of a path. -/
def enter (tree : FileTree) (place : Place) (name : String) :
    Except FileFault Place :=
  match tree.node? place with
  | none => .error .notFound
  | some (.file _) => .error .notADirectory
  | some .directory =>
    if longestName < name.utf8ByteSize then .error .nameTooLong
    else .ok (place.follow name)

def walk (tree : FileTree) : Place → List String → Except FileFault Place
  | place, [] => .ok place
  | place, name :: names =>
    match tree.enter place name with
    | .error fault => .error fault
    | .ok place => tree.walk place names

/-- Refuse what is no path at all. -/
def checkPath (path : String) : Except FileFault Unit :=
  if path.toList.contains '\x00' then .error .nulByte
  else if path.isEmpty then .error .notFound
  else if longestPath < path.utf8ByteSize then .error .nameTooLong
  else .ok ()

def locate (tree : FileTree) (path : String) : Except FileFault (Place × FileNode) :=
  match checkPath path with
  | .error fault => .error fault
  | .ok () =>
    match tree.walk (Place.startOf path) (Path.components path) with
    | .error fault => .error fault
    | .ok place =>
      match tree.node? place with
      | none => .error .notFound
      | some (.file content) =>
        if Path.endsInSlash path then .error .notADirectory else .ok (place, .file content)
      | some .directory => .ok (place, .directory)

def pathExists (tree : FileTree) (path : String) : Bool :=
  (tree.locate path).toOption.isSome

def isFile (tree : FileTree) (path : String) : Bool :=
  match tree.locate path with
  | .ok (_, .file _) => true
  | _ => false

def read (tree : FileTree) (path : String) : Except FileFault Bytes :=
  match tree.locate path with
  | .error fault => .error fault
  | .ok (_, .directory) => .error .isADirectory
  | .ok (_, .file content) => .ok content

def readText (tree : FileTree) (path : String) : Except FileFault String :=
  match tree.read path with
  | .error fault => .error fault
  | .ok octets =>
    match Text.Utf8.decode octets with
    | .ok text => .ok text
    | .error _ => .error .notText

/-- Put a regular file at a place, whatever it holds. -/
def put (tree : FileTree) (place : Place) (content : Bytes) : FileTree :=
  { tree with files := (place, content) :: tree.files.filter fun entry => entry.1 != place }

theorem lookup_put_self (tree : FileTree) (place : Place) (content : Bytes) :
    (tree.put place content).files.lookup place = some content := by
  simp [put]

theorem lookup_put_of_ne (tree : FileTree) {place other : Place} (content : Bytes)
    (h : other ≠ place) :
    (tree.put place content).files.lookup other = tree.files.lookup other := by
  simp only [put, List.lookup_cons, beq_false_of_ne h]
  induction tree.files with
  | nil => rfl
  | cons entry entries ih =>
    obtain ⟨there, stored⟩ := entry
    by_cases same : there = place
    · subst same
      simp [ih, List.lookup_cons, beq_false_of_ne h]
    · simp [same, ih, List.lookup_cons]

def destination (tree : FileTree) (path : String) : Except FileFault Place :=
  match checkPath path with
  | .error fault => .error fault
  | .ok () =>
    let names := Path.components path
    match tree.walk (Place.startOf path) names.dropLast with
    | .error fault => .error fault
    | .ok parent =>
      match tree.node? parent with
      | none => .error .notFound
      | some (.file _) => .error .notADirectory
      | some .directory =>
        match names.getLast? with
        | none => .error .isADirectory
        | some name =>
          if Path.endsInSlash path || name == "." || name == ".." then .error .isADirectory
          else
            match tree.enter parent name with
            | .error fault => .error fault
            | .ok place =>
              match tree.node? place with
              | some .directory => .error .isADirectory
              | _ => .ok place

def write (tree : FileTree) (path : String) (content : Bytes) : Except FileFault FileTree :=
  (tree.destination path).map fun place => tree.put place content

/-- Create the directories at places, unless they are there. -/
def createAt (tree : FileTree) (places : List Place) : FileTree :=
  { tree with
    directories := places.foldl (fun known place =>
      if place.isFixed || known.contains place then known else known ++ [place])
        tree.directories }

/-- Create a directory and those on the way to it. -/
def createDirectories (tree : FileTree) (path : String) : FileTree :=
  tree.createAt ((Place.startOf path).along (Path.components path))

/-- Create a regular file and the directories on the way to it. -/
def createFile (tree : FileTree) (path : String) (content : Bytes) : FileTree :=
  let places := (Place.startOf path).along (Path.components path)
  match places.getLast? with
  | some place => (tree.createAt places.dropLast).put place content
  | none => tree

/-- The names of the regular files directly in the directory at a place. -/
def fileNames (tree : FileTree) (place : Place) : List String :=
  tree.files.filterMap fun entry =>
    if entry.1.dropLast = place then entry.1.getLast? else none

end FileTree

end FuzzHarness
