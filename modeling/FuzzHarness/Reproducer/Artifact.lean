import FuzzHarness.Failure
import FuzzHarness.Files.Tree
import FuzzHarness.Recording.Codec
import FuzzHarness.Target.Mode
import FuzzHarness.Text.Pieces

/-!
# Reproducer files

A reproducer is a small source file that names its target and embeds the crashing
input. It is written by filling a template and read back from its header lines and
the line of its payload, whatever stands on the other lines.
-/

namespace FuzzHarness

structure Artifact where
  target : String
  mode : Mode
  /-- The input, or the recording of a target in provider mode, in Base64. -/
  payload : String
  contentHash : String
  deriving DecidableEq, Repr

/-- Why a reproducer cannot be read, written or run. -/
inductive ArtifactFault where
  | recording (fault : Recording.Fault)
  | writer (failure : Failure)
  | file (path : String) (fault : FileFault)
  | missingField (field : String)
  | invalidMode (word : String)
  | modeMismatch (artifact target : Mode)
  | payload (fault : Text.Base64.Fault)
  deriving DecidableEq, Repr

namespace ArtifactFault

def message : ArtifactFault → String
  | .recording fault => fault.message
  | .writer failure => "auto-target reproducer failed: " ++ failure.text
  | .file path fault => s!"I/O error on reproducer {Text.quoted path}: {fault.message}"
  | .missingField field => s!"reproducer is missing its {field} line"
  | .invalidMode word => s!"reproducer has invalid invocation mode: {word}"
  | .modeMismatch artifact target =>
    s!"reproducer was written for a {artifact.word} target but the target takes {target.word}"
  | .payload fault => s!"reproducer payload is not valid base64: {fault.message}"

/-- The texts of a fault and of what lies behind it. -/
def messages : ArtifactFault → List String
  | .recording fault => fault.messages
  | .file path fault => [(ArtifactFault.file path fault).message, fault.message]
  | .payload fault => [(ArtifactFault.payload fault).message, fault.message]
  | fault => [fault.message]

end ArtifactFault

namespace Artifact

def targetStart : String := "// Fuzz target: "

def modeStart : String := "// Invocation mode: "

def hashStart : String := "// Content hash: "

def payloadStart : String := "const DATA: &str = \""

def payloadEnd : String := "\";"

def template : String :=
  targetStart ++ "%TARGET%\n" ++
  modeStart ++ "%MODE%\n" ++
  hashStart ++ "%HASH%\n" ++
  "//\n" ++
  "// Reproduces a crash found by fuzzgate. Build it against the crate that defines\n" ++
  "// the fuzz target and run it to trigger the crash again.\n" ++
  "\n" ++
  payloadStart ++ "%PAYLOAD%" ++ payloadEnd ++ "\n" ++
  "\n" ++
  "fn main() \x7b\n" ++
  "%BODY%\n" ++
  "\x7d\n"

def bytesBody : String :=
  "    use base64::Engine as _;\n" ++
  "    let data = base64::engine::general_purpose::STANDARD\n" ++
  "        .decode(DATA)\n" ++
  "        .expect(\"reproducer payload is valid base64\");\n" ++
  "    %TARGET%(&data);"

def providerBody : String :=
  "    let mut provider = fuzzgate_core::recording::ReplayProvider::from_base64(DATA)\n" ++
  "        .expect(\"reproducer payload is a valid recording\");\n" ++
  "    %TARGET%(&mut provider);"

def body : Mode → String
  | .bytes => bytesBody
  | .provider => providerBody

/-- The name of the file, after the hash of the input. -/
def fileName (artifact : Artifact) : String :=
  s!"Crash_{artifact.contentHash}.rs"

def fill (placeholder filling : String) (text : List Char) : List Char :=
  Text.replaceAll placeholder.toList filling.toList text

/-- The source of a reproducer. The statements come first, because they hold a
placeholder themselves. -/
def render (artifact : Artifact) : String :=
  String.ofList <|
    fill "%PAYLOAD%" artifact.payload <|
      fill "%HASH%" artifact.contentHash <|
        fill "%MODE%" artifact.mode.word <|
          fill "%TARGET%" artifact.target <|
            fill "%BODY%" (body artifact.mode) template.toList

/-- The rest of the first line with a given beginning, without blanks around it. -/
def header? (start : String) (lines : List (List Char)) : Option String :=
  (lines.findSome? (Text.dropPrefix? start.toList)).map fun value =>
    String.ofList (Text.trim value)

def payloadOf? (line : List Char) : Option (List Char) :=
  (Text.dropPrefix? payloadStart.toList line).bind (Text.dropSuffix? payloadEnd.toList)

/-- What a reproducer tells, given its lines. The first fault in the order of the
fields counts. -/
def ofLines (lines : List (List Char)) : Except ArtifactFault Artifact :=
  match header? targetStart lines with
  | none => .error (.missingField "fuzz target")
  | some target =>
    match header? modeStart lines with
    | none => .error (.missingField "invocation mode")
    | some word =>
      match Mode.ofWord? word with
      | none => .error (.invalidMode word)
      | some mode =>
        match header? hashStart lines with
        | none => .error (.missingField "content hash")
        | some contentHash =>
          match lines.findSome? payloadOf? with
          | none => .error (.missingField "payload")
          | some payload => .ok ⟨target, mode, String.ofList payload, contentHash⟩

def parse (source : String) : Except ArtifactFault Artifact :=
  ofLines (Text.lines source.toList)

def readFrom (tree : FileTree) (path : String) : Except ArtifactFault Artifact :=
  match tree.readText path with
  | .error fault => .error (.file path fault)
  | .ok source => parse source

def pathIn (artifact : Artifact) (directory : String) : String :=
  Path.join directory artifact.fileName

def writeTo (artifact : Artifact) (tree : FileTree) (directory : String) :
    Except ArtifactFault FileTree :=
  let path := artifact.pathIn directory
  match tree.write path (Text.Utf8.ofString artifact.render) with
  | .error fault => .error (.file path fault)
  | .ok tree => .ok tree

end Artifact

end FuzzHarness
