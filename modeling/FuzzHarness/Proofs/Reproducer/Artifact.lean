import FuzzHarness.Proofs.Text.Lines
import FuzzHarness.Proofs.Text.Pieces
import FuzzHarness.Reproducer.Artifact

/-!
# Reproducer files are read back

The source of a reproducer is the template with its placeholders filled, line by line.
Fillings without percent signs and line feeds leave the lines of the template in place, so
that each field is found behind its beginning, and the payload between its quotes.
-/

namespace FuzzHarness.Artifact

open Text (Segment)

def preamble : List (List Char) :=
  ["//".toList,
    "// Reproduces a crash found by fuzzgate. Build it against the crate that defines".toList,
    "// the fuzz target and run it to trigger the crash again.".toList,
    []]

/-- The lines between the payload and the call of the target. -/
def opening : Mode → List (List Char)
  | .bytes =>
    [[],
      "fn main() \x7b".toList,
      "    use base64::Engine as _;".toList,
      "    let data = base64::engine::general_purpose::STANDARD".toList,
      "        .decode(DATA)".toList,
      "        .expect(\"reproducer payload is valid base64\");".toList]
  | .provider =>
    [[],
      "fn main() \x7b".toList,
      "    let mut provider = fuzzgate_core::recording::ReplayProvider::from_base64(DATA)".toList,
      "        .expect(\"reproducer payload is a valid recording\");".toList]

def callEnd : Mode → List Char
  | .bytes => "(&data);".toList
  | .provider => "(&mut provider);".toList

def renderedLines (artifact : Artifact) : List (List Char) :=
  (targetStart.toList ++ artifact.target.toList) ::
    (modeStart.toList ++ artifact.mode.word.toList) ::
    (hashStart.toList ++ artifact.contentHash.toList) ::
    (preamble ++
      (payloadStart.toList ++ artifact.payload.toList ++ payloadEnd.toList) ::
      (opening artifact.mode ++
        ["    ".toList ++ artifact.target.toList ++ callEnd artifact.mode, "\x7d".toList]))

def unlines (lines : List (List Char)) : List Char :=
  lines.flatMap (· ++ ['\n'])

def targetName : List Char := ['T', 'A', 'R', 'G', 'E', 'T']

def modeName : List Char := ['M', 'O', 'D', 'E']

def hashName : List Char := ['H', 'A', 'S', 'H']

def payloadName : List Char := ['P', 'A', 'Y', 'L', 'O', 'A', 'D']

/-- The template for a mode, with its statements in place. -/
def segments (mode : Mode) : List Segment :=
  [.plain targetStart.toList, .hole targetName,
    .plain ('\n' :: modeStart.toList), .hole modeName,
    .plain ('\n' :: hashStart.toList), .hole hashName,
    .plain ('\n' :: unlines preamble ++ payloadStart.toList), .hole payloadName,
    .plain (payloadEnd.toList ++ '\n' :: unlines (opening mode) ++ "    ".toList),
    .hole targetName, .plain (callEnd mode ++ '\n' :: unlines ["\x7d".toList])]

theorem fill_body (mode : Mode) :
    fill "%BODY%" (body mode) template.toList = Segment.join (segments mode) := by
  cases mode
  · unfold fill body template bytesBody segments preamble opening callEnd targetStart modeStart
      hashStart payloadStart payloadEnd
    repeat rw [String.toList_append]
    repeat rw [String.toList_ofList]
    decide +kernel
  · unfold fill body template providerBody segments preamble opening callEnd targetStart modeStart
      hashStart payloadStart payloadEnd
    repeat rw [String.toList_append]
    repeat rw [String.toList_ofList]
    decide +kernel

theorem isTemplate_segments (mode : Mode) : Segment.isTemplate (segments mode) = true := by
  cases mode
  · unfold segments preamble opening callEnd targetStart modeStart hashStart payloadStart payloadEnd
    repeat rw [String.toList_ofList]
    decide +kernel
  · unfold segments preamble opening callEnd targetStart modeStart hashStart payloadStart payloadEnd
    repeat rw [String.toList_ofList]
    decide +kernel

/-- Text that leaves the lines of a template in place. -/
def IsPlainText (text : String) : Prop :=
  '%' ∉ text.toList ∧ '\n' ∉ text.toList

/-- An artifact whose texts can stand in a reproducer, on a line of their own where they
are read back without blanks around them. -/
structure IsPlain (artifact : Artifact) : Prop where
  target : IsPlainText artifact.target
  contentHash : IsPlainText artifact.contentHash
  payload : IsPlainText artifact.payload
  trimTarget : Text.trim artifact.target.toList = artifact.target.toList
  trimHash : Text.trim artifact.contentHash.toList = artifact.contentHash.toList

theorem isPlainText_word (mode : Mode) : IsPlainText mode.word := by
  cases mode <;> exact ⟨by decide +kernel, by decide +kernel⟩

theorem trim_word (mode : Mode) : Text.trim mode.word.toList = mode.word.toList := by
  cases mode <;> decide +kernel

/-- A placeholder filled in a template. -/
theorem fill_join (name : List Char) {placeholder filling : String}
    (chars : placeholder.toList = (Segment.hole name).chars)
    (named : Segment.isName name = true) {segments : List Segment}
    (template : Segment.isTemplate segments = true) :
    fill placeholder filling (Segment.join segments) =
      Segment.join (segments.map (Segment.fill name filling.toList)) := by
  rw [fill, chars]
  exact Text.replaceAll_join named template

/-- The source of a reproducer is its lines. -/
theorem render_toList {artifact : Artifact} (plain : artifact.IsPlain) :
    artifact.render.toList = unlines artifact.renderedLines := by
  have start := isTemplate_segments artifact.mode
  have first := Segment.isTemplate_map_fill targetName plain.target.1 start
  have second := Segment.isTemplate_map_fill modeName
    (isPlainText_word artifact.mode).1 first
  have third := Segment.isTemplate_map_fill hashName plain.contentHash.1 second
  rw [render, String.toList_ofList, fill_body,
    fill_join targetName (by decide +kernel) (by decide +kernel) start,
    fill_join modeName (by decide +kernel) (by decide +kernel) first,
    fill_join hashName (by decide +kernel) (by decide +kernel) second,
    fill_join payloadName (by decide +kernel) (by decide +kernel) third]
  change Segment.join [.plain targetStart.toList, .plain artifact.target.toList,
    .plain ('\n' :: modeStart.toList), .plain artifact.mode.word.toList,
    .plain ('\n' :: hashStart.toList), .plain artifact.contentHash.toList,
    .plain ('\n' :: unlines preamble ++ payloadStart.toList), .plain artifact.payload.toList,
    .plain (payloadEnd.toList ++ '\n' :: unlines (opening artifact.mode) ++ "    ".toList),
    .plain artifact.target.toList,
    .plain (callEnd artifact.mode ++ '\n' :: unlines ["\x7d".toList])] = _
  simp [Segment.join, Segment.chars, unlines, renderedLines, List.flatMap_append]

/-- Text without blanks at its end does not end in a carriage return. -/
theorem getLast?_ne_of_trim {text : List Char} (trimmed : Text.trim text = text) :
    text.getLast? ≠ some '\r' := by
  intro ends
  rw [← trimmed, Text.trim, Text.trimEnd, List.getLast?_reverse] at ends
  have blank := List.head?_dropWhile_not Text.isBlank (Text.trimStart text).reverse
  rw [ends] at blank
  cases blank

/-- Text behind a beginning that ends in a space makes a line. -/
theorem isLine_header {start text : List Char}
    (header : '\n' ∉ start ∧ start.getLast? = some ' ') (plain : '\n' ∉ text)
    (trimmed : Text.trim text = text) : Text.IsLine (start ++ text) := by
  constructor
  · rw [List.mem_append]
    exact not_or.mpr ⟨header.1, plain⟩
  · rw [List.getLast?_append]
    cases last : text.getLast? with
    | none =>
        rw [header.2]
        decide
    | some c =>
        have differs := getLast?_ne_of_trim trimmed
        rw [last] at differs
        exact differs

theorem isLine_closed {lines : List (List Char)}
    (closed : lines.all (fun line => !line.contains '\n' && line.getLast? != some '\r') = true) :
    ∀ line ∈ lines, Text.IsLine line := by
  intro line mem
  have both := List.all_eq_true.mp closed line mem
  simpa [Text.IsLine] using both

theorem isLine_preamble : ∀ line ∈ preamble, Text.IsLine line := by
  apply isLine_closed
  unfold preamble
  repeat rw [String.toList_ofList]
  decide +kernel

theorem isLine_opening (mode : Mode) : ∀ line ∈ opening mode, Text.IsLine line := by
  apply isLine_closed
  cases mode
  · unfold opening
    repeat rw [String.toList_ofList]
    decide +kernel
  · unfold opening
    repeat rw [String.toList_ofList]
    decide +kernel

/-- Text that ends in a semicolon makes a line. -/
theorem isLine_statement {start text tail : List Char} (free : '\n' ∉ start)
    (plain : '\n' ∉ text) (closes : '\n' ∉ tail ∧ tail.getLast? = some ';') :
    Text.IsLine (start ++ text ++ tail) := by
  constructor
  · rw [List.mem_append, List.mem_append]
    exact not_or.mpr ⟨not_or.mpr ⟨free, plain⟩, closes.1⟩
  · rw [List.getLast?_append, closes.2]
    intro ends
    exact absurd (Option.some.inj ends) (by decide)

theorem isLine_renderedLines {artifact : Artifact} (plain : artifact.IsPlain) :
    ∀ line ∈ artifact.renderedLines, Text.IsLine line := by
  have freeEnd (mode : Mode) : '\n' ∉ callEnd mode ∧ (callEnd mode).getLast? = some ';' := by
    cases mode <;> exact ⟨by decide +kernel, by decide +kernel⟩
  rw [renderedLines]
  simp only [List.forall_mem_cons, List.forall_mem_append]
  refine ⟨?_, ?_, ?_, isLine_preamble, ?_, isLine_opening artifact.mode, ?_, ?_, nofun⟩
  · exact isLine_header (by decide +kernel) plain.target.2 plain.trimTarget
  · exact isLine_header (by decide +kernel) (isPlainText_word artifact.mode).2
      (trim_word artifact.mode)
  · exact isLine_header (by decide +kernel) plain.contentHash.2 plain.trimHash
  · exact isLine_statement (by decide +kernel) plain.payload.2 (by decide +kernel)
  · exact isLine_statement (by decide +kernel) plain.target.2 (freeEnd artifact.mode)
  · exact ⟨by decide +kernel, by decide +kernel⟩

theorem header?_cons_self (start : String) (text : List Char) (rest : List (List Char)) :
    header? start ((start.toList ++ text) :: rest) = some (String.ofList (Text.trim text)) := by
  rw [header?, List.findSome?_cons, Text.dropPrefix?_append]
  rfl

theorem header?_cons_of_none {start : String} {line : List Char}
    (differs : Text.dropPrefix? start.toList line = none) (rest : List (List Char)) :
    header? start (line :: rest) = header? start rest := by
  rw [header?, List.findSome?_cons, differs]
  rfl

/-- A beginning is not found on a line with another one. -/
theorem dropPrefix?_header {start other : String} (differs : start ≠ other)
    (headers : start ∈ [targetStart, modeStart, hashStart] ∧
      other ∈ [targetStart, modeStart, hashStart]) (text : List Char) :
    Text.dropPrefix? start.toList (other.toList ++ text) = none := by
  have key : ∀ start ∈ [targetStart, modeStart, hashStart],
      ∀ other ∈ [targetStart, modeStart, hashStart], start ≠ other →
        start.toList.take 4 ≠ other.toList.take 4 := by decide +kernel
  apply Option.eq_none_iff_forall_ne_some.mpr
  intro rest same
  have whole := Text.dropPrefix?_eq_some_iff.mp same
  have long : ∀ start ∈ [targetStart, modeStart, hashStart], 4 ≤ start.toList.length := by
    decide +kernel
  have four := congrArg (List.take 4) whole
  rw [List.take_append_of_le_length (long _ headers.2),
    List.take_append_of_le_length (long _ headers.1)] at four
  exact key _ headers.1 _ headers.2 differs four.symm

theorem payloadOf?_comment (text : List Char) : payloadOf? ('/' :: text) = none := by
  unfold payloadOf? payloadStart
  rw [String.toList_ofList]
  rfl

theorem payloadOf?_payload (payload : List Char) :
    payloadOf? (payloadStart.toList ++ payload ++ payloadEnd.toList) = some payload := by
  rw [payloadOf?, List.append_assoc, Text.dropPrefix?_append, Option.bind_some, Text.dropSuffix?,
    List.reverse_append, Text.dropPrefix?_append, Option.map_some, List.reverse_reverse]

/-- The payload is the first one on the lines. -/
theorem findSome?_payloadOf? (artifact : Artifact) :
    artifact.renderedLines.findSome? payloadOf? = some artifact.payload.toList := by
  have comment (start : String) (mem : start ∈ [targetStart, modeStart, hashStart])
      (text : List Char) : payloadOf? (start.toList ++ text) = none := by
    have slash : ∀ start ∈ [targetStart, modeStart, hashStart],
        start.toList = '/' :: start.toList.tail := by decide +kernel
    rw [slash start mem, List.cons_append]
    exact payloadOf?_comment _
  have before : preamble.findSome? payloadOf? = none := by decide +kernel
  rw [renderedLines, List.findSome?_cons, comment _ (by decide), List.findSome?_cons,
    comment _ (by decide), List.findSome?_cons, comment _ (by decide), List.findSome?_append,
    before, List.findSome?_cons, payloadOf?_payload]
  rfl

/-- The lines of a reproducer tell what it was made from. -/
theorem ofLines_renderedLines {artifact : Artifact} (plain : artifact.IsPlain) :
    ofLines artifact.renderedLines = .ok artifact := by
  have target : header? targetStart artifact.renderedLines = some artifact.target := by
    rw [renderedLines, header?_cons_self, plain.trimTarget, String.ofList_toList]
  have mode : header? modeStart artifact.renderedLines = some artifact.mode.word := by
    rw [renderedLines, header?_cons_of_none (dropPrefix?_header (by decide) (by decide) _),
      header?_cons_self, trim_word, String.ofList_toList]
  have hash : header? hashStart artifact.renderedLines = some artifact.contentHash := by
    rw [renderedLines, header?_cons_of_none (dropPrefix?_header (by decide) (by decide) _),
      header?_cons_of_none (dropPrefix?_header (by decide) (by decide) _), header?_cons_self,
      plain.trimHash, String.ofList_toList]
  rw [ofLines, target]
  dsimp only
  rw [mode]
  dsimp only
  rw [Mode.ofWord?_word, hash]
  dsimp only
  rw [findSome?_payloadOf?]
  dsimp only
  rw [String.ofList_toList]

/-- A reproducer tells what it was made from. -/
theorem parse_render {artifact : Artifact} (plain : artifact.IsPlain) :
    parse artifact.render = .ok artifact := by
  rw [parse, render_toList plain, unlines, Text.lines_flatMap (isLine_renderedLines plain)]
  exact ofLines_renderedLines plain

end FuzzHarness.Artifact
