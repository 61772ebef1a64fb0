import FuzzHarness.Finding.Backtrace
import FuzzHarness.Proofs.Text.Cuts
import FuzzHarness.Proofs.Text.Decimal
import FuzzHarness.Proofs.Text.Numeral

/-!
# Printed backtraces are read back

A backtrace is printed group by group: the first symbol of a group behind its index, and each
symbol that was inlined into it on a line of its own, every symbol with a line for its location
if that is known. However wide the columns are, reading yields a frame for each symbol, with
its location and without its hash, and blank lines in between change nothing.
-/

namespace FuzzHarness.Backtrace

open Text (IsSolid)

/-- A symbol and where it stands, if that is known. -/
structure Symbol where
  name : List Char
  location : Option (List Char)

/-- The symbols found for one address of a stack: one, and those that were inlined into it. -/
structure Group where
  index : Nat
  first : Symbol
  inlined : List Symbol

/-- The columns of a printed backtrace. -/
structure Layout where
  /-- The width of an index with the spaces before it. -/
  index : Nat
  /-- How far symbols without an index are indented. -/
  inlined : Nat
  /-- How far locations are indented. -/
  location : Nat

def Layout.standard : Layout :=
  ⟨4, 6, 13⟩

def spaces (count : Nat) : List Char :=
  List.replicate count ' '

def locationStart : List Char :=
  ['a', 't', ' ']

def indexEnd : List Char :=
  [':', ' ']

/-- The lines of a symbol behind the start of its line. -/
def Symbol.printed (layout : Layout) (start : List Char) (symbol : Symbol) : List (List Char) :=
  (start ++ symbol.name) ::
    symbol.location.toList.map fun location =>
      spaces layout.location ++ (locationStart ++ location)

def Group.symbols (group : Group) : List Symbol :=
  group.first :: group.inlined

/-- The start of the line of an index, which is aligned to the right. -/
def indexStart (layout : Layout) (index : Nat) : List Char :=
  List.leftpad layout.index ' ' (Text.numeral index) ++ indexEnd

def Group.printed (layout : Layout) (group : Group) : List (List Char) :=
  group.first.printed layout (indexStart layout group.index) ++
    group.inlined.flatMap (Symbol.printed layout (spaces layout.inlined))

def print (layout : Layout) (groups : List Group) : String :=
  String.ofList ((groups.flatMap (Group.printed layout)).flatMap (· ++ ['\n']))

/-- A symbol whose texts fit into lines. -/
structure Symbol.IsPrintable (symbol : Symbol) : Prop where
  name : IsSolid symbol.name
  location : ∀ location ∈ symbol.location, IsSolid location

/-- The name of a symbol is taken neither for a location nor for a symbol with an index. -/
structure Symbol.StandsAlone (symbol : Symbol) : Prop where
  notLocation : ¬locationStart <+: symbol.name
  notIndexed : ∀ digits rest, symbol.name = digits ++ indexEnd ++ rest →
    ¬∀ c ∈ digits, c.isDigit = true

/-- A group whose symbols fit into lines and are told apart from what else stands there. -/
structure Group.IsPrintable (group : Group) : Prop where
  symbols : ∀ symbol ∈ group.symbols, symbol.IsPrintable
  inlined : ∀ symbol ∈ group.inlined, symbol.StandsAlone

instance (symbol : Symbol) : Decidable symbol.IsPrintable :=
  decidable_of_iff (IsSolid symbol.name ∧ ∀ location ∈ symbol.location, IsSolid location)
    ⟨fun ⟨name, location⟩ => ⟨name, location⟩, fun ⟨name, location⟩ => ⟨name, location⟩⟩

/-- What mangling appends to a symbol: an `h` with sixteen hexadecimal digits. -/
def IsHashPart (text : List Char) : Prop :=
  ∃ digits, text = [':', ':', 'h'] ++ digits ∧ digits.length = 16 ∧
    ∀ c ∈ digits, c ∈ Text.hexDigits

/-- A symbol without the hash at its end, or as it is if it has none. -/
def Unhashed (symbol path : List Char) : Prop :=
  (∃ hash, IsHashPart hash ∧ symbol = path ++ hash) ∨
    path = symbol ∧ ¬∃ hash, IsHashPart hash ∧ hash <:+ symbol

theorem isHash_iff {text : List Char} :
    isHash text = true ↔ IsHashPart ([':', ':'] ++ text) := by
  constructor
  · intro hash
    unfold isHash at hash
    split at hash
    · next digits =>
      obtain ⟨count, hex⟩ := Bool.and_eq_true_iff.mp hash
      refine ⟨digits, rfl, by simpa using count, ?_⟩
      intro c mem
      have digit := List.all_eq_true.mp hex c mem
      rw [Text.hexValue?_eq] at digit
      by_contra other
      rw [if_neg other] at digit
      cases digit
    · cases hash
  · rintro ⟨digits, same, count, hex⟩
    obtain rfl : text = 'h' :: digits := List.append_cancel_left same
    have all : digits.all (fun c => (Text.hexValue? c).isSome) = true := by
      refine List.all_eq_true.mpr fun c mem => ?_
      rw [Text.hexValue?_eq, if_pos (hex c mem)]
      rfl
    simp [isHash, count, all]

/-- A colon is no part of a hash behind the two it begins with. -/
theorem colon_not_mem_of_isHash {text : List Char} (hash : isHash text = true) : ':' ∉ text := by
  obtain ⟨digits, same, _, hex⟩ := isHash_iff.mp hash
  obtain rfl : text = 'h' :: digits := List.append_cancel_left same
  intro mem
  rcases List.mem_cons.mp mem with first | later
  · exact absurd first (by decide)
  · exact absurd (hex ':' later) (by decide +kernel)

/-- Reading takes just the hash away. -/
theorem unhashed_stripHash (symbol : List Char) : Unhashed symbol (stripHash symbol) := by
  have found {path last : List Char} (hash : isHash last = true)
      (whole : symbol = path ++ ([':', ':'] ++ last)) : stripHash symbol = path := by
    have cut := Text.splitLast_append (colon_not_mem_of_isHash hash) path [':']
    rw [stripHash, whole, ← List.append_assoc]
    simp only [List.singleton_append] at cut
    rw [cut]
    exact if_pos hash
  by_cases hashed : ∃ hash, IsHashPart hash ∧ hash <:+ symbol
  · obtain ⟨_, part, path, whole⟩ := hashed
    obtain ⟨digits, rfl, _, _⟩ := id part
    have hash : isHash ('h' :: digits) = true := isHash_iff.mpr part
    rw [found hash whole.symm]
    exact .inl ⟨_, part, whole.symm⟩
  · refine .inr ⟨?_, hashed⟩
    unfold stripHash
    split
    · next path last cut =>
      split
      · next hash =>
        have whole := Text.eq_append_of_splitLast cut
        rw [List.append_assoc] at whole
        exact absurd ⟨_, isHash_iff.mp hash, path, whole.symm⟩ hashed
      · rfl
    · rfl

theorem stripIndex_append {digits : List Char} (number : ∀ c ∈ digits, c.isDigit = true)
    (name : List Char) : stripIndex (digits ++ indexEnd ++ name) = name := by
  have free : ':' ∉ digits := fun mem => absurd (number ':' mem) (by decide)
  have cut := Text.splitFirst_append free [' '] name
  rw [stripIndex, indexEnd]
  simp only [List.append_assoc, List.cons_append, List.nil_append] at cut ⊢
  rw [cut]
  exact if_pos (List.all_eq_true.mpr number)

/-- A name stands alone just if reading takes nothing from its start. -/
theorem standsAlone_iff {symbol : Symbol} :
    symbol.StandsAlone ↔ ¬locationStart <+: symbol.name ∧ stripIndex symbol.name = symbol.name := by
  constructor
  · intro alone
    refine ⟨alone.notLocation, ?_⟩
    unfold stripIndex
    split
    · next digits rest cut =>
      have whole := Text.eq_append_of_splitFirst cut
      refine if_neg fun number => ?_
      exact alone.notIndexed digits rest whole (List.all_eq_true.mp number)
    · rfl
  · rintro ⟨notLocation, kept⟩
    refine ⟨notLocation, ?_⟩
    intro digits rest whole number
    rw [whole, stripIndex_append number] at kept
    have lengths := congrArg List.length kept
    simp only [List.length_append, indexEnd, List.length_cons, List.length_nil] at lengths
    omega

instance (symbol : Symbol) : Decidable symbol.StandsAlone :=
  decidable_of_iff _ standsAlone_iff.symm

instance (group : Group) : Decidable group.IsPrintable :=
  decidable_of_iff ((∀ symbol ∈ group.symbols, symbol.IsPrintable) ∧
      ∀ symbol ∈ group.inlined, symbol.StandsAlone)
    ⟨fun ⟨symbols, inlined⟩ => ⟨symbols, inlined⟩, fun ⟨symbols, inlined⟩ => ⟨symbols, inlined⟩⟩

/-- A symbol with no location yet. -/
def frameOf (name : List Char) : Frame :=
  ⟨String.ofList (stripHash name), none⟩

theorem blank_spaces (count : Nat) : ∀ c ∈ spaces count, Text.isBlank c = true := by
  intro c mem
  rw [List.eq_of_mem_replicate mem]
  decide

/-- A blank line is passed over. -/
theorem readLine_of_blank {line : List Char} (blank : ∀ c ∈ line, Text.isBlank c = true)
    (frames : List Frame) : readLine frames line = frames := by
  have nothing : Text.trim line = [] := by
    have indented := Text.trim_indented blank Text.trim_nil
    rwa [List.append_nil] at indented
  rw [readLine, nothing]
  rfl

/-- The line of a symbol yields a new frame. -/
theorem readLine_symbol {indent line : List Char} (blank : ∀ c ∈ indent, Text.isBlank c = true)
    (solid : IsSolid line) (notLocation : ¬locationStart <+: line) (frames : List Frame) :
    readLine frames (indent ++ line) = frames ++ [frameOf (stripIndex line)] := by
  have other : Text.dropPrefix? ['a', 't', ' '] line = none := by
    apply Option.eq_none_iff_forall_ne_some.mpr
    intro rest found
    exact notLocation ⟨rest, (Text.dropPrefix?_eq_some_iff.mp found).symm⟩
  have written : ¬line.isEmpty := by simpa using solid.nonempty
  rw [readLine, Text.trim_indented blank solid.trimmed, if_neg written, other]
  rfl

theorem locateLast_concat (location : List Char) (frames : List Frame) (function : String) :
    locateLast location (frames ++ [⟨function, none⟩]) =
      frames ++ [⟨function, some (String.ofList location)⟩] := by
  induction frames with
  | nil => rfl
  | cons frame frames ih =>
      cases frames with
      | nil => rfl
      | cons next frames => exact congrArg (frame :: ·) ih

/-- The line of a location completes the last frame. -/
theorem readLine_location (layout : Layout) {location : List Char} (solid : IsSolid location)
    (frames : List Frame) (function : String) :
    readLine (frames ++ [⟨function, none⟩])
        (spaces layout.location ++ (locationStart ++ location)) =
      frames ++ [⟨function, some (String.ofList location)⟩] := by
  have whole : IsSolid (locationStart ++ location) := solid.append (by decide) (by decide)
  have found : Text.dropPrefix? ['a', 't', ' '] (locationStart ++ location) = some location :=
    Text.dropPrefix?_append _ _
  rw [readLine, Text.trim_indented (blank_spaces _) whole.trimmed,
    if_neg (by simpa using whole.nonempty), found]
  exact locateLast_concat location frames function

theorem isSolid_indexed (index : Nat) {name : List Char} (solid : IsSolid name) :
    IsSolid (Text.numeral index ++ indexEnd ++ name) := by
  have free : '\n' ∉ Text.numeral index ++ indexEnd := by
    intro mem
    rcases List.mem_append.mp mem with digit | ending
    · exact absurd (Text.isDigit_of_mem_numeral digit) (by decide)
    · exact absurd ending (by decide)
  obtain ⟨digit, digits, written, number⟩ := Text.exists_numeral_eq_cons index
  rw [written] at free ⊢
  exact solid.append (Text.isBlank_of_isDigit number) free

/-- The line of a symbol behind an index yields its frame. -/
theorem readLine_indexStart (layout : Layout) (index : Nat) {name : List Char}
    (solid : IsSolid name) (frames : List Frame) :
    readLine frames (indexStart layout index ++ name) = frames ++ [frameOf name] := by
  have number : ∀ c ∈ Text.numeral index, c.isDigit = true :=
    fun c mem => Text.isDigit_of_mem_numeral mem
  -- The digit in front keeps the line from being taken for a location, whatever the name is.
  have notLocation : ¬locationStart <+: Text.numeral index ++ indexEnd ++ name := by
    rintro ⟨rest, same⟩
    obtain ⟨digit, digits, written, letter⟩ := Text.exists_numeral_eq_cons index
    rw [written] at same
    obtain ⟨first, _⟩ := List.cons.inj same
    exact absurd (first ▸ letter) (by decide)
  have read := readLine_symbol (blank_spaces (layout.index - (Text.numeral index).length))
    (isSolid_indexed index solid) notLocation frames
  rw [stripIndex_append number] at read
  simpa only [indexStart, List.leftpad, spaces, List.append_assoc] using read

/-- The line of a symbol that was inlined yields its frame. -/
theorem readLine_inlined (layout : Layout) {symbol : Symbol} (solid : IsSolid symbol.name)
    (alone : symbol.StandsAlone) (frames : List Frame) :
    readLine frames (spaces layout.inlined ++ symbol.name) = frames ++ [frameOf symbol.name] := by
  obtain ⟨notLocation, kept⟩ := standsAlone_iff.mp alone
  have read := readLine_symbol (blank_spaces layout.inlined) solid notLocation frames
  rwa [kept] at read

/-- The frame that is read for a symbol. -/
def Symbol.frame (symbol : Symbol) : Frame :=
  ⟨String.ofList (stripHash symbol.name), symbol.location.map String.ofList⟩

/-- A frame tells a symbol without its hash, and its location. -/
def Shows (symbol : Symbol) (frame : Frame) : Prop :=
  Unhashed symbol.name frame.function.toList ∧
    frame.location = symbol.location.map String.ofList

theorem shows_frame (symbol : Symbol) : Shows symbol symbol.frame := by
  constructor
  · rw [Symbol.frame, String.toList_ofList]
    exact unhashed_stripHash symbol.name
  · rfl

/-- The lines of a symbol yield its frame if the first of them yields one. -/
theorem foldl_symbol (layout : Layout) {start : List Char} {symbol : Symbol}
    (printable : symbol.IsPrintable) {frames : List Frame}
    (opens : readLine frames (start ++ symbol.name) = frames ++ [frameOf symbol.name]) :
    (symbol.printed layout start).foldl readLine frames = frames ++ [symbol.frame] := by
  rw [Symbol.printed, List.foldl_cons, opens, Symbol.frame]
  cases known : symbol.location with
  | none => rfl
  | some location =>
      exact readLine_location layout (printable.location location known) frames _

theorem foldl_inlined (layout : Layout) {symbols : List Symbol}
    (printable : ∀ symbol ∈ symbols, symbol.IsPrintable)
    (alone : ∀ symbol ∈ symbols, symbol.StandsAlone) (frames : List Frame) :
    (symbols.flatMap (Symbol.printed layout (spaces layout.inlined))).foldl readLine frames =
      frames ++ symbols.map Symbol.frame := by
  induction symbols generalizing frames with
  | nil => simp
  | cons symbol symbols ih =>
      obtain ⟨first, later⟩ := List.forall_mem_cons.mp printable
      obtain ⟨firstAlone, laterAlone⟩ := List.forall_mem_cons.mp alone
      have opens := readLine_inlined layout first.name firstAlone frames
      rw [List.flatMap_cons, List.foldl_append, foldl_symbol layout first opens,
        ih later laterAlone]
      simp

theorem foldl_group (layout : Layout) {group : Group} (printable : group.IsPrintable)
    (frames : List Frame) :
    (group.printed layout).foldl readLine frames = frames ++ group.symbols.map Symbol.frame := by
  obtain ⟨first, later⟩ := List.forall_mem_cons.mp printable.symbols
  have opens := readLine_indexStart layout group.index first.name frames
  rw [Group.printed, List.foldl_append, foldl_symbol layout first opens,
    foldl_inlined layout later printable.inlined, Group.symbols]
  simp

/-- A frame is read for each symbol of all groups. -/
theorem foldl_groups (layout : Layout) {groups : List Group}
    (printable : ∀ group ∈ groups, group.IsPrintable) (frames : List Frame) :
    (groups.flatMap (Group.printed layout)).foldl readLine frames =
      frames ++ (groups.flatMap Group.symbols).map Symbol.frame := by
  induction groups generalizing frames with
  | nil => simp
  | cons group groups ih =>
      obtain ⟨first, later⟩ := List.forall_mem_cons.mp printable
      rw [List.flatMap_cons, List.foldl_append, foldl_group layout first, ih later]
      simp

theorem feed_not_mem_spaces (count : Nat) : '\n' ∉ spaces count := by
  intro mem
  exact absurd (List.eq_of_mem_replicate mem) (by decide)

theorem isLine_symbol (layout : Layout) {start : List Char} (free : '\n' ∉ start)
    {symbol : Symbol} (printable : symbol.IsPrintable) :
    ∀ line ∈ symbol.printed layout start, Text.IsLine line := by
  intro line mem
  rcases List.mem_cons.mp mem with rfl | mem
  · exact printable.name.isLine free
  · obtain ⟨location, known, rfl⟩ := List.mem_map.mp mem
    have solid := printable.location location (Option.mem_toList.mp known)
    have whole : IsSolid (locationStart ++ location) := solid.append (by decide) (by decide)
    exact whole.isLine (feed_not_mem_spaces _)

theorem feed_not_mem_indexStart (layout : Layout) (index : Nat) :
    '\n' ∉ indexStart layout index := by
  intro mem
  rcases List.mem_append.mp mem with number | ending
  · rcases List.mem_append.mp number with padding | digit
    · exact absurd (List.eq_of_mem_replicate padding) (by decide)
    · exact absurd (Text.isDigit_of_mem_numeral digit) (by decide)
  · exact absurd ending (by decide)

theorem isLine_groups (layout : Layout) {groups : List Group}
    (printable : ∀ group ∈ groups, group.IsPrintable) :
    ∀ line ∈ groups.flatMap (Group.printed layout), Text.IsLine line := by
  intro line mem
  obtain ⟨group, known, mem⟩ := List.mem_flatMap.mp mem
  obtain ⟨first, later⟩ := List.forall_mem_cons.mp (printable group known).symbols
  rcases List.mem_append.mp mem with mem | mem
  · exact isLine_symbol layout (feed_not_mem_indexStart layout _) first line mem
  · obtain ⟨symbol, inlined, mem⟩ := List.mem_flatMap.mp mem
    exact isLine_symbol layout (feed_not_mem_spaces _) (later symbol inlined) line mem

/-- A line of blanks, or of nothing. -/
def IsBlankLine (line : List Char) : Prop :=
  ∀ c ∈ line, Text.isBlank c = true

theorem IsBlankLine.of_readsAs {line read : List Char} (blank : IsBlankLine line)
    (reads : Text.ReadsAs line read) : IsBlankLine read := by
  rcases reads with rfl | rfl
  · exact blank
  · intro c mem
    exact blank c (List.mem_append_left _ mem)

/-- Blank lines among others are passed over. -/
theorem parse_inserted {kept : List (List Char)} (whole : ∀ line ∈ kept, Text.IsLine line)
    {text : List Char} (inserted : Text.Inserted IsBlankLine (kept.flatMap (· ++ ['\n'])) text) :
    parse (String.ofList text) = kept.foldl readLine [] := by
  obtain ⟨all, rfl, strewn, unbroken⟩ :=
    inserted.exists_strewn fun line mem => (whole line mem).1
  have reads := Text.lines_rebroken unbroken (.refl _)
  have found := strewn.of_forall₂ whole (fun _ _ blank => blank.of_readsAs) reads
  rw [parse, String.toList_ofList]
  exact found.foldl_eq (fun _ blank => readLine_of_blank blank) []

/-- What is read from a printed backtrace is a frame for each symbol, in their order, and blank
lines make no difference to it. -/
theorem parse_print (layout : Layout) {groups : List Group}
    (printable : ∀ group ∈ groups, group.IsPrintable) :
    List.Forall₂ Shows (groups.flatMap Group.symbols) (parse (print layout groups)) ∧
      ∀ text, Text.Inserted IsBlankLine (print layout groups).toList text →
        parse (String.ofList text) = parse (print layout groups) := by
  have whole := isLine_groups layout printable
  have plain : parse (print layout groups) =
      (groups.flatMap Group.symbols).map Symbol.frame := by
    rw [print, parse_inserted whole .none, foldl_groups layout printable, List.nil_append]
  constructor
  · rw [plain]
    exact List.forall₂_map_right_iff.mpr (List.forall₂_same.mpr fun symbol _ => shows_frame symbol)
  · intro text inserted
    rw [print, String.toList_ofList] at inserted
    rw [plain, parse_inserted whole inserted, foldl_groups layout printable, List.nil_append]

/-- A symbol with a hash and a location, one inlined into it that is named after two types, and
one at the next address. -/
def decoding : List Group := [
  ⟨9, ⟨"app::decode::h0123456789abcdef".toList, some "./src/decode.rs:42:13".toList⟩,
    [⟨"app::Codec<A: B, 0: 1>::next".toList, none⟩]⟩,
  ⟨10, ⟨"<unknown>".toList, none⟩, []⟩]

theorem parse_print_decoding :
    print .standard decoding =
        "   9: app::decode::h0123456789abcdef\n             at ./src/decode.rs:42:13\n" ++
          "      app::Codec<A: B, 0: 1>::next\n  10: <unknown>\n" ∧
      (∀ group ∈ decoding, group.IsPrintable) ∧
      List.Forall₂ Shows (decoding.flatMap Group.symbols) (parse (print .standard decoding)) ∧
      parse (String.ofList ([' '] ++ '\n' :: (print .standard decoding).toList)) =
        parse (print .standard decoding) := by
  have printable : ∀ group ∈ decoding, group.IsPrintable := by decide +kernel
  obtain ⟨shown, same⟩ := parse_print .standard printable
  have blank : IsBlankLine [' '] := by simp [IsBlankLine, Text.isBlank]
  exact ⟨by decide +kernel, printable, shown, same _ (.first (by decide) blank)⟩

end FuzzHarness.Backtrace
