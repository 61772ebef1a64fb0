import FuzzHarness.Text.Pieces
import Mathlib.Data.List.Forall2

/-!
# Lines of a text that was edited

Text is read line by line whether a line ends in a line feed or in a carriage return and a
line feed; only a carriage return that a line had at its own end may be lost. Lines that a
search finds nothing on make no difference to it, wherever they were inserted.
-/

namespace FuzzHarness.Text

/-- A line without a line feed that ends in no carriage return. -/
def IsLine (line : List Char) : Prop :=
  '\n' ∉ line ∧ line.getLast? ≠ some '\r'

/-- What a line can be read as: itself, or itself without a carriage return at its end. -/
def ReadsAs (line read : List Char) : Prop :=
  read = line ∨ line = read ++ ['\r']

theorem IsLine.eq_of_readsAs {line read : List Char} (whole : IsLine line)
    (reads : ReadsAs line read) : read = line := by
  rcases reads with same | rfl
  · exact same
  · exact absurd List.getLast?_concat whole.2

/-- Some line feeds of a text have become carriage returns with line feeds. -/
inductive Rebroken : List Char → List Char → Prop where
  | nil : Rebroken [] []
  | keep (c : Char) {text other : List Char} (rest : Rebroken text other) :
      Rebroken (c :: text) (c :: other)
  | widen {text other : List Char} (rest : Rebroken text other) :
      Rebroken ('\n' :: text) ('\r' :: '\n' :: other)

/-- Put a carriage return before every line feed. -/
def crlf (text : List Char) : List Char :=
  text.flatMap fun c => if c = '\n' then ['\r', '\n'] else [c]

namespace Rebroken

theorem refl (text : List Char) : Rebroken text text := by
  induction text with
  | nil => exact .nil
  | cons c text ih => exact .keep c ih

theorem crlf (text : List Char) : Rebroken text (crlf text) := by
  induction text with
  | nil => exact .nil
  | cons c text ih =>
      rw [Text.crlf, List.flatMap_cons]
      by_cases feed : c = '\n'
      · subst feed
        exact .widen ih
      · rw [if_neg feed]
        exact .keep c ih

/-- Only line feeds are touched. -/
theorem of_append {line text other : List Char} (whole : '\n' ∉ line)
    (broken : Rebroken (line ++ text) other) :
    ∃ rest, other = line ++ rest ∧ Rebroken text rest := by
  induction line generalizing other with
  | nil => exact ⟨other, rfl, broken⟩
  | cons c line ih =>
      obtain ⟨first, later⟩ := not_or.mp (mt List.mem_cons.mpr whole)
      cases broken with
      | keep _ broken =>
          obtain ⟨rest, rfl, remaining⟩ := ih later broken
          exact ⟨rest, rfl, remaining⟩
      | widen _ => exact absurd rfl first

end Rebroken

theorem linesFrom_append {text : List Char} (whole : '\n' ∉ text) (reversed rest : List Char) :
    linesFrom reversed (text ++ rest) = linesFrom (text.reverse ++ reversed) rest := by
  induction text generalizing reversed with
  | nil => rfl
  | cons c text ih =>
      obtain ⟨first, others⟩ := not_or.mp (mt List.mem_cons.mpr whole)
      rw [List.cons_append, linesFrom, if_neg (Ne.symm first), ih others, List.reverse_cons,
        List.append_assoc, List.singleton_append]

/-- A line feed completes the line before it. -/
theorem lines_append_feed {line : List Char} (whole : '\n' ∉ line) (rest : List Char) :
    lines (line ++ '\n' :: rest) = closeLine line.reverse :: lines rest := by
  rw [lines, linesFrom_append whole, List.append_nil, linesFrom, if_pos rfl]
  rfl

theorem closeLine_concat (line : List Char) : closeLine (line ++ ['\r']).reverse = line := by
  rw [List.reverse_concat]
  exact List.reverse_reverse line

theorem readsAs_closeLine (line : List Char) : ReadsAs line (closeLine line.reverse) := by
  rcases List.eq_nil_or_concat line with rfl | ⟨start, last, rfl⟩
  · exact .inl rfl
  · by_cases ends : last = '\r'
    · subst ends
      rw [List.concat_eq_append, closeLine_concat]
      exact .inr rfl
    · left
      rw [List.concat_eq_append, List.reverse_concat, closeLine]
      · rw [List.reverse_cons, List.reverse_reverse]
      · intro reversed same
        exact ends (List.cons.inj same).1

/-- Lines are read back, however each of them is ended. -/
theorem lines_rebroken {all : List (List Char)} (whole : ∀ line ∈ all, '\n' ∉ line)
    {text : List Char} (broken : Rebroken (all.flatMap (· ++ ['\n'])) text) :
    List.Forall₂ ReadsAs all (lines text) := by
  induction all generalizing text with
  | nil =>
      cases broken
      exact .nil
  | cons line all ih =>
      obtain ⟨first, later⟩ := List.forall_mem_cons.mp whole
      rw [List.flatMap_cons, List.append_assoc] at broken
      obtain ⟨rest, rfl, ended⟩ := broken.of_append first
      cases ended with
      | keep _ remaining =>
          rw [lines_append_feed first]
          exact .cons (readsAs_closeLine line) (ih later remaining)
      | widen remaining =>
          have returned : '\n' ∉ line ++ ['\r'] := by
            rw [List.mem_append]
            exact not_or.mpr ⟨first, by decide⟩
          have split := lines_append_feed returned
          simp only [List.append_assoc, List.singleton_append] at split
          rw [split, closeLine_concat]
          exact .cons (.inl rfl) (ih later remaining)

/-- Lines that end in line feeds are read back. -/
theorem lines_flatMap {text : List (List Char)} (whole : ∀ line ∈ text, IsLine line) :
    lines (text.flatMap (· ++ ['\n'])) = text := by
  have read := lines_rebroken (fun line mem => (whole line mem).1) (.refl _)
  generalize lines (text.flatMap (· ++ ['\n'])) = found at read
  induction read with
  | nil => rfl
  | cons reads _ ih =>
      obtain ⟨first, later⟩ := List.forall_mem_cons.mp whole
      rw [first.eq_of_readsAs reads, ih later]

/-- A text with lines inserted at its start, at its end or between others. -/
inductive Inserted (foreign : List Char → Prop) (text : List Char) : List Char → Prop where
  | none : Inserted foreign text text
  | line {front back line : List Char} (before : Inserted foreign text (front ++ back))
      (boundary : front = [] ∨ front.getLast? = some '\n') (whole : '\n' ∉ line)
      (strange : foreign line) : Inserted foreign text (front ++ (line ++ '\n' :: back))

/-- A line put at the start of a text. -/
theorem Inserted.first {foreign : List Char → Prop} {text line : List Char}
    (whole : '\n' ∉ line) (strange : foreign line) :
    Inserted foreign text (line ++ '\n' :: text) :=
  @Inserted.line foreign text [] text line .none (.inl rfl) whole strange

/-- Lines with others strewn between them. -/
inductive Strewn (foreign : List Char → Prop) :
    List (List Char) → List (List Char) → Prop where
  | nil : Strewn foreign [] []
  | keep (line : List Char) {kept all : List (List Char)} (rest : Strewn foreign kept all) :
      Strewn foreign (line :: kept) (line :: all)
  | insert {line : List Char} {kept all : List (List Char)} (strange : foreign line)
      (rest : Strewn foreign kept all) : Strewn foreign kept (line :: all)

namespace Strewn

variable {foreign : List Char → Prop} {kept all read : List (List Char)}

theorem refl (foreign : List Char → Prop) (kept : List (List Char)) :
    Strewn foreign kept kept := by
  induction kept with
  | nil => exact .nil
  | cons line kept ih => exact .keep line ih

/-- One more line can stand anywhere. -/
theorem insert_append {line : List Char} (strange : foreign line) {front back : List (List Char)}
    (strewn : Strewn foreign kept (front ++ back)) :
    Strewn foreign kept (front ++ line :: back) := by
  induction front generalizing kept with
  | nil => exact .insert strange strewn
  | cons first front ih =>
      cases strewn with
      | keep _ rest => exact .keep first (ih rest)
      | insert other rest => exact .insert other (ih rest)

/-- A search that finds nothing on the other lines finds what it found without them. -/
theorem findSome?_eq {α : Type} {search : List Char → Option α}
    (nothing : ∀ line, foreign line → search line = none) (strewn : Strewn foreign kept all) :
    all.findSome? search = kept.findSome? search := by
  induction strewn with
  | nil => rfl
  | keep line _ ih => rw [List.findSome?_cons, List.findSome?_cons, ih]
  | insert strange _ ih => rw [List.findSome?_cons, nothing _ strange, ih]

/-- A fold that the other lines leave alone comes to what it came to without them. -/
theorem foldl_eq {β : Type} {step : β → List Char → β}
    (passes : ∀ line, foreign line → ∀ state, step state line = state)
    (strewn : Strewn foreign kept all) (state : β) :
    all.foldl step state = kept.foldl step state := by
  induction strewn generalizing state with
  | nil => rfl
  | keep line _ ih => exact ih (step state line)
  | insert strange _ ih =>
      rw [List.foldl_cons, passes _ strange]
      exact ih state

/-- However the lines are ended, those that were kept are read back among the others. -/
theorem of_forall₂ (whole : ∀ line ∈ kept, IsLine line)
    (closed : ∀ line read, foreign line → ReadsAs line read → foreign read)
    (strewn : Strewn foreign kept all) (reads : List.Forall₂ ReadsAs all read) :
    Strewn foreign kept read := by
  induction strewn generalizing read with
  | nil =>
      cases reads
      exact .nil
  | keep line _ ih =>
      obtain ⟨first, later⟩ := List.forall_mem_cons.mp whole
      cases reads with
      | cons head tail =>
          rw [first.eq_of_readsAs head]
          exact .keep line (ih later tail)
  | insert strange _ ih =>
      cases reads with
      | cons head tail => exact .insert (closed _ _ strange head) (ih whole tail)

end Strewn

/-- A cut at the start of a line is a cut between lines. -/
theorem exists_of_append_eq {all : List (List Char)} (whole : ∀ line ∈ all, '\n' ∉ line)
    {front back : List Char} (boundary : front = [] ∨ front.getLast? = some '\n')
    (same : front ++ back = all.flatMap (· ++ ['\n'])) :
    ∃ before after, all = before ++ after ∧ front = before.flatMap (· ++ ['\n']) ∧
      back = after.flatMap (· ++ ['\n']) := by
  induction all generalizing front with
  | nil =>
      obtain ⟨rfl, rfl⟩ := List.append_eq_nil_iff.mp same
      exact ⟨[], [], rfl, rfl, rfl⟩
  | cons line all ih =>
      obtain ⟨first, later⟩ := List.forall_mem_cons.mp whole
      rcases boundary with rfl | ends
      · exact ⟨[], line :: all, rfl, rfl, same⟩
      · rw [List.flatMap_cons] at same
        rcases List.append_eq_append_iff.mp same with ⟨rest, within, rfl⟩ | ⟨rest, rfl, remaining⟩
        · have whole : rest = [] := by
            rcases List.eq_nil_or_concat rest with nothing | ⟨start, last, rfl⟩
            · exact nothing
            · rw [List.concat_eq_append, ← List.append_assoc] at within
              obtain ⟨rfl, _⟩ := List.append_inj' within rfl
              exact absurd (List.mem_append_left start (List.mem_of_getLast? ends)) first
          subst whole
          rw [List.append_nil] at within
          exact ⟨[line], all, rfl, by simp [within], rfl⟩
        · have boundary : rest = [] ∨ rest.getLast? = some '\n' := by
            cases rest with
            | nil => exact .inl rfl
            | cons c rest =>
                rw [List.getLast?_append_of_ne_nil _ (List.cons_ne_nil c rest)] at ends
                exact .inr ends
          obtain ⟨before, after, rfl, rfl, rfl⟩ := ih later boundary remaining.symm
          exact ⟨line :: before, after, rfl, by simp, rfl⟩

/-- Lines inserted into a text are lines strewn between its own. -/
theorem Inserted.exists_strewn {foreign : List Char → Prop} {kept : List (List Char)}
    (whole : ∀ line ∈ kept, '\n' ∉ line) {text : List Char}
    (inserted : Inserted foreign (kept.flatMap (· ++ ['\n'])) text) :
    ∃ all, text = all.flatMap (· ++ ['\n']) ∧ Strewn foreign kept all ∧
      ∀ line ∈ all, '\n' ∉ line := by
  induction inserted with
  | none => exact ⟨kept, rfl, .refl foreign kept, whole⟩
  | @line front back line _ boundary free strange ih =>
      obtain ⟨all, same, strewn, wholes⟩ := ih
      obtain ⟨before, after, rfl, rfl, rfl⟩ := exists_of_append_eq wholes boundary same
      refine ⟨before ++ line :: after, ?_, strewn.insert_append strange, ?_⟩
      · simp [List.flatMap_append]
      · rw [List.forall_mem_append] at wholes ⊢
        exact ⟨wholes.1, List.forall_mem_cons.mpr ⟨free, wholes.2⟩⟩

end FuzzHarness.Text
