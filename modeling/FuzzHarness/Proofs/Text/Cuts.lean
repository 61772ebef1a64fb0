import FuzzHarness.Proofs.Text.Lines
import FuzzHarness.Text.Blank

/-!
# Where text is cut

A cut takes nothing but the separator away, and finds the one that was put there if nothing
before it, or behind it for the last one, begins like it. Trimming takes nothing from text that
neither begins nor ends in a blank, and takes away the indentation before such text.
-/

namespace FuzzHarness.Text

theorem eq_append_of_splitFirst {separator text before after : List Char}
    (cut : splitFirst separator text = some (before, after)) :
    text = before ++ separator ++ after := by
  induction text generalizing before with
  | nil => cases cut
  | cons c rest ih =>
      rw [splitFirst] at cut
      split at cut
      · next found =>
        cases cut
        exact dropPrefix?_eq_some_iff.mp found
      · obtain ⟨parts, later, same⟩ := Option.map_eq_some_iff.mp cut
        cases same
        simp [ih later]

theorem eq_append_of_splitLast {separator text before after : List Char}
    (cut : splitLast separator text = some (before, after)) :
    text = before ++ separator ++ after := by
  obtain ⟨parts, found, same⟩ := Option.map_eq_some_iff.mp cut
  cases same
  have whole := congrArg List.reverse (eq_append_of_splitFirst found)
  simpa using whole

/-- The first separator is found behind text without its first character. -/
theorem splitFirst_append {s : Char} {before : List Char} (free : s ∉ before)
    (rest after : List Char) :
    splitFirst (s :: rest) (before ++ s :: rest ++ after) = some (before, after) := by
  induction before with
  | nil =>
      have found := dropPrefix?_append (s :: rest) after
      simp only [List.cons_append] at found
      simp [splitFirst, found]
  | cons c before ih =>
      obtain ⟨first, others⟩ := not_or.mp (mt List.mem_cons.mpr free)
      have passed : dropPrefix? (s :: rest) (c :: (before ++ s :: rest ++ after)) = none :=
        if_neg first
      simp only [List.cons_append]
      rw [splitFirst, passed, ih others]
      rfl

/-- The last separator is found before text without its last character. -/
theorem splitLast_append {s : Char} {after : List Char} (free : s ∉ after)
    (before front : List Char) :
    splitLast (front ++ [s]) (before ++ (front ++ [s]) ++ after) = some (before, after) := by
  have found := splitFirst_append (mt List.mem_reverse.mp free) front.reverse before.reverse
  have turned : (before ++ (front ++ [s]) ++ after).reverse =
      after.reverse ++ s :: front.reverse ++ before.reverse := by simp
  rw [splitLast, turned, List.reverse_concat, found]
  simp

theorem isBlank_of_isDigit {c : Char} (digit : c.isDigit = true) : isBlank c = false := by
  have range : 48 ≤ c.toNat ∧ c.toNat ≤ 57 := by
    simpa [Char.isDigit, UInt32.le_iff_toNat_le] using digit
  simp only [isBlank, Bool.or_eq_false_iff, Bool.and_eq_false_iff, decide_eq_false_iff_not,
    beq_eq_false_iff_ne]
  omega

private theorem dropWhile_eq_self_of_head {text : List Char}
    (solid : ∀ c ∈ text.head?, isBlank c = false) : text.dropWhile isBlank = text := by
  cases text with
  | nil => rfl
  | cons c text => simp [solid c rfl]

/-- Text that neither begins nor ends in a blank. -/
theorem trim_of_ends {text : List Char} (first : ∀ c ∈ text.head?, isBlank c = false)
    (last : ∀ c ∈ text.getLast?, isBlank c = false) : trim text = text := by
  have turned : ∀ c ∈ text.reverse.head?, isBlank c = false := by simpa using last
  rw [trim, trimStart, dropWhile_eq_self_of_head first, trimEnd, dropWhile_eq_self_of_head turned,
    List.reverse_reverse]

theorem isBlank_getLast_of_trim {text : List Char} (trimmed : trim text = text) :
    ∀ c ∈ text.getLast?, isBlank c = false := by
  intro c ends
  rw [← trimmed, trim, trimEnd, List.getLast?_reverse] at ends
  have solid := List.head?_dropWhile_not isBlank (trimStart text).reverse
  rw [Option.mem_def.mp ends] at solid
  exact solid

/-- Indented text without its indentation. -/
theorem trim_indented {indent text : List Char} (blank : ∀ c ∈ indent, isBlank c = true)
    (trimmed : trim text = text) : trim (indent ++ text) = text := by
  have around := trim_append_append blank (List.forall_mem_nil _) text
  rw [List.append_nil] at around
  exact around.trans trimmed

/-- Some text without line feeds and without blanks at its ends. -/
structure IsSolid (text : List Char) : Prop where
  nonempty : text ≠ []
  trimmed : trim text = text
  unbroken : '\n' ∉ text

instance (text : List Char) : Decidable (IsSolid text) :=
  decidable_of_iff (text ≠ [] ∧ trim text = text ∧ '\n' ∉ text)
    ⟨fun ⟨nonempty, trimmed, unbroken⟩ => ⟨nonempty, trimmed, unbroken⟩,
      fun ⟨nonempty, trimmed, unbroken⟩ => ⟨nonempty, trimmed, unbroken⟩⟩

/-- Text put before solid text, if it begins with no blank. -/
theorem IsSolid.append {text : List Char} (solid : IsSolid text) {c : Char} {start : List Char}
    (first : isBlank c = false) (free : '\n' ∉ c :: start) : IsSolid (c :: start ++ text) := by
  refine ⟨by simp, trim_of_ends ?_ ?_, ?_⟩
  · simpa using first
  · rw [List.getLast?_append_of_ne_nil _ solid.nonempty]
    exact isBlank_getLast_of_trim solid.trimmed
  · rw [List.mem_append]
    exact not_or.mpr ⟨free, solid.unbroken⟩

/-- Indented solid text makes a line. -/
theorem IsSolid.isLine {text : List Char} (solid : IsSolid text) {indent : List Char}
    (free : '\n' ∉ indent) : IsLine (indent ++ text) := by
  constructor
  · rw [List.mem_append]
    exact not_or.mpr ⟨free, solid.unbroken⟩
  · rw [List.getLast?_append_of_ne_nil _ solid.nonempty]
    intro ends
    exact absurd (isBlank_getLast_of_trim solid.trimmed '\r' ends) (by decide)

end FuzzHarness.Text
