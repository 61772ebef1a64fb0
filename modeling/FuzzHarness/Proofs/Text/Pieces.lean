import FuzzHarness.Text.Pieces

/-!
# Templates

A template is text and placeholders by turns, a placeholder being an upper-case name
between percent signs. Replacing a placeholder in the text of a template replaces just
these segments, because text has no percent sign and what follows a placeholder begins no
name.
-/

namespace FuzzHarness.Text

inductive Segment where
  | plain (text : List Char)
  | hole (name : List Char)
  deriving DecidableEq

namespace Segment

def chars : Segment → List Char
  | plain text => text
  | hole name => '%' :: (name ++ ['%'])

def join (segments : List Segment) : List Char :=
  segments.flatMap chars

def fill (name filling : List Char) : Segment → Segment
  | plain text => plain text
  | hole other => if other = name then plain filling else hole other

def isName : List Char → Bool
  | h :: name => h.isUpper && !(h :: name).contains '%'
  | [] => false

/-- Whether segments begin with text that does not continue a percent sign to a
placeholder. -/
def closesHole : List Segment → Bool
  | plain (c :: _) :: _ => !c.isUpper
  | _ => false

/-- Whether segments make up a template. -/
def isTemplate : List Segment → Bool
  | [] => true
  | plain text :: rest => !text.contains '%' && isTemplate rest
  | hole name :: rest => !name.contains '%' && closesHole rest && isTemplate rest

@[simp] theorem join_cons (segment : Segment) (rest : List Segment) :
    join (segment :: rest) = segment.chars ++ join rest := rfl

end Segment

theorem replaceFrom_length (piece filling text rest : List Char) :
    replaceFrom piece filling text.length (text ++ rest) = replaceFrom piece filling 0 rest := by
  induction text with
  | nil => rfl
  | cons c text ih => exact ih

/-- An occurrence of the piece gives way to the filling. -/
theorem replaceFrom_piece (c : Char) (piece filling rest : List Char) :
    replaceFrom (c :: piece) filling 0 (c :: piece ++ rest) =
      filling ++ replaceFrom (c :: piece) filling 0 rest := by
  have starts : startsWith (c :: piece) (c :: piece ++ rest) = true := by
    rw [startsWith, dropPrefix?_append]
    rfl
  rw [List.cons_append] at starts ⊢
  rw [replaceFrom, if_pos starts]
  exact congrArg (filling ++ ·) (replaceFrom_length _ _ piece rest)

theorem replaceFrom_cons_of_not {piece : List Char} {c : Char} {rest : List Char}
    (h : startsWith piece (c :: rest) = false) (filling : List Char) :
    replaceFrom piece filling 0 (c :: rest) = c :: replaceFrom piece filling 0 rest := by
  rw [replaceFrom, if_neg (Bool.eq_false_iff.mp h)]

theorem startsWith_iff {start text : List Char} :
    startsWith start text = true ↔ start <+: text := by
  rw [startsWith, Option.isSome_iff_exists]
  exact exists_congr fun rest => dropPrefix?_eq_some_iff.trans eq_comm

theorem startsWith_eq_false {piece text : List Char}
    (h : ∀ rest, text ≠ piece ++ rest) : startsWith piece text = false := by
  rw [startsWith, Option.isSome_eq_false_iff, Option.isNone_iff_eq_none]
  exact Option.eq_none_iff_forall_ne_some.mpr fun rest same =>
    h rest (dropPrefix?_eq_some_iff.mp same)

/-- Text without percent signs stays as it is. -/
theorem replaceFrom_plain {text : List Char} (plain : '%' ∉ text)
    (piece filling rest : List Char) :
    replaceFrom ('%' :: piece) filling 0 (text ++ rest) =
      text ++ replaceFrom ('%' :: piece) filling 0 rest := by
  induction text with
  | nil => rfl
  | cons c text ih =>
      obtain ⟨first, others⟩ := not_or.mp (mt List.mem_cons.mpr plain)
      have differs : startsWith ('%' :: piece) (c :: (text ++ rest)) = false := by
        apply startsWith_eq_false
        intro after same
        exact first (List.cons.inj same).1.symm
      rw [List.cons_append, replaceFrom_cons_of_not differs, ih others, List.cons_append]

/-- What stands before the first mark is told from what stands behind it. -/
theorem append_mark_inj {α : Type} {mark : α} {front other back otherBack : List α}
    (absent : mark ∉ front) (otherAbsent : mark ∉ other)
    (same : front ++ mark :: back = other ++ mark :: otherBack) :
    front = other ∧ back = otherBack := by
  induction front generalizing other with
  | nil =>
      cases other with
      | nil => exact ⟨rfl, (List.cons.inj same).2⟩
      | cons c other =>
          exact absurd ((List.cons.inj same).1 ▸ List.mem_cons_self) otherAbsent
  | cons c front ih =>
      cases other with
      | nil => exact absurd ((List.cons.inj same).1 ▸ List.mem_cons_self) absent
      | cons d other =>
          obtain ⟨rfl, tails⟩ := List.cons.inj same
          obtain ⟨rfl, backs⟩ := ih (fun mem => absent (List.mem_cons_of_mem _ mem))
            (fun mem => otherAbsent (List.mem_cons_of_mem _ mem)) tails
          exact ⟨rfl, backs⟩

/-- A placeholder of another name stays as it is, if no name begins behind it. -/
theorem replaceFrom_hole {name other : List Char} {c : Char}
    (named : Segment.isName name = true) (lower : c.isUpper = false) (plain : '%' ∉ other)
    (differs : other ≠ name) (filling rest : List Char) :
    replaceFrom (Segment.hole name).chars filling 0 ((Segment.hole other).chars ++ c :: rest) =
      (Segment.hole other).chars ++
        replaceFrom (Segment.hole name).chars filling 0 (c :: rest) := by
  cases name with
  | nil => cases named
  | cons h name =>
      obtain ⟨upper, free⟩ := Bool.and_eq_true_iff.mp named
      have free : '%' ∉ h :: name := by simpa using free
      have opens : startsWith (Segment.hole (h :: name)).chars
          ('%' :: (other ++ '%' :: c :: rest)) = false := by
        apply startsWith_eq_false
        intro after same
        apply differs
        have behind : other ++ '%' :: c :: rest = h :: name ++ '%' :: after :=
          (List.cons.inj same).2.trans (List.append_assoc ..)
        exact (append_mark_inj plain free behind).1
      have closes : startsWith (Segment.hole (h :: name)).chars ('%' :: c :: rest) = false := by
        apply startsWith_eq_false
        intro after same
        obtain ⟨rfl, _⟩ := List.cons.inj (List.cons.inj same).2
        exact absurd upper (Bool.eq_false_iff.mp lower)
      have text : (Segment.hole other).chars ++ c :: rest = '%' :: (other ++ '%' :: c :: rest) :=
        congrArg (List.cons '%') (List.append_assoc ..)
      have passed : replaceFrom (Segment.hole (h :: name)).chars filling 0
          (other ++ '%' :: c :: rest) = _ := replaceFrom_plain plain _ filling ('%' :: c :: rest)
      rw [text, replaceFrom_cons_of_not opens, passed]
      change '%' :: (other ++ replaceFrom (Segment.hole (h :: name)).chars filling 0 _) = _
      rw [replaceFrom_cons_of_not closes]
      exact congrArg (List.cons '%') (List.append_assoc other ['%'] _).symm

/-- Replacing a placeholder in the text of a template is filling it. -/
theorem replaceAll_join {name filling : List Char} (named : Segment.isName name = true)
    {segments : List Segment} (template : Segment.isTemplate segments = true) :
    replaceAll (Segment.hole name).chars filling (Segment.join segments) =
      Segment.join (segments.map (Segment.fill name filling)) := by
  rw [replaceAll]
  induction segments with
  | nil => rfl
  | cons segment rest ih =>
      cases segment with
      | plain text =>
          obtain ⟨free, template⟩ := Bool.and_eq_true_iff.mp template
          have free : '%' ∉ text := by simpa using free
          exact (replaceFrom_plain free _ _ _).trans (congrArg (text ++ ·) (ih template))
      | hole other =>
          obtain ⟨head, template⟩ := Bool.and_eq_true_iff.mp template
          obtain ⟨free, closed⟩ := Bool.and_eq_true_iff.mp head
          have free : '%' ∉ other := by simpa using free
          rw [Segment.join_cons, List.map_cons, Segment.join_cons, ← ih template, Segment.fill]
          split
          · next same =>
            subst same
            exact replaceFrom_piece '%' (other ++ ['%']) filling (Segment.join rest)
          · next differs =>
            cases rest with
            | nil => cases closed
            | cons next rest =>
                cases next with
                | hole _ => cases closed
                | plain text =>
                    cases text with
                    | nil => cases closed
                    | cons c text =>
                        have lower : c.isUpper = false := by
                          simpa [Segment.closesHole] using closed
                        exact replaceFrom_hole named lower free differs filling _

namespace Segment

/-- Filling a placeholder with text makes a template of a template. -/
theorem isTemplate_map_fill (name : List Char) {filling : List Char} (plain : '%' ∉ filling)
    {segments : List Segment} (template : isTemplate segments = true) :
    isTemplate (segments.map (fill name filling)) = true := by
  induction segments with
  | nil => rfl
  | cons segment rest ih =>
      cases segment with
      | plain text =>
          obtain ⟨free, template⟩ := Bool.and_eq_true_iff.mp template
          exact Bool.and_eq_true_iff.mpr ⟨free, ih template⟩
      | hole other =>
          obtain ⟨head, template⟩ := Bool.and_eq_true_iff.mp template
          rw [List.map_cons, fill]
          split
          · refine Bool.and_eq_true_iff.mpr ⟨?_, ih template⟩
            simpa using plain
          · refine Bool.and_eq_true_iff.mpr ⟨?_, ih template⟩
            obtain ⟨free, closed⟩ := Bool.and_eq_true_iff.mp head
            refine Bool.and_eq_true_iff.mpr ⟨free, ?_⟩
            cases rest with
            | nil => exact closed
            | cons next rest =>
                cases next with
                | plain text =>
                    cases text with
                    | nil => cases closed
                    | cons c text => exact closed
                | hole _ => cases closed

end Segment

end FuzzHarness.Text
