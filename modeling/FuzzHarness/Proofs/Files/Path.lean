import FuzzHarness.Files.Path

/-!
# The last component of a path

What stands behind the last slash of a path is its last component, unless it is empty. A
name that is joined to a directory becomes the last component as a whole.
-/

namespace FuzzHarness.Path

theorem split_ne_nil (text : List Char) : split text ≠ [] := by
  cases text with
  | nil => exact List.cons_ne_nil _ _
  | cons c rest =>
      rw [split]
      split
      · exact List.cons_ne_nil _ _
      · split <;> exact List.cons_ne_nil _ _

/-- Text without slashes is one piece. -/
theorem split_of_not_mem {text : List Char} (whole : '/' ∉ text) : split text = [text] := by
  induction text with
  | nil => rfl
  | cons c rest ih =>
      obtain ⟨first, others⟩ := not_or.mp (mt List.mem_cons.mpr whole)
      rw [split, ih others]
      exact if_neg (Ne.symm first)

/-- A slash cuts a path in two. -/
theorem split_append_slash (front rest : List Char) :
    split (front ++ '/' :: rest) = split front ++ split rest := by
  induction front with
  | nil =>
      rcases pieces : split rest with _ | ⟨piece, more⟩
      · exact absurd pieces (split_ne_nil rest)
      · change split ('/' :: rest) = [] :: piece :: more
        rw [split, pieces]
        rfl
  | cons c front ih =>
      rw [List.cons_append, split, split, ih]
      rcases pieces : split front with _ | ⟨piece, more⟩
      · exact absurd pieces (split_ne_nil front)
      · rw [List.cons_append]
        dsimp only
        split <;> rfl

/-- Every text that ends in something else than a slash has a last piece, which ends alike. -/
theorem exists_split {text : List Char} {c : Char} (ends : text.getLast? = some c)
    (plain : c ≠ '/') :
    ∃ pieces last, split text = pieces ++ [last] ∧ last.getLast? = some c := by
  by_cases slash : '/' ∈ text
  · obtain ⟨after, before, cut, free⟩ :=
      List.eq_append_cons_of_mem (List.mem_reverse.mpr slash)
    have whole : text = before.reverse ++ '/' :: after.reverse := by
      rw [← List.reverse_reverse text, cut]
      simp
    have free : '/' ∉ after.reverse := fun mem => free (List.mem_reverse.mp mem)
    refine ⟨split before.reverse, after.reverse, ?_, ?_⟩
    · rw [whole, split_append_slash, split_of_not_mem free]
    · rw [whole, List.getLast?_append, List.getLast?_cons] at ends
      cases last : after.reverse.getLast? with
      | none =>
          rw [last] at ends
          exact absurd (Option.some.inj ends).symm plain
      | some d =>
          rw [last] at ends
          exact ends
  · exact ⟨[], text, split_of_not_mem slash, ends⟩

/-- The last component of a path ends as the path does, unless that is in a slash. -/
theorem exists_getLast?_components {path : String} {c : Char}
    (ends : path.toList.getLast? = some c) (plain : c ≠ '/') :
    ∃ name, (components path).getLast? = some name ∧ name.toList.getLast? = some c := by
  obtain ⟨pieces, last, cut, same⟩ := exists_split ends plain
  have filled : last ≠ [] := by
    rintro rfl
    cases same
  refine ⟨String.ofList last, ?_, ?_⟩
  · rw [components, cut, List.filter_append]
    simp [filled]
  · rw [String.toList_ofList, same]

/-- What stands alone or behind a slash is the last component. -/
theorem getLast?_components {path name : String} (filled : name.toList ≠ [])
    (whole : '/' ∉ name.toList)
    (place : path.toList = name.toList ∨ ∃ front, path.toList = front ++ '/' :: name.toList) :
    (components path).getLast? = some name := by
  have kept : [name.toList].filter (fun piece => !piece.isEmpty) = [name.toList] := by
    simp [filled]
  rw [components]
  rcases place with same | ⟨front, cut⟩
  · rw [same, split_of_not_mem whole, kept]
    exact congrArg some String.ofList_toList
  · rw [cut, split_append_slash, split_of_not_mem whole, List.filter_append, kept, List.map_append,
      List.getLast?_append]
    exact congrArg some String.ofList_toList

/-- A joined name is the last component. -/
theorem getLast?_components_join {name : String} (filled : name.toList ≠ [])
    (whole : '/' ∉ name.toList) (directory : String) :
    (components (join directory name)).getLast? = some name := by
  have relative : (name.toList.head? == some '/') = false := by
    apply beq_eq_false_iff_ne.mpr
    intro slash
    apply whole
    exact List.mem_of_head? slash
  apply getLast?_components filled whole
  rw [join, if_neg (Bool.eq_false_iff.mp relative)]
  split
  · next short =>
    rcases Bool.or_eq_true_iff.mp short with empty | slash
    · left
      rw [String.isEmpty_iff.mp empty, String.toList_append]
      rfl
    · right
      obtain ⟨front, cut⟩ := List.getLast?_eq_some_iff.mp (beq_iff_eq.mp slash)
      refine ⟨front, ?_⟩
      rw [String.toList_append, cut, List.append_assoc]
      rfl
  · right
    refine ⟨directory.toList, ?_⟩
    rw [String.toList_append, String.toList_append, List.append_assoc]
    rfl

end FuzzHarness.Path
