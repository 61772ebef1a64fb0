import FuzzHarness.Target.Basic
import Mathlib.Data.List.Basic

/-!
# Names of targets and paths

The name of a target is checked character by character, while a path has a structure: one or
more identifiers with two colons between them, and possibly two in front. Every path passes
the check. A name that passes it is a path if, moreover, its colons come in pairs, no digit
stands first or behind a colon, and the last character is no colon.
-/

namespace FuzzHarness.TargetName

/-- A letter or an underscore, and then letters, digits and underscores. -/
def IsIdentifier : List Char → Prop
  | [] => False
  | first :: rest =>
    (first.isAlpha = true ∨ first = '_') ∧ ∀ c ∈ rest, c.isAlphanum = true ∨ c = '_'

/-- Identifiers with two colons between them. -/
inductive IsJoined : List Char → Prop where
  | last {text : List Char} (identifier : IsIdentifier text) : IsJoined text
  | join {text path : List Char} (identifier : IsIdentifier text) (rest : IsJoined path) :
      IsJoined (text ++ ':' :: ':' :: path)

/-- Identifiers with two colons between them, and possibly two in front. -/
def IsPath (name : List Char) : Prop :=
  IsJoined name ∨ ∃ path, IsJoined path ∧ name = ':' :: ':' :: path

/-- A letter, a digit, an underscore or a colon. -/
def Fits (c : Char) : Prop :=
  c.isAlphanum = true ∨ c = '_' ∨ c = ':'

/-- Some letters, digits, underscores and colons in any order. -/
structure IsComposed (name : List Char) : Prop where
  nonempty : name ≠ []
  chars : ∀ c ∈ name, Fits c

/-- What a path heeds besides, told by what stands next to a character. -/
structure IsSpelled (name : List Char) : Prop where
  /-- A colon stands before or behind each colon, and not both. -/
  paired : ∀ before after, name = before ++ ':' :: after →
    (before.getLast? = some ':' ↔ after.head? ≠ some ':')
  closed : name.getLast? ≠ some ':'
  /-- Something other than a colon stands before each digit. -/
  led : ∀ before digit after, name = before ++ digit :: after → digit.isDigit = true →
    ∃ c ∈ before.getLast?, c ≠ ':'

/-- The start of an identifier, as far as it is told apart from colons and digits. -/
def Opens (text : List Char) : Prop :=
  ∃ c ∈ text.head?, c ≠ ':' ∧ c.isDigit = false

theorem isDigit_eq_false_of_isAlpha {c : Char} (letter : c.isAlpha = true) : c.isDigit = false := by
  by_contra number
  delta Char.isAlpha Char.isUpper Char.isLower at letter
  simp only [Char.isDigit, UInt32.le_iff_toNat_le, Bool.or_eq_true, Bool.and_eq_true,
    decide_eq_true_eq, Bool.not_eq_false, ge_iff_le] at letter number
  have least : 57 < 'A'.val.toNat ∧ 57 < 'a'.val.toNat := by decide
  have greatest : '9'.val.toNat = 57 := rfl
  omega

theorem IsIdentifier.word {text : List Char} (identifier : IsIdentifier text) :
    ∀ c ∈ text, c.isAlphanum = true ∨ c = '_' := by
  cases text with
  | nil => nofun
  | cons first rest =>
      obtain ⟨start, later⟩ := identifier
      refine List.forall_mem_cons.mpr ⟨?_, later⟩
      exact start.imp_left fun letter => by simp [Char.isAlphanum, letter]

theorem IsIdentifier.fits {text : List Char} (identifier : IsIdentifier text) {c : Char}
    (mem : c ∈ text) : Fits c := by
  rcases identifier.word c mem with letter | underscore
  · exact .inl letter
  · exact .inr (.inl underscore)

theorem IsIdentifier.colon_not_mem {text : List Char} (identifier : IsIdentifier text) :
    ':' ∉ text := by
  intro mem
  exact absurd (identifier.word ':' mem) (by decide)

theorem IsIdentifier.opens {text : List Char} (identifier : IsIdentifier text) : Opens text := by
  cases text with
  | nil => exact identifier.elim
  | cons first rest =>
      refine ⟨first, rfl, ?_, ?_⟩
      · rintro rfl
        exact identifier.colon_not_mem List.mem_cons_self
      · rcases identifier.1 with letter | rfl
        · exact isDigit_eq_false_of_isAlpha letter
        · decide

/-- Characters of a name without a colon make an identifier if no digit stands first. -/
theorem isIdentifier_of_opens {text : List Char} (free : ':' ∉ text) (opens : Opens text)
    (fitting : ∀ c ∈ text, Fits c) : IsIdentifier text := by
  have word : ∀ c ∈ text, c.isAlphanum = true ∨ c = '_' := by
    intro c mem
    rcases fitting c mem with letter | underscore | rfl
    · exact .inl letter
    · exact .inr underscore
    · exact absurd mem free
  cases text with
  | nil =>
      obtain ⟨c, head, _⟩ := opens
      cases head
  | cons first rest =>
      obtain ⟨start, later⟩ := List.forall_mem_cons.mp word
      obtain ⟨c, head, _, number⟩ := opens
      cases head
      refine ⟨start.imp_left fun letter => ?_, later⟩
      simpa [Char.isAlphanum, number] using letter

theorem Opens.append {text : List Char} (opens : Opens text) (rest : List Char) :
    Opens (text ++ rest) := by
  obtain ⟨c, head, plain⟩ := opens
  refine ⟨c, ?_, plain⟩
  rw [List.head?_append, Option.mem_def.mp head]
  rfl

theorem Opens.head?_ne {text : List Char} (opens : Opens text) : text.head? ≠ some ':' := by
  obtain ⟨c, head, differs, _⟩ := opens
  rw [Option.mem_def.mp head]
  exact fun same => differs (Option.some.inj same)

theorem Opens.ne_nil {text : List Char} (opens : Opens text) : text ≠ [] := by
  rintro rfl
  obtain ⟨c, head, _⟩ := opens
  cases head

/-- Neither a colon nor a digit comes first. -/
theorem Opens.before_ne_nil {before after : List Char} {c : Char}
    (opens : Opens (before ++ c :: after)) (other : c = ':' ∨ c.isDigit = true) : before ≠ [] := by
  rintro rfl
  obtain ⟨_, head, differs, letter⟩ := opens
  cases head
  rcases other with colon | number
  · exact differs colon
  · simp [letter] at number

theorem getLast?_ne_of_not_mem {text : List Char} (free : ':' ∉ text) :
    text.getLast? ≠ some ':' :=
  fun ends => free (List.mem_of_getLast? ends)

/-- Text without colons is spelled like a path if it begins like one. -/
theorem isSpelled_of_not_mem {text : List Char} (free : ':' ∉ text) (opens : Opens text) :
    IsSpelled text := by
  refine ⟨?_, getLast?_ne_of_not_mem free, ?_⟩
  · rintro before after rfl
    exact absurd (by simp) free
  · rintro before digit after rfl number
    rcases List.eq_nil_or_concat before with rfl | ⟨front, last, rfl⟩
    · exact absurd rfl (opens.before_ne_nil (.inr number))
    · rw [List.concat_eq_append] at free ⊢
      refine ⟨last, List.getLast?_concat, ?_⟩
      rintro rfl
      exact free (by simp)

/-- Where a character can stand in a text with two colons in it. -/
theorem cut_cases {text path before after : List Char} {c : Char}
    (cut : text ++ ':' :: ':' :: path = before ++ c :: after) :
    (∃ between, text = before ++ c :: between ∧ after = between ++ ':' :: ':' :: path) ∨
      (before = text ∧ c = ':' ∧ after = ':' :: path) ∨
      (before = text ++ [':'] ∧ c = ':' ∧ after = path) ∨
      ∃ between, before = text ++ ':' :: ':' :: between ∧ path = between ++ c :: after := by
  rcases List.append_eq_append_iff.mp cut with ⟨rest, rfl, behind⟩ | ⟨rest, rfl, within⟩
  · match rest, behind with
    | [], behind =>
        obtain ⟨rfl, rfl⟩ := List.cons.inj behind
        exact .inr (.inl ⟨by simp, rfl, rfl⟩)
    | [first], behind =>
        obtain ⟨rfl, same⟩ := List.cons.inj behind
        obtain ⟨rfl, rfl⟩ := List.cons.inj same
        exact .inr (.inr (.inl ⟨rfl, rfl, rfl⟩))
    | first :: second :: between, behind =>
        obtain ⟨rfl, same⟩ := List.cons.inj behind
        obtain ⟨rfl, rfl⟩ := List.cons.inj same
        exact .inr (.inr (.inr ⟨between, rfl, rfl⟩))
  · cases rest with
    | nil =>
        obtain ⟨rfl, rfl⟩ := List.cons.inj within
        exact .inr (.inl ⟨by simp, rfl, rfl⟩)
    | cons first between =>
        obtain ⟨rfl, rfl⟩ := List.cons.inj within
        exact .inl ⟨between, rfl, rfl⟩

/-- What ends a text behind two colons ends the whole. -/
theorem getLast?_behind {path : List Char} (nonempty : path ≠ []) (text : List Char) :
    (text ++ ':' :: ':' :: path).getLast? = path.getLast? := by
  have moved : text ++ ':' :: ':' :: path = text ++ [':', ':'] ++ path := by simp
  rw [moved, List.getLast?_append_of_ne_nil _ nonempty]

/-- Behind two colons, with or without an identifier before them, a path is spelled as before. -/
theorem IsSpelled.join {text path : List Char} (free : ':' ∉ text)
    (starts : text ≠ [] → Opens text) (opens : Opens path) (spelled : IsSpelled path) :
    IsSpelled (text ++ ':' :: ':' :: path) := by
  refine ⟨?_, ?_, ?_⟩
  · intro before after cut
    rcases cut_cases cut with ⟨between, rfl, _⟩ | ⟨rfl, _, rfl⟩ | ⟨rfl, _, rfl⟩ |
      ⟨between, rfl, rfl⟩
    · exact absurd (by simp) free
    · simp [getLast?_ne_of_not_mem free]
    · simp [opens.head?_ne]
    · rw [getLast?_behind (opens.before_ne_nil (.inl rfl))]
      exact spelled.paired between after rfl
  · rw [getLast?_behind opens.ne_nil]
    exact spelled.closed
  · intro before digit after cut number
    rcases cut_cases cut with ⟨between, rfl, _⟩ | ⟨_, rfl, _⟩ | ⟨_, rfl, _⟩ |
      ⟨between, rfl, rfl⟩
    · exact (isSpelled_of_not_mem free (starts (by simp))).led before digit between rfl number
    · exact absurd number (by decide)
    · exact absurd number (by decide)
    · rw [getLast?_behind (opens.before_ne_nil (.inr number))]
      exact spelled.led between digit after rfl number

/-- The first colon of a well spelled name is followed by another one, and then by a well
spelled name that begins like a path. -/
theorem IsSpelled.exists_of_append {text rest : List Char} (free : ':' ∉ text)
    (spelled : IsSpelled (text ++ ':' :: rest)) :
    ∃ path, rest = ':' :: path ∧ Opens path ∧ IsSpelled path := by
  have second : rest.head? = some ':' := by
    by_contra other
    exact getLast?_ne_of_not_mem free ((spelled.paired text rest rfl).mpr other)
  obtain ⟨path, rfl⟩ := List.head?_eq_some_iff.mp second
  have opens : Opens path := by
    cases path with
    | nil =>
        refine absurd ?_ spelled.closed
        simp
    | cons c path =>
        refine ⟨c, rfl, ?_, ?_⟩
        · have third := (spelled.paired (text ++ [':']) (c :: path) (by simp)).mp (by simp)
          simpa using third
        · by_contra number
          obtain ⟨last, ends, differs⟩ :=
            spelled.led (text ++ [':', ':']) c path (by simp) (by simpa using number)
          refine differs ?_
          simpa using ends.symm
  refine ⟨path, rfl, opens, ?_, ?_, ?_⟩
  · rintro before after rfl
    have whole := spelled.paired (text ++ ':' :: ':' :: before) after (by simp)
    rwa [getLast?_behind (opens.before_ne_nil (.inl rfl))] at whole
  · have whole := spelled.closed
    rwa [getLast?_behind opens.ne_nil] at whole
  · rintro before digit after rfl number
    have whole := spelled.led (text ++ ':' :: ':' :: before) digit after (by simp) number
    rwa [getLast?_behind (opens.before_ne_nil (.inr number))] at whole

theorem IsJoined.opens {name : List Char} (joined : IsJoined name) : Opens name := by
  cases joined with
  | last identifier => exact identifier.opens
  | join identifier _ => exact identifier.opens.append _

theorem fits_join {text path : List Char} (first : ∀ c ∈ text, Fits c)
    (later : ∀ c ∈ path, Fits c) :
    ∀ c ∈ text ++ ':' :: ':' :: path, Fits c := by
  have colon : Fits ':' := .inr (.inr rfl)
  simp only [List.forall_mem_append, List.forall_mem_cons]
  exact ⟨first, colon, colon, later⟩

theorem IsJoined.chars {name : List Char} (joined : IsJoined name) :
    ∀ c ∈ name, Fits c := by
  induction joined with
  | last identifier => exact fun c mem => identifier.fits mem
  | join identifier _ ih =>
      exact fits_join (fun c mem => identifier.fits mem) ih

theorem IsJoined.spelled {name : List Char} (joined : IsJoined name) : IsSpelled name := by
  induction joined with
  | last identifier => exact isSpelled_of_not_mem identifier.colon_not_mem identifier.opens
  | join identifier rest ih =>
      exact ih.join identifier.colon_not_mem (fun _ => identifier.opens) rest.opens

/-- A well spelled name is taken apart at its first colon. -/
theorem IsSpelled.joined {name : List Char} (opens : Opens name)
    (fitting : ∀ c ∈ name, Fits c) (spelled : IsSpelled name) : IsJoined name := by
  by_cases colon : ':' ∈ name
  · obtain ⟨text, rest, same, free⟩ := List.eq_append_cons_of_mem colon
    obtain ⟨path, behind, pathOpens, pathSpelled⟩ :=
      IsSpelled.exists_of_append free (same ▸ spelled)
    rw [behind] at same
    have shorter : path.length < name.length := by
      rw [same, List.length_append, List.length_cons, List.length_cons]
      omega
    have start : Opens text := by
      cases text with
      | nil => exact absurd (congrArg List.head? same) opens.head?_ne
      | cons c text => exact (same ▸ opens : Opens (c :: (text ++ _)))
    have later : ∀ c ∈ path, Fits c := fun c mem => fitting c (by simp [same, mem])
    have first : ∀ c ∈ text, Fits c := fun c mem => fitting c (by simp [same, mem])
    rw [same]
    exact .join (isIdentifier_of_opens free start first) (pathSpelled.joined pathOpens later)
  · exact .last (isIdentifier_of_opens colon opens fitting)
termination_by name.length
decreasing_by assumption

theorem IsPath.composed {name : List Char} (path : IsPath name) : IsComposed name := by
  rcases path with joined | ⟨path, joined, rfl⟩
  · exact ⟨joined.opens.ne_nil, joined.chars⟩
  · exact ⟨by simp, fits_join (List.forall_mem_nil _) joined.chars⟩

/-- A path is a name that is spelled like one. -/
theorem isPath_iff_isSpelled {name : List Char} (composed : IsComposed name) :
    IsPath name ↔ IsSpelled name := by
  constructor
  · rintro (joined | ⟨path, joined, rfl⟩)
    · exact joined.spelled
    · exact joined.spelled.join List.not_mem_nil (fun nonempty => absurd rfl nonempty) joined.opens
  · intro spelled
    obtain ⟨first, rest, rfl⟩ := List.exists_cons_of_ne_nil composed.nonempty
    by_cases root : first = ':'
    · subst root
      obtain ⟨path, rfl, opens, inner⟩ := IsSpelled.exists_of_append List.not_mem_nil spelled
      have fitting : ∀ c ∈ path, Fits c :=
        fun c mem => composed.chars c (by simp [mem])
      exact .inr ⟨path, inner.joined opens fitting, rfl⟩
    · have letter : first.isDigit = false := by
        by_contra number
        obtain ⟨c, ends, _⟩ := spelled.led [] first rest rfl (by simpa using number)
        cases ends
      exact .inl (spelled.joined ⟨first, rfl, root, letter⟩ composed.chars)

theorem isPath_iff {name : List Char} : IsPath name ↔ IsComposed name ∧ IsSpelled name := by
  constructor
  · intro path
    exact ⟨path.composed, (isPath_iff_isSpelled path.composed).mp path⟩
  · rintro ⟨composed, spelled⟩
    exact (isPath_iff_isSpelled composed).mpr spelled

end TargetName

open TargetName

theorem isNameChar_iff {c : Char} : isNameChar c = true ↔ Fits c := by
  simp [isNameChar, Fits, or_assoc]

theorem isTargetName_iff {name : String} :
    isTargetName name = true ↔ IsComposed name.toList := by
  rw [isTargetName, Bool.and_eq_true, List.all_eq_true, Bool.not_eq_true',
    ← Bool.not_eq_true, String.isEmpty_iff, ← String.toList_eq_nil_iff]
  constructor
  · rintro ⟨nonempty, chars⟩
    exact ⟨nonempty, fun c mem => isNameChar_iff.mp (chars c mem)⟩
  · rintro ⟨nonempty, chars⟩
    exact ⟨nonempty, fun c mem => isNameChar_iff.mpr (chars c mem)⟩

namespace TargetSpec

variable {σ : Type} (spec : TargetSpec σ)

/-- With a name composed of the right characters, the entry points decide. -/
theorem build_of_composed (composed : IsComposed spec.name.toList) :
    if spec.bytes.isSome = spec.provider.isSome then spec.build = .error (.entryPoint spec.name)
    else ∃ target, spec.build = .ok target ∧ target.name = spec.name := by
  have valid := isTargetName_iff.mpr composed
  cases bytes : spec.bytes <;> cases provider : spec.provider <;>
    simp [build, valid, bytes, provider]

/-- Any other name is refused, whatever else is given. -/
theorem build_eq_invalidName_iff :
    spec.build = .error (.invalidName spec.name) ↔ ¬IsComposed spec.name.toList := by
  constructor
  · intro refused composed
    have decided := spec.build_of_composed composed
    rw [refused] at decided
    split at decided
    · cases decided
    · obtain ⟨target, bound, _⟩ := decided
      cases bound
  · intro other
    rw [← isTargetName_iff, Bool.not_eq_true] at other
    simp [build, other]

theorem composed_of_build {target : Target σ} (bound : spec.build = .ok target) :
    IsComposed spec.name.toList ∧ target.name = spec.name := by
  have composed : IsComposed spec.name.toList := by
    by_contra other
    rw [spec.build_eq_invalidName_iff.mpr other] at bound
    cases bound
  have decided := spec.build_of_composed composed
  rw [bound] at decided
  split at decided
  · cases decided
  · obtain ⟨_, same, named⟩ := decided
    cases same
    exact ⟨composed, named⟩

end TargetSpec

end FuzzHarness
