import FuzzHarness.Proofs.Text.Hex
import FuzzHarness.Settings.Basic

/-!
# Tokens in the settings

A token can be listed as it was printed, or with blanks around it, with the marker of
hexadecimal numbers before it, and with letters in upper case. Listing it makes no difference
to whether the settings are valid, and puts the token among those to ignore at its place.
-/

namespace FuzzHarness

namespace Settings

/-- An entry is written like this text: blanks may stand around it, a marker before it, and any
letters of it may be in upper case. -/
def Spells (entry : String) (text : String) : Prop :=
  ∃ before marker digits after, entry.toList = before ++ (marker ++ digits) ++ after ∧
    (∀ c ∈ before, Text.isBlank c = true) ∧ (∀ c ∈ after, Text.isBlank c = true) ∧
    marker ∈ [[], ['0', 'x'], ['0', 'X']] ∧ Text.Recased text.toList digits

/-- Digits without a marker stay as they are. -/
theorem stripMarker_eq_self {digits : List Char} (plain : ∀ d ∈ digits, d ≠ 'x' ∧ d ≠ 'X') :
    stripMarker digits = digits := by
  unfold stripMarker
  split
  · exact absurd rfl (plain 'x' (by simp)).1
  · exact absurd rfl (plain 'X' (by simp)).2
  · rfl

theorem stripMarker_append {marker digits : List Char}
    (marks : marker ∈ [[], ['0', 'x'], ['0', 'X']]) (plain : ∀ d ∈ digits, d ≠ 'x' ∧ d ≠ 'X') :
    stripMarker (marker ++ digits) = digits := by
  rcases List.mem_cons.mp marks with rfl | marks
  · exact stripMarker_eq_self plain
  · rcases List.mem_cons.mp marks with rfl | marks
    · rfl
    · obtain rfl := List.mem_singleton.mp marks
      rfl

/-- Blanks around an entry and a marker in front of it do not count. -/
theorem stripMarker_trim {before marker digits after : List Char}
    (blankBefore : ∀ c ∈ before, Text.isBlank c = true)
    (blankAfter : ∀ c ∈ after, Text.isBlank c = true)
    (marks : marker ∈ [[], ['0', 'x'], ['0', 'X']])
    (plain : ∀ d ∈ digits, Text.isBlank d = false ∧ d ≠ 'x' ∧ d ≠ 'X') :
    stripMarker (Text.trim (before ++ (marker ++ digits) ++ after)) = digits := by
  have unblank : ∀ c ∈ marker ++ digits, Text.isBlank c = false := by
    intro c mem
    rcases List.mem_append.mp mem with mem | mem
    · have markers : [[], ['0', 'x'], ['0', 'X']].all (·.all (!Text.isBlank ·)) = true := by decide
      have unmarked := List.all_eq_true.mp (List.all_eq_true.mp markers marker marks) c mem
      simpa using unmarked
    · exact (plain c mem).1
  rw [Text.trim_append_append blankBefore blankAfter, Text.trim_eq_self unblank]
  exact stripMarker_append marks fun d mem => (plain d mem).2

/-- Each spelling of a printed token is an entry for that token. -/
theorem token?_of_spells {entry : String} {token : UInt64}
    (spells : Spells entry (Text.hexWord token)) : token? entry = some token := by
  obtain ⟨before, marker, digits, after, same, blankBefore, blankAfter, marks, recased⟩ := spells
  have written := recased
  rw [Text.hexWord_toList] at written
  have stripped : stripMarker (Text.trim entry.toList) = digits := by
    rw [same]
    apply stripMarker_trim blankBefore blankAfter marks
    intro d mem
    exact ⟨(written.of_mem mem).1, (written.of_mem mem).2.2⟩
  rw [token?, stripped, if_pos (Nat.le_of_eq recased.length_hexWord), recased.hexWord?_eq]

variable {entry : String} {token : UInt64}

theorem tokensOf_cons (parsed : token? entry = some token) (entries : List String) :
    tokensOf (entry :: entries) = (tokensOf entries).map (token :: ·) := by
  rw [tokensOf, parsed]

theorem tokensOf_cons_of_none (refused : token? entry = none) (entries : List String) :
    tokensOf (entry :: entries) = .error (.invalidToken entry) := by
  rw [tokensOf, refused]

/-- An entry of a valid list is an entry for a token, which stands before those of the rest. -/
theorem exists_of_tokensOf_cons {entries : List String} {tokens : List UInt64}
    (valid : tokensOf (entry :: entries) = .ok tokens) :
    ∃ token rest, token? entry = some token ∧ tokensOf entries = .ok rest ∧
      tokens = token :: rest := by
  cases parsed : token? entry with
  | none =>
      rw [tokensOf_cons_of_none parsed] at valid
      cases valid
  | some token =>
      rw [tokensOf_cons parsed] at valid
      cases others : tokensOf entries with
      | error fault =>
          rw [others] at valid
          cases valid
      | ok rest =>
          rw [others] at valid
          exact ⟨token, rest, rfl, rfl, (Except.ok.inj valid).symm⟩

/-- One more entry for a token puts it among the others, at the place of the entry. -/
theorem tokensOf_insert (parsed : token? entry = some token) {before after : List String}
    {tokens : List UInt64} (valid : tokensOf (before ++ after) = .ok tokens) :
    ∃ front back, front.length = before.length ∧ tokens = front ++ back ∧
      tokensOf (before ++ entry :: after) = .ok (front ++ token :: back) := by
  induction before generalizing tokens with
  | nil =>
      refine ⟨[], tokens, rfl, rfl, ?_⟩
      rw [List.nil_append] at valid ⊢
      rw [tokensOf_cons parsed, valid]
      rfl
  | cons first before ih =>
      rw [List.cons_append] at valid
      obtain ⟨head, rest, parsed', others, rfl⟩ := exists_of_tokensOf_cons valid
      obtain ⟨front, back, length, rfl, inserted⟩ := ih others
      refine ⟨head :: front, back, congrArg Nat.succ length, rfl, ?_⟩
      rw [List.cons_append, tokensOf_cons parsed', inserted]
      rfl

/-- Every entry of valid settings is an entry for a token. -/
theorem exists_ignoredTokens {settings : Settings} (valid : settings.validate = .ok ()) :
    ∃ tokens, settings.ignoredTokens = .ok tokens := by
  rw [validate] at valid
  split at valid
  · cases valid
  · cases parsed : settings.ignoredTokens with
    | error fault =>
        rw [parsed] at valid
        cases valid
    | ok tokens => exact ⟨tokens, rfl⟩

/-- Whether settings are valid does not depend on an entry for a token. -/
theorem validate_insert (parsed : token? entry = some token) {settings : Settings}
    {before after : List String} (listed : settings.ignore = before ++ entry :: after) :
    settings.validate = { settings with ignore := before ++ after }.validate := by
  have same (before : List String) : (tokensOf (before ++ entry :: after)).map (fun _ => ()) =
      (tokensOf (before ++ after)).map fun _ => () := by
    induction before with
    | nil =>
        rw [List.nil_append, List.nil_append, tokensOf_cons parsed]
        cases tokensOf after <;> rfl
    | cons first before ih =>
        rw [List.cons_append, List.cons_append]
        cases head : token? first with
        | none => rw [tokensOf_cons_of_none head, tokensOf_cons_of_none head]
        | some head' =>
            rw [tokensOf_cons head, tokensOf_cons head]
            revert ih
            cases tokensOf (before ++ entry :: after) <;> cases tokensOf (before ++ after) <;>
              exact id
  rw [validate, validate, ignoredTokens, ignoredTokens, listed, same]

/-- Leaving out all entries for a token leaves out the token. -/
theorem tokensOf_filter {entries : List String} {tokens : List UInt64}
    (valid : tokensOf entries = .ok tokens) (token : UInt64) :
    tokensOf (entries.filter fun entry => token? entry ≠ some token) =
      .ok (tokens.filter fun other => other ≠ token) := by
  induction entries generalizing tokens with
  | nil =>
      obtain rfl := Except.ok.inj valid
      rfl
  | cons entry entries ih =>
      obtain ⟨head, rest, parsed, others, rfl⟩ := exists_of_tokensOf_cons valid
      by_cases same : head = token
      · rw [List.filter_cons_of_neg (by simp [parsed, same]),
          List.filter_cons_of_neg (by simp [same]), ih others]
      · rw [List.filter_cons_of_pos (by simp [parsed, same]),
          List.filter_cons_of_pos (by simp [same]), tokensOf_cons parsed, ih others]
        rfl

theorem mem_of_tokensOf {entries : List String} {tokens : List UInt64}
    (valid : tokensOf entries = .ok tokens) (mem : entry ∈ entries)
    (parsed : token? entry = some token) : token ∈ tokens := by
  induction entries generalizing tokens with
  | nil => cases mem
  | cons first entries ih =>
      obtain ⟨head, rest, parsed', others, rfl⟩ := exists_of_tokensOf_cons valid
      rcases List.mem_cons.mp mem with rfl | mem
      · obtain rfl := Option.some.inj (parsed'.symm.trans parsed)
        exact List.mem_cons_self
      · exact List.mem_cons_of_mem _ (ih others mem)

end Settings

end FuzzHarness
