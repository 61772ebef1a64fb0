import FuzzHarness.Proofs.Settings
import FuzzHarness.Proofs.Text.Numeral

/-!
# Which entries are tokens

An entry to ignore is a hexadecimal numeral with blanks around it and a marker before it, both
optional. A plus sign may stand between the marker and the digits; it counts as one of the
sixteen characters that are allowed there. All other entries are refused, and the first of them
is named as it was written.
-/

namespace FuzzHarness

/-- Blanks at both ends are all that trimming takes away. -/
theorem Text.exists_trim (text : List Char) :
    ∃ before after, text = before ++ Text.trim text ++ after ∧
      (∀ c ∈ before, Text.isBlank c = true) ∧ ∀ c ∈ after, Text.isBlank c = true := by
  let started := Text.trimStart text
  refine ⟨text.takeWhile Text.isBlank, (started.reverse.takeWhile Text.isBlank).reverse, ?_, ?_, ?_⟩
  · have ended : Text.trim text ++ (started.reverse.takeWhile Text.isBlank).reverse = started := by
      rw [Text.trim, Text.trimEnd, ← List.reverse_append, List.takeWhile_append_dropWhile,
        List.reverse_reverse]
    rw [List.append_assoc, ended]
    exact List.takeWhile_append_dropWhile.symm
  · exact List.all_eq_true.mp List.all_takeWhile
  · intro c mem
    exact List.all_eq_true.mp List.all_takeWhile c (List.mem_reverse.mp mem)

namespace Settings

/-- An entry is this text, with blanks around it and a marker before it or without. -/
def Holds (entry : String) (text : List Char) : Prop :=
  ∃ before marker after, entry.toList = before ++ (marker ++ text) ++ after ∧
    (∀ c ∈ before, Text.isBlank c = true) ∧ (∀ c ∈ after, Text.isBlank c = true) ∧
    marker ∈ [[], ['0', 'x'], ['0', 'X']]

/-- An entry holds a numeral of at most sixteen characters with its sign. -/
def IsToken (entry : String) : Prop :=
  ∃ sign digits, Holds entry (sign ++ digits) ∧ Text.IsNumeral sign digits ∧
    sign.length + digits.length ≤ 16

/-- An entry holds such a numeral for this token. -/
def Denotes (entry : String) (token : UInt64) : Prop :=
  ∃ sign digits, Holds entry (sign ++ digits) ∧ Text.IsNumeral sign digits ∧
    sign.length + digits.length ≤ 16 ∧ token.toNat = Text.hexNumeral digits

/-- Sixteen digits always write a word. -/
theorem isToken_iff {entry : String} : IsToken entry ↔ ∃ token, Denotes entry token := by
  constructor
  · rintro ⟨sign, digits, holds, numeral, short⟩
    have small : Text.hexNumeral digits < 16 ^ 16 :=
      Nat.lt_of_lt_of_le (Text.hexNumeral_lt numeral.digits)
        (Nat.pow_le_pow_right (by decide) (by omega))
    refine ⟨UInt64.ofNat (Text.hexNumeral digits), sign, digits, holds, numeral, short, ?_⟩
    exact UInt64.toNat_ofNat_of_lt' small
  · rintro ⟨_, sign, digits, holds, numeral, short, _⟩
    exact ⟨sign, digits, holds, numeral, short⟩

/-- What is behind the marker of an entry without its blanks is held by the entry. -/
theorem holds_stripMarker (entry : String) :
    Holds entry (stripMarker (Text.trim entry.toList)) := by
  obtain ⟨before, after, split, blankBefore, blankAfter⟩ := Text.exists_trim entry.toList
  obtain ⟨marker, marks, marked⟩ : ∃ marker ∈ [[], ['0', 'x'], ['0', 'X']],
      Text.trim entry.toList = marker ++ stripMarker (Text.trim entry.toList) := by
    generalize Text.trim entry.toList = text
    unfold stripMarker
    split
    · exact ⟨['0', 'x'], by simp, rfl⟩
    · exact ⟨['0', 'X'], by simp, rfl⟩
    · exact ⟨[], by simp, rfl⟩
  exact ⟨before, marker, after, marked ▸ split, blankBefore, blankAfter, marks⟩

/-- An entry is read as a token just if it holds a numeral for it. -/
theorem token?_eq_some_iff {entry : String} {token : UInt64} :
    token? entry = some token ↔ Denotes entry token := by
  rw [token?, Option.ite_none_right_eq_some, Text.hexWord?_eq_some_iff]
  constructor
  · rintro ⟨short, sign, digits, split, numeral, value⟩
    have holds := holds_stripMarker entry
    rw [split] at holds short
    exact ⟨sign, digits, holds, numeral, List.length_append ▸ short, value⟩
  · rintro ⟨sign, digits, holds, numeral, short, value⟩
    obtain ⟨before, marker, after, same, blankBefore, blankAfter, marks⟩ := holds
    have plain : ∀ d ∈ sign ++ digits, Text.isBlank d = false ∧ d ≠ 'x' ∧ d ≠ 'X' := by
      intro d mem
      rcases List.mem_append.mp mem with mem | mem
      · rcases numeral.sign with unsigned | plus
        · rw [unsigned] at mem
          cases mem
        · rw [plus] at mem
          obtain rfl := List.mem_singleton.mp mem
          decide
      · obtain ⟨unblank, _, unmarked⟩ := Text.plain_of_mem_hexDigits (numeral.digits d mem)
        exact ⟨unblank, unmarked⟩
    rw [same, stripMarker_trim blankBefore blankAfter marks plain]
    exact ⟨List.length_append ▸ short, sign, digits, rfl, numeral, value⟩

theorem tokensOf_eq_ok_iff {entries : List String} {tokens : List UInt64} :
    tokensOf entries = .ok tokens ↔ List.Forall₂ Denotes entries tokens := by
  induction entries generalizing tokens with
  | nil =>
      rw [List.forall₂_nil_left_iff, tokensOf]
      exact ⟨fun valid => (Except.ok.inj valid).symm, fun empty => congrArg _ empty.symm⟩
  | cons entry entries ih =>
      constructor
      · intro valid
        obtain ⟨token, rest, parsed, others, rfl⟩ := exists_of_tokensOf_cons valid
        exact .cons (token?_eq_some_iff.mp parsed) (ih.mp others)
      · rintro (_ | ⟨denotes, others⟩)
        rw [tokensOf_cons (token?_eq_some_iff.mpr denotes), ih.mpr others]
        rfl

theorem exists_forall₂_denotes_iff {entries : List String} :
    (∃ tokens, List.Forall₂ Denotes entries tokens) ↔ ∀ entry ∈ entries, IsToken entry := by
  induction entries with
  | nil => simp
  | cons entry entries ih =>
      rw [List.forall_mem_cons, ← ih, isToken_iff]
      constructor
      · rintro ⟨_, _ | ⟨denotes, others⟩⟩
        exact ⟨⟨_, denotes⟩, _, others⟩
      · rintro ⟨⟨token, denotes⟩, tokens, others⟩
        exact ⟨token :: tokens, .cons denotes others⟩

/-- The first entry that is no token. -/
def FirstRefused (entries : List String) (entry : String) : Prop :=
  ∃ before after, entries = before ++ entry :: after ∧
    (∀ other ∈ before, IsToken other) ∧ ¬IsToken entry

theorem firstRefused_iff {entries : List String} {entry : String} :
    FirstRefused entries entry ↔ entries.find? (fun other => token? other = none) = some entry := by
  have refused (other : String) : token? other = none ↔ ¬IsToken other := by
    simp only [Option.eq_none_iff_forall_ne_some, isToken_iff, ← token?_eq_some_iff, not_exists,
      ne_eq]
  rw [List.find?_eq_some_iff_append, decide_eq_true_iff, refused, FirstRefused]
  constructor
  · rintro ⟨before, after, split, denote, denotes⟩
    refine ⟨denotes, before, after, split, ?_⟩
    intro other mem
    simpa [refused] using denote other mem
  · rintro ⟨denotes, before, after, split, denote⟩
    refine ⟨before, after, split, ?_, denotes⟩
    intro other mem
    simpa [refused] using denote other mem

/-- Reading entries stops at the first that is no token. -/
theorem tokensOf_eq_error_iff {entries : List String} {fault : SettingsFault} :
    tokensOf entries = .error fault ↔
      ∃ entry, FirstRefused entries entry ∧ fault = .invalidToken entry := by
  simp only [firstRefused_iff]
  induction entries with
  | nil =>
      constructor
      · intro failed
        cases failed
      · rintro ⟨_, found, _⟩
        cases found
  | cons entry entries ih =>
      cases parsed : token? entry with
      | none =>
          rw [tokensOf_cons_of_none parsed, List.find?_cons_of_pos (by simpa using parsed)]
          constructor
          · intro failed
            exact ⟨entry, rfl, (Except.error.inj failed).symm⟩
          · rintro ⟨_, found, rfl⟩
            rw [Option.some.inj found]
      | some token =>
          rw [tokensOf_cons parsed, List.find?_cons_of_neg (by simp [parsed]), ← ih]
          cases tokensOf entries with
          | error other => exact Iff.rfl
          | ok tokens => simp only [Except.map, reduceCtorEq]

theorem validate_of_going {settings : Settings} (going : settings.keepGoing ≠ 0) :
    settings.validate = settings.ignoredTokens.map fun _ => () :=
  if_neg going

/-- Reading entries yields the tokens that they denote, in order, or names the first entry that
is none. Settings with a budget are valid just if every entry is a token, and are refused in
the same way. -/
theorem ignoredTokens_grammar (settings : Settings) (going : settings.keepGoing ≠ 0) :
    (∀ tokens, settings.ignoredTokens = .ok tokens ↔
        List.Forall₂ Denotes settings.ignore tokens) ∧
      (∀ fault, settings.ignoredTokens = .error fault ↔
        ∃ entry, FirstRefused settings.ignore entry ∧ fault = .invalidToken entry) ∧
      (settings.validate = .ok () ↔ ∀ entry ∈ settings.ignore, IsToken entry) ∧
      ∀ fault, settings.validate = .error fault ↔
        ∃ entry, FirstRefused settings.ignore entry ∧ fault = .invalidToken entry := by
  refine ⟨fun _ => tokensOf_eq_ok_iff, fun _ => tokensOf_eq_error_iff, ?_, ?_⟩
  · rw [validate_of_going going, ← exists_forall₂_denotes_iff, ignoredTokens]
    simp only [← tokensOf_eq_ok_iff]
    cases tokensOf settings.ignore with
    | error fault => simp only [Except.map, reduceCtorEq, exists_false]
    | ok tokens => simp only [Except.map, Except.ok.injEq, exists_eq']
  · intro fault
    rw [validate_of_going going, ← tokensOf_eq_error_iff, ignoredTokens]
    cases tokensOf settings.ignore with
    | error other => simp only [Except.map, Except.error.injEq]
    | ok tokens => simp only [Except.map, reduceCtorEq]

/-- A sign is read over behind a marker or without one, but does not stand for a digit. -/
theorem ignoredTokens_grammar_signed :
    { default with ignore := ["+1", " 0XfF\n", "0x+0a"] }.ignoredTokens = .ok [1, 255, 10] ∧
      { default with ignore := ["+1", "0x+", "x"] }.validate = .error (.invalidToken "0x+") := by
  have denotes {entry : String} {token : UInt64} (read : token? entry = some token) :
      Denotes entry token := token?_eq_some_iff.mp read
  constructor
  · apply (ignoredTokens_grammar _ (by decide)).1 _ |>.mpr
    exact .cons (denotes (by decide +kernel)) (.cons (denotes (by decide +kernel))
      (.cons (denotes (by decide +kernel)) .nil))
  · apply (ignoredTokens_grammar _ (by decide)).2.2.2 _ |>.mpr
    exact ⟨"0x+", firstRefused_iff.mpr (by decide +kernel), rfl⟩

end Settings

end FuzzHarness
