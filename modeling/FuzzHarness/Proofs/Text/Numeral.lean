import FuzzHarness.Proofs.Text.Hex
import Mathlib.Data.Nat.Digits.Lemmas

/-!
# Which texts are hexadecimal words

A text is read as a word if it is a row of hexadecimal digits in either case, with or without
a plus sign in front, whose number is a word. Nothing else is read. Up to sixteen digits the
number always is one.
-/

namespace FuzzHarness.Text

/-- The hexadecimal digits in either case. -/
def hexDigits : List Char := "0123456789abcdefABCDEF".toList

/-- What a hexadecimal digit counts. -/
def digitCount (c : Char) : Nat := "0123456789abcdef".toList.idxOf c.toLower

/-- The number that hexadecimal digits write, the highest one first. -/
def hexNumeral (digits : List Char) : Nat :=
  Nat.ofDigits 16 (digits.reverse.map digitCount)

/-- A row of digits, with or without a sign in front. -/
structure IsNumeral (sign digits : List Char) : Prop where
  sign : sign = [] ∨ sign = ['+']
  nonempty : digits ≠ []
  digits : ∀ c ∈ digits, c ∈ hexDigits

/-- Just the hexadecimal digits have values. -/
theorem hexValue?_eq (c : Char) :
    hexValue? c = if c ∈ hexDigits then some (digitCount c) else none := by
  have ascii : ∀ code < 128, hexValue? (Char.ofNat code) =
      if Char.ofNat code ∈ hexDigits then some (digitCount (Char.ofNat code)) else none := by
    decide +kernel
  by_cases low : c.toNat < 128
  · have read := ascii c.toNat low
    rwa [Char.ofNat_toNat] at read
  · have small : hexDigits.all (fun d => d.toNat < 128) = true := by decide +kernel
    rw [if_neg fun mem => low (of_decide_eq_true (List.all_eq_true.mp small c mem))]
    simp only [hexValue?]
    rw [if_neg (by omega), if_neg (by omega), if_neg (by omega)]

theorem digitCount_lt {c : Char} (mem : c ∈ hexDigits) : digitCount c < 16 := by
  have counts : hexDigits.all (fun d => digitCount d < 16) = true := by decide +kernel
  exact of_decide_eq_true (List.all_eq_true.mp counts c mem)

/-- No digit is a blank, a sign or part of a marker. -/
theorem plain_of_mem_hexDigits {c : Char} (mem : c ∈ hexDigits) :
    isBlank c = false ∧ c ≠ '+' ∧ c ≠ 'x' ∧ c ≠ 'X' := by
  have plain : hexDigits.all (fun d => isBlank d = false ∧ d ≠ '+' ∧ d ≠ 'x' ∧ d ≠ 'X') = true := by
    decide +kernel
  exact of_decide_eq_true (List.all_eq_true.mp plain c mem)

theorem hexNumeral_concat (digits : List Char) (c : Char) :
    hexNumeral (digits ++ [c]) = hexNumeral digits * 16 + digitCount c := by
  simp [hexNumeral, Nat.ofDigits_cons, Nat.mul_comm, Nat.add_comm]

theorem hexNumeral_lt {digits : List Char} (hex : ∀ c ∈ digits, c ∈ hexDigits) :
    hexNumeral digits < 16 ^ digits.length := by
  have counts : ∀ count ∈ digits.reverse.map digitCount, count < 16 := by
    intro count mem
    obtain ⟨c, present, rfl⟩ := List.mem_map.mp mem
    exact digitCount_lt (hex c (List.mem_reverse.mp present))
  simpa [hexNumeral] using Nat.ofDigits_lt_base_pow_length (by decide : 1 < 16) counts

/-- Reading stops at the first character that is no digit. -/
theorem digitsValue?_eq_some_iff {digits : List Char} {value : Nat} :
    digitsValue? 16 hexValue? digits = some value ↔
      (∀ c ∈ digits, c ∈ hexDigits) ∧ value = hexNumeral digits := by
  induction digits using List.reverseRecOn generalizing value with
  | nil => simp [digitsValue?, hexNumeral, eq_comm]
  | append_singleton digits c ih =>
      rw [digitsValue?, List.foldlM_append, ← digitsValue?, hexNumeral_concat,
        List.forall_mem_append, List.forall_mem_singleton]
      simp only [Option.bind_eq_bind, Option.bind_eq_some_iff, ih, List.foldlM_cons,
        List.foldlM_nil, hexValue?_eq, Option.map_eq_some_iff, Option.ite_none_right_eq_some]
      constructor
      · rintro ⟨_, ⟨hex, rfl⟩, _, ⟨_, ⟨last, ⟨⟩⟩, rfl⟩, ⟨⟩⟩
        exact ⟨⟨hex, last⟩, rfl⟩
      · rintro ⟨⟨hex, last⟩, rfl⟩
        exact ⟨_, ⟨hex, rfl⟩, _, ⟨_, ⟨last, rfl⟩, rfl⟩, rfl⟩

/-- Digits without a sign are read if there are any and their number is a word. -/
private theorem word_of_digits_iff {digits : List Char} {word : UInt64} :
    (if digits.isEmpty then none
      else
        match digitsValue? 16 hexValue? digits with
        | some value => if value < UInt64.size then some (UInt64.ofNat value) else none
        | none => none) = some word ↔
      digits ≠ [] ∧ (∀ c ∈ digits, c ∈ hexDigits) ∧ word.toNat = hexNumeral digits := by
  rw [Option.ite_none_left_eq_some, List.isEmpty_iff]
  refine and_congr_right fun _ => ?_
  cases read : digitsValue? 16 hexValue? digits with
  | none =>
      refine ⟨nofun, fun ⟨hex, _⟩ => ?_⟩
      rw [digitsValue?_eq_some_iff.mpr ⟨hex, rfl⟩] at read
      cases read
  | some value =>
      obtain ⟨hex, rfl⟩ := digitsValue?_eq_some_iff.mp read
      dsimp only
      rw [Option.ite_none_right_eq_some, Option.some_inj, ← UInt64.toNat_inj, and_iff_right hex]
      constructor
      · rintro ⟨small, same⟩
        exact same ▸ UInt64.toNat_ofNat_of_lt' small
      · intro same
        have small : hexNumeral digits < UInt64.size := same ▸ word.toNat_lt
        exact ⟨small, (UInt64.toNat_ofNat_of_lt' small).trans same.symm⟩

/-- A text is read as a word just if it is a numeral of that word. -/
theorem hexWord?_eq_some_iff {text : List Char} {word : UInt64} :
    hexWord? text = some word ↔
      ∃ sign digits, text = sign ++ digits ∧ IsNumeral sign digits ∧
        word.toNat = hexNumeral digits := by
  unfold hexWord?
  split
  · next rest =>
    refine word_of_digits_iff.trans ⟨?_, ?_⟩
    · rintro ⟨nonempty, hex, same⟩
      exact ⟨['+'], rest, rfl, ⟨.inr rfl, nonempty, hex⟩, same⟩
    · rintro ⟨_, digits, split, ⟨rfl | rfl, nonempty, hex⟩, same⟩
      · obtain rfl : '+' :: rest = digits := split
        exact absurd rfl (plain_of_mem_hexDigits (hex '+' List.mem_cons_self)).2.1
      · obtain rfl := (List.cons.inj split).2
        exact ⟨nonempty, hex, same⟩
  · next unsigned =>
    refine word_of_digits_iff.trans ⟨?_, ?_⟩
    · rintro ⟨nonempty, hex, same⟩
      exact ⟨[], text, rfl, ⟨.inl rfl, nonempty, hex⟩, same⟩
    · rintro ⟨_, digits, rfl, ⟨rfl | rfl, nonempty, hex⟩, same⟩
      · exact ⟨nonempty, hex, same⟩
      · exact absurd rfl (unsigned digits)

end FuzzHarness.Text
