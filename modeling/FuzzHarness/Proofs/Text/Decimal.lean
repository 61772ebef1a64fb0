import FuzzHarness.Proofs.Text.Lines

/-!
# Decimal numerals

A number is written in decimal digits, and nothing but zero with a zero in front. Text behind
which a number stands makes a line.
-/

namespace FuzzHarness.Text

def numeral (n : Nat) : List Char :=
  Nat.toDigits 10 n

theorem isDigit_of_mem_numeral {n : Nat} {c : Char} (mem : c ∈ numeral n) : c.isDigit = true :=
  Nat.isDigit_of_mem_toDigits (by decide) (by decide) mem

theorem numeral_ne_nil (n : Nat) : numeral n ≠ [] :=
  Nat.toDigits_ne_nil

theorem exists_numeral_eq_cons (n : Nat) :
    ∃ digit digits, numeral n = digit :: digits ∧ digit.isDigit = true := by
  obtain ⟨digit, digits, written⟩ := List.exists_cons_of_ne_nil (numeral_ne_nil n)
  exact ⟨digit, digits, written, isDigit_of_mem_numeral (n := n) (written ▸ List.mem_cons_self)⟩

/-- Only zero begins with a zero. -/
theorem head?_numeral {n : Nat} (h : 0 < n) : (numeral n).head? ≠ some '0' := by
  induction n using Nat.strongRecOn with
  | ind n ih =>
      unfold numeral
      rw [Nat.toDigits_eq_if (by decide)]
      split
      · next small =>
        have digits : ∀ n < 10, 0 < n → [n.digitChar].head? ≠ some '0' := by decide
        exact digits n small h
      · next large =>
        rw [List.head?_append_of_ne_nil _ Nat.toDigits_ne_nil]
        exact ih (n / 10) (by omega) (by omega)

/-- Text behind which a number stands ends in a digit. -/
theorem exists_getLast?_numeral (start : List Char) (n : Nat) :
    ∃ c, (start ++ numeral n).getLast? = some c ∧ c.isDigit = true := by
  refine ⟨(numeral n).getLast (numeral_ne_nil n), ?_, ?_⟩
  · rw [List.getLast?_append_of_ne_nil _ (numeral_ne_nil n), List.getLast?_eq_some_getLast]
  · exact isDigit_of_mem_numeral (List.getLast_mem _)

theorem isLine_numeral {start : List Char} (free : '\n' ∉ start) (n : Nat) :
    IsLine (start ++ numeral n) := by
  constructor
  · intro mem
    rcases List.mem_append.mp mem with mem | mem
    · exact free mem
    · exact absurd (isDigit_of_mem_numeral mem) (by decide)
  · obtain ⟨c, last, digit⟩ := exists_getLast?_numeral start n
    rw [last]
    rintro ⟨⟩
    exact absurd digit (by decide)

end FuzzHarness.Text
