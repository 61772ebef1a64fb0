import FuzzHarness.Input.Cursor
import Mathlib.Data.Nat.Digits.Lemmas

/-!
# Octets as numbers

Octets write a number in base 256, the highest digit first. A word that is folded from at
most eight octets is this number: nothing is pushed out of it. Every number is written by as
many octets as it has digits, and by no fewer.
-/

namespace FuzzHarness

namespace Bytes

/-- The number that octets write, the first of them being the highest digit. -/
def number (octets : Bytes) : Nat :=
  Nat.ofDigits 256 (octets.reverse.map UInt8.toNat)

/-- How many octets it takes to write a number; none for zero. -/
def widthOf (number : Nat) : Nat :=
  (Nat.digits 256 number).length

@[simp] theorem widthOf_zero : widthOf 0 = 0 := rfl

/-- A further octet becomes the lowest digit. -/
theorem number_concat (octets : Bytes) (octet : UInt8) :
    number (octets ++ [octet]) = 256 * number octets + octet.toNat := by
  simp [number, Nat.ofDigits_cons, Nat.add_comm]

theorem number_lt (octets : Bytes) : number octets < 256 ^ octets.length := by
  have digits : ∀ digit ∈ octets.reverse.map UInt8.toNat, digit < 256 := by
    intro digit mem
    obtain ⟨octet, _, rfl⟩ := List.mem_map.mp mem
    exact octet.toNat_lt
  simpa [number] using Nat.ofDigits_lt_base_pow_length (by decide : 1 < 256) digits

/-- So many octets write a number below this power of the base. -/
theorem number_lt_of_length_le {octets : Bytes} {width : Nat} (short : octets.length ≤ width) :
    number octets < 256 ^ width :=
  Nat.lt_of_lt_of_le (number_lt octets) (Nat.pow_le_pow_right (by decide) short)

/-- Every number is written by octets, as many as it has digits. -/
theorem exists_number_eq (n : Nat) :
    ∃ octets : Bytes, octets.length = widthOf n ∧ number octets = n := by
  refine ⟨((Nat.digits 256 n).map UInt8.ofNat).reverse, by simp [widthOf], ?_⟩
  have digits : (Nat.digits 256 n).map (UInt8.toNat ∘ UInt8.ofNat) = Nat.digits 256 n := by
    conv_rhs => rw [← List.map_id (Nat.digits 256 n)]
    apply List.map_congr_left
    intro digit mem
    exact UInt8.toNat_ofNat_of_lt' (Nat.digits_lt_base (by decide) mem)
  rw [number, List.reverse_reverse, List.map_map, digits, Nat.ofDigits_digits]

theorem lt_widthOf_iff {place n : Nat} : place < widthOf n ↔ 256 ^ place ≤ n :=
  Nat.lt_digits_length_iff (by decide) n

theorem widthOf_le_iff {width n : Nat} : widthOf n ≤ width ↔ n < 256 ^ width :=
  Nat.digits_length_le_iff (by decide) n

theorem widthOf_le_of_le {n m : Nat} (le : n ≤ m) : widthOf n ≤ widthOf m :=
  widthOf_le_iff.mpr (Nat.lt_of_le_of_lt le (widthOf_le_iff.mp (Nat.le_refl _)))

/-- An octet is shifted into a word that has room for it. -/
theorem toNat_shiftLeft_or {word : UInt64} (room : 256 * word.toNat < UInt64.size) (octet : UInt8) :
    ((word <<< 8) ||| octet.toUInt64).toNat = 256 * word.toNat + octet.toNat := by
  have shifted : word.toNat <<< 8 % 2 ^ 64 = word.toNat <<< 8 := by
    rw [Nat.shiftLeft_eq, Nat.mul_comm]
    exact Nat.mod_eq_of_lt room
  have small : octet.toNat < 2 ^ 8 := octet.toNat_lt
  rw [UInt64.toNat_or, UInt64.toNat_shiftLeft]
  change word.toNat <<< 8 % 2 ^ 64 ||| octet.toNat = _
  rw [shifted, ← Nat.shiftLeft_add_eq_or_of_lt small, Nat.shiftLeft_eq, Nat.mul_comm]

theorem bigEndian_concat (octets : Bytes) (octet : UInt8) :
    bigEndian (octets ++ [octet]) = (bigEndian octets <<< 8) ||| octet.toUInt64 := by
  rw [bigEndian, List.foldl_append]
  rfl

/-- Up to eight octets fold into a word without loss. -/
theorem toNat_bigEndian {octets : Bytes} (short : octets.length ≤ 8) :
    (bigEndian octets).toNat = number octets := by
  induction octets using List.reverseRecOn with
  | nil => rfl
  | append_singleton octets octet ih =>
      rw [List.length_append, List.length_singleton] at short
      have folded := ih (by omega)
      have bound := number_lt_of_length_le (show octets.length ≤ 7 by omega)
      have room : 256 * (bigEndian octets).toNat < UInt64.size := by
        rw [folded]
        change _ < 256 ^ 8
        omega
      rw [bigEndian_concat, toNat_shiftLeft_or room, folded, number_concat]

end Bytes

namespace Cursor

/-- A word reaches a place just if it has a digit there. -/
theorem shiftRight_pos_iff (word : UInt64) {place : Nat} (below : place < 8) :
    0 < word >>> UInt64.ofNat (8 * place) ↔ place < Bytes.widthOf word.toNat := by
  have shift : (UInt64.ofNat (8 * place)).toNat % 64 = 8 * place := by
    rw [UInt64.toNat_ofNat_of_lt' (by change 8 * place < 2 ^ 64; omega)]
    omega
  rw [UInt64.lt_iff_toNat_lt, UInt64.toNat_shiftRight, shift, Nat.shiftRight_eq_div_pow, pow_mul,
    Bytes.lt_widthOf_iff]
  exact Nat.div_pos_iff.trans (and_iff_right (by positivity))

/-- A word reaches as many places as it takes octets to write it. -/
theorem octetsOf_eq (word : UInt64) : octetsOf word = Bytes.widthOf word.toNat := by
  have reached : octetsOf word = (List.range 8).countP fun place =>
      place < Bytes.widthOf word.toNat := by
    apply List.countP_congr
    intro place mem
    simpa using shiftRight_pos_iff word (List.mem_range.mp mem)
  have short : Bytes.widthOf word.toNat ≤ 8 := Bytes.widthOf_le_iff.mpr word.toNat_lt
  rw [reached]
  generalize Bytes.widthOf word.toNat = width at short
  revert width
  decide

end Cursor

end FuzzHarness
