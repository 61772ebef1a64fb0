import FuzzHarness.Text.Hex
import Mathlib.Data.List.Forall2

/-!
# Hexadecimal words read back

A word is written with all of its sixteen digits. Its value is read from them in order, and
letters in upper case are read as the same digits. No digit is a blank, a sign or a marker.
-/

namespace FuzzHarness.Text

/-- The same text, any characters of it in upper case. -/
def Recased (text other : List Char) : Prop :=
  List.Forall₂ (fun c d => d = c ∨ d = c.toUpper) text other

theorem exists_of_mem_hexChars {octets : Bytes} {c : Char} (mem : c ∈ hexChars octets) :
    ∃ n < 16, c = hexDigit n := by
  rw [hexChars, List.mem_flatMap] at mem
  obtain ⟨octet, _, digit⟩ := mem
  have := octet.toNat_lt
  rcases List.mem_cons.mp digit with rfl | digit
  · exact ⟨octet.toNat / 16, by omega, rfl⟩
  · exact ⟨octet.toNat % 16, by omega, List.mem_singleton.mp digit⟩

theorem length_hexChars (octets : Bytes) : (hexChars octets).length = 2 * octets.length := by
  induction octets with
  | nil => rfl
  | cons octet octets ih =>
      change (hexChars octets).length + 2 = _
      rw [ih, List.length_cons]
      omega

/-- The character is read as this digit, and as no blank, sign or marker. -/
def ReadsDigit (n : Nat) (d : Char) : Prop :=
  hexValue? d = some n ∧ isBlank d = false ∧ d ≠ '+' ∧ d ≠ 'x' ∧ d ≠ 'X'

instance (n : Nat) (d : Char) : Decidable (ReadsDigit n d) :=
  inferInstanceAs (Decidable (_ ∧ _))

theorem readsDigit_hexDigit :
    ∀ n < 16, ReadsDigit n (hexDigit n) ∧ ReadsDigit n (hexDigit n).toUpper := by
  decide

theorem readsDigit_of_recased {n : Nat} (small : n < 16) {d : Char}
    (recased : d = hexDigit n ∨ d = (hexDigit n).toUpper) : ReadsDigit n d := by
  rcases recased with rfl | rfl
  · exact (readsDigit_hexDigit n small).1
  · exact (readsDigit_hexDigit n small).2

/-- What a digit in either case is not. -/
theorem Recased.of_mem {octets : Bytes} {digits : List Char}
    (recased : Recased (hexChars octets) digits) {d : Char} (mem : d ∈ digits) :
    isBlank d = false ∧ d ≠ '+' ∧ d ≠ 'x' ∧ d ≠ 'X' := by
  obtain ⟨i, small, rfl⟩ := List.mem_iff_getElem.mp mem
  have paired := recased.get (recased.length_eq ▸ small) small
  obtain ⟨n, below, same⟩ := exists_of_mem_hexChars
    (List.get_mem (hexChars octets) ⟨i, recased.length_eq ▸ small⟩)
  rw [same] at paired
  exact (readsDigit_of_recased below (by simpa using paired)).2

/-- The number that octets stand for, highest first, behind what is read already. -/
def valueFrom (value : Nat) (octets : Bytes) : Nat :=
  octets.foldl (fun value octet => value * 256 + octet.toNat) value

theorem foldlM_hexValue? {octets : Bytes} {digits : List Char}
    (recased : Recased (hexChars octets) digits) (value : Nat) :
    digits.foldlM (fun value c => (hexValue? c).map fun d => value * 16 + d) value =
      some (valueFrom value octets) := by
  induction octets generalizing digits value with
  | nil =>
      cases recased
      rfl
  | cons octet octets ih =>
      have := octet.toNat_lt
      cases recased with
      | cons high rest =>
        cases rest with
        | cons low rest =>
          have first := (readsDigit_of_recased (by omega) high).1
          have second := (readsDigit_of_recased (Nat.mod_lt _ (by decide)) low).1
          have whole : (value * 16 + octet.toNat / 16) * 16 + octet.toNat % 16 =
            value * 256 + octet.toNat := by omega
          rw [List.foldlM_cons, first, Option.map_some, Option.bind_eq_bind, Option.bind_some,
            List.foldlM_cons, second, Option.map_some, Option.bind_eq_bind, Option.bind_some,
            whole]
          exact ih rest _

/-- The octets of a word stand for it. -/
theorem valueFrom_bigEndianOctets (word : UInt64) :
    valueFrom 0 (Bytes.bigEndianOctets 8 word.toNat) = word.toNat := by
  have folded (octets : Bytes) : octets.foldr (fun octet value => value * 256 + octet.toNat) 0 =
      Bytes.ofLittleEndian octets := by
    induction octets with
    | nil => rfl
    | cons octet octets ih =>
        rw [List.foldr_cons, ih, Bytes.ofLittleEndian]
        omega
  rw [valueFrom, Bytes.bigEndianOctets, List.foldl_reverse, folded,
    Bytes.ofLittleEndian_littleEndian]
  exact Nat.mod_eq_of_lt word.toNat_lt

variable {word : UInt64} {digits : List Char}

theorem hexWord_toList (word : UInt64) :
    (hexWord word).toList = hexChars (Bytes.bigEndianOctets 8 word.toNat) :=
  String.toList_ofList

theorem Recased.length_hexWord (recased : Recased (hexWord word).toList digits) :
    digits.length = 16 := by
  rw [← recased.length_eq, hexWord_toList, length_hexChars, Bytes.bigEndianOctets,
    List.length_reverse, Bytes.length_littleEndian]

theorem hexWord?_of_unsigned {text : List Char} (unsigned : ∀ rest, text ≠ '+' :: rest)
    (nonempty : text ≠ []) {value : Nat} (read : digitsValue? 16 hexValue? text = some value)
    (small : value < UInt64.size) : hexWord? text = some (UInt64.ofNat value) := by
  unfold hexWord?
  split
  · next rest => exact absurd rfl (unsigned rest)
  · rw [if_neg (mt List.isEmpty_iff.mp nonempty), read]
    exact if_pos small

/-- A written word is read back, its letters in either case. -/
theorem Recased.hexWord?_eq (recased : Recased (hexWord word).toList digits) :
    hexWord? digits = some word := by
  have long := recased.length_hexWord
  rw [hexWord_toList] at recased
  have unsigned : ∀ rest, digits ≠ '+' :: rest := by
    rintro rest rfl
    exact (recased.of_mem List.mem_cons_self).2.1 rfl
  have nonempty : digits ≠ [] := by
    rintro rfl
    cases long
  have read : digitsValue? 16 hexValue? digits = some word.toNat := by
    rw [digitsValue?, foldlM_hexValue? recased, valueFrom_bigEndianOctets]
  rw [hexWord?_of_unsigned unsigned nonempty read word.toNat_lt, UInt64.ofNat_toNat]

end FuzzHarness.Text
