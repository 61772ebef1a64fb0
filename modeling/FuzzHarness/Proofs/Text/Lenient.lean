import FuzzHarness.Proofs.Text.Utf8

/-!
# The texts that lenient decoding yields

A replacement character can stand for a single octet, and every other character takes the
octets of its encoding. This is what a text needs at least to be decoded from, and so many
octets always suffice: every text comes out of lenient decoding, but none out of fewer octets.
-/

namespace FuzzHarness.Text.Utf8

/-- How many octets a character can be decoded from at least. -/
def leastOctetsOf (c : Char) : Nat :=
  if c = replacement then 1 else c.utf8Size

/-- How many octets a text can be decoded from at least. -/
def leastOctets : List Char → Nat
  | [] => 0
  | c :: text => leastOctetsOf c + leastOctets text

@[simp] theorem leastOctets_cons (c : Char) (text : List Char) :
    leastOctets (c :: text) = leastOctetsOf c + leastOctets text := rfl

@[simp] theorem leastOctetsOf_replacement : leastOctetsOf replacement = 1 := if_pos rfl

theorem leastOctetsOf_le (c : Char) : leastOctetsOf c ≤ c.utf8Size := by
  rw [leastOctetsOf]
  split
  · exact c.utf8Size_pos
  · exact Nat.le_refl _

/-- The character of a number that is none is the NUL character. -/
theorem toNat_ofNat_le (n : Nat) : (Char.ofNat n).toNat ≤ n := by
  by_cases valid : n.isValidChar
  · rw [Char.ofNat, dif_pos valid]
    exact Nat.le_of_eq UInt32.toNat_ofNatLT
  · rw [Char.ofNat, dif_neg valid]
    exact Nat.zero_le n

/-- The smaller a number, the fewer octets its character takes. -/
theorem leastOctetsOf_ofNat_le (n : Nat) : leastOctetsOf (Char.ofNat n) ≤
    if n < 0x80 then 1 else if n < 0x800 then 2 else if n < 0x10000 then 3 else 4 := by
  have number := toNat_ofNat_le n
  have least := leastOctetsOf_le (Char.ofNat n)
  rw [← String.length_utf8EncodeChar, encodeChar_eq] at least
  split_ifs at least ⊢ <;> simp only [List.length_cons, List.length_nil] at least <;> omega

/-- A character takes its octets out of what a text can be decoded from. -/
private theorem leastOctets_char_le {n size length : Nat} {rest : List Chunk}
    (needs : leastOctetsOf (Char.ofNat n) ≤ size)
    (others : leastOctets (rest.map Chunk.lenient) ≤ length) :
    leastOctets ((Chunk.char (Char.ofNat n) :: rest).map Chunk.lenient) ≤ length + size := by
  rw [List.map_cons, leastOctets_cons, Chunk.lenient]
  omega

/-- No chunk is shorter than its character needs. -/
theorem leastOctets_lenient_le (octets : Bytes) :
    leastOctets ((chunks octets).map Chunk.lenient) ≤ octets.length := by
  have payload_lt (octet : UInt8) : payload octet < 64 := Nat.mod_lt _ (by decide)
  fun_induction chunks octets with
  | case1 => exact Nat.le_refl 0
  | case2 a rest low ih =>
      have small : a.toNat < 0x80 := UInt8.lt_iff_toNat_lt.mp low
      have needs := leastOctetsOf_ofNat_le a.toNat
      rw [if_pos small] at needs
      exact leastOctets_char_le needs ih
  | case3 | case5 | case8 | case11 =>
      rw [List.map_cons, leastOctets_cons, Chunk.lenient, leastOctetsOf_replacement]
      simp only [List.length_cons] at *
      omega
  | case4 | case7 | case10 =>
      change 1 ≤ _
      simp only [List.length_cons]
      omega
  | case6 a low lead b rest second two ih =>
      have := payload_lt b
      have needs := leastOctetsOf_ofNat_le (a.toNat % 32 * 64 + payload b)
      have whole := leastOctets_char_le (Nat.le_trans needs (show _ ≤ 2 by split_ifs <;> omega)) ih
      exact whole
  | case9 a low lead b second notTwo c rest third three ih =>
      have := payload_lt b
      have := payload_lt c
      have needs := leastOctetsOf_ofNat_le (a.toNat % 16 * 4096 + payload b * 64 + payload c)
      have whole := leastOctets_char_le (Nat.le_trans needs (show _ ≤ 3 by split_ifs <;> omega)) ih
      exact whole
  | case12 a low lead b second notTwo c third notThree d rest fourth ih =>
      have needs := leastOctetsOf_ofNat_le
        (a.toNat % 8 * 262144 + payload b * 4096 + payload c * 64 + payload d)
      have whole := leastOctets_char_le (Nat.le_trans needs (show _ ≤ 4 by split_ifs <;> omega)) ih
      exact whole

/-- So few octets a text can be decoded from. -/
def sourceOf (text : List Char) : Bytes :=
  text.flatMap fun c => if c = replacement then [0xFF] else String.utf8EncodeChar c

theorem length_sourceOf (text : List Char) : (sourceOf text).length = leastOctets text := by
  induction text with
  | nil => rfl
  | cons c text ih =>
      rw [sourceOf, List.flatMap_cons, List.length_append, ← sourceOf, ih, leastOctets_cons,
        leastOctetsOf]
      split
      · rfl
      · rw [String.length_utf8EncodeChar]

/-- An octet that no text contains is replaced, and other characters are read back. -/
theorem lenient_chunks_sourceOf (text : List Char) :
    (chunks (sourceOf text)).map Chunk.lenient = text := by
  induction text with
  | nil => rfl
  | cons c text ih =>
      rw [sourceOf, List.flatMap_cons, ← sourceOf]
      split
      · next same =>
        have cut : chunks (0xFF :: sourceOf text) = .invalid 1 :: chunks (sourceOf text) := by
          rw [chunks.eq_def]
          rfl
        rw [List.singleton_append, cut, List.map_cons, ih, same]
        rfl
      · rw [chunks_encodeChar_append, List.map_cons, ih]
        rfl

/-- A text is decoded from octets of which there are at most so many just if so many suffice. -/
theorem exists_lossy_iff {text : String} {most : Nat} :
    (∃ octets : Bytes, octets.length ≤ most ∧ lossy octets = text) ↔
      leastOctets text.toList ≤ most := by
  constructor
  · rintro ⟨octets, short, rfl⟩
    rw [lossy, String.toList_ofList]
    exact Nat.le_trans (leastOctets_lenient_le octets) short
  · intro enough
    refine ⟨sourceOf text.toList, length_sourceOf text.toList ▸ enough, ?_⟩
    rw [lossy, lenient_chunks_sourceOf, String.ofList_toList]

end FuzzHarness.Text.Utf8
