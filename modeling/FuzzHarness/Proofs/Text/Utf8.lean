import FuzzHarness.Text.Pieces
import FuzzHarness.Text.Utf8
import Mathlib.Tactic.SplitIfs

/-!
# Laws of UTF-8

Cutting the encoding of a text gives its characters back, so strict decoding undoes
encoding. Lenient decoding writes at most three octets of text for each octet it reads:
only a replacement character is longer than what it stands for, and it has three. Whether
it begins with a given ASCII text is told by the octets.
-/

namespace FuzzHarness.Text.Utf8

theorem chunks_one {a : UInt8} (ascii : a.toNat < 0x80) (rest : Bytes) :
    chunks (a :: rest) = .char (Char.ofNat a.toNat) :: chunks rest := by
  have low : a < 0x80 := UInt8.lt_iff_toNat_lt.mpr ascii
  rw [chunks.eq_def]
  simp [low]

/-- The octets with which a character of more than one octet begins. -/
private theorem leads {a : UInt8} (low : 0xC2 ≤ a.toNat) (high : a.toNat ≤ 0xF4) :
    ¬ a < 0x80 ∧ ¬ (a < 0xC2 || 0xF4 < a) := by
  simp only [UInt8.lt_iff_toNat_lt, Bool.or_eq_true, decide_eq_true_eq]
  change ¬ a.toNat < 0x80 ∧ ¬ (a.toNat < 0xC2 ∨ 0xF4 < a.toNat)
  omega

theorem isContinuation_iff {b : UInt8} :
    isContinuation b = true ↔ 0x80 ≤ b.toNat ∧ b.toNat ≤ 0xBF := by
  simp [isContinuation, UInt8.le_iff_toNat_le]

/-- What may stand second, with the octets in question as numbers. -/
theorem mayFollow_iff {a b : UInt8} :
    mayFollow a b = true ↔
      (if a.toNat = 0xE0 then 0xA0 else if a.toNat = 0xF0 then 0x90 else 0x80) ≤ b.toNat ∧
        b.toNat ≤ (if a.toNat = 0xED then 0x9F else if a.toNat = 0xF4 then 0x8F else 0xBF) := by
  have same (n : UInt8) : a = n ↔ a.toNat = n.toNat := UInt8.toNat_inj.symm
  simp only [mayFollow, isContinuation, same]
  split
  · next h => simp [h, UInt8.le_iff_toNat_le]
  · split
    · next h => simp [h, UInt8.le_iff_toNat_le]
    · split
      · next h => simp [h, UInt8.le_iff_toNat_le]
      · split
        · next h => simp [h, UInt8.le_iff_toNat_le]
        · simp_all [UInt8.le_iff_toNat_le]

theorem chunks_two {a b : UInt8} (low : 0xC2 ≤ a.toNat) (high : a.toNat < 0xE0)
    (second : mayFollow a b = true) (rest : Bytes) :
    chunks (a :: b :: rest) =
      .char (Char.ofNat (a.toNat % 32 * 64 + payload b)) :: chunks rest := by
  have lead := leads low (by omega)
  have two : a < 0xE0 := UInt8.lt_iff_toNat_lt.mpr high
  rw [chunks.eq_def]
  simp only [if_neg lead.1, if_neg lead.2, second, two, Bool.not_true, Bool.false_eq_true,
    if_false, if_true]

theorem chunks_three {a b c : UInt8} (low : 0xE0 ≤ a.toNat) (high : a.toNat < 0xF0)
    (second : mayFollow a b = true) (third : isContinuation c = true) (rest : Bytes) :
    chunks (a :: b :: c :: rest) =
      .char (Char.ofNat (a.toNat % 16 * 4096 + payload b * 64 + payload c)) ::
        chunks rest := by
  have lead := leads (a := a) (by omega) (by omega)
  have notTwo : ¬ a < 0xE0 := UInt8.not_lt.mpr (UInt8.le_iff_toNat_le.mpr low)
  have three : a < 0xF0 := UInt8.lt_iff_toNat_lt.mpr high
  rw [chunks.eq_def]
  simp only [if_neg lead.1, if_neg lead.2, second, third, if_neg notTwo, three, Bool.not_true,
    Bool.false_eq_true, if_false, if_true]

theorem chunks_four {a b c d : UInt8} (low : 0xF0 ≤ a.toNat) (high : a.toNat ≤ 0xF4)
    (second : mayFollow a b = true) (third : isContinuation c = true)
    (fourth : isContinuation d = true) (rest : Bytes) :
    chunks (a :: b :: c :: d :: rest) =
      .char (Char.ofNat (a.toNat % 8 * 262144 + payload b * 4096 + payload c * 64 +
        payload d)) :: chunks rest := by
  have lead := leads (a := a) (by omega) high
  have notTwo : ¬ a < 0xE0 :=
    UInt8.not_lt.mpr (UInt8.le_iff_toNat_le.mpr (show 0xE0 ≤ a.toNat by omega))
  have notThree : ¬ a < 0xF0 := UInt8.not_lt.mpr (UInt8.le_iff_toNat_le.mpr low)
  rw [chunks.eq_def]
  simp only [if_neg lead.1, if_neg lead.2, second, third, fourth, if_neg notTwo,
    if_neg notThree, Bool.not_true, Bool.false_eq_true, if_false]

/-- The code points of characters. Those of surrogates are none. -/
private theorem codePoint_range (c : Char) :
    c.toNat < 0xD800 ∨ 0xDFFF < c.toNat ∧ c.toNat < 0x110000 :=
  c.valid

private theorem toNat_ofNat {n : Nat} (h : n < 256) : (UInt8.ofNat n).toNat = n := by
  simp [Nat.mod_eq_of_lt h]

/-- The encoding of a character, by the size of its code point. -/
theorem encodeChar_eq (c : Char) :
    String.utf8EncodeChar c =
      if c.toNat ≤ 0x7F then [UInt8.ofNat c.toNat]
      else if c.toNat ≤ 0x7FF then
        [UInt8.ofNat (c.toNat / 64 % 32 + 0xC0), UInt8.ofNat (c.toNat % 64 + 0x80)]
      else if c.toNat ≤ 0xFFFF then
        [UInt8.ofNat (c.toNat / 4096 % 16 + 0xE0), UInt8.ofNat (c.toNat / 64 % 64 + 0x80),
          UInt8.ofNat (c.toNat % 64 + 0x80)]
      else
        [UInt8.ofNat (c.toNat / 262144 % 8 + 0xF0), UInt8.ofNat (c.toNat / 4096 % 64 + 0x80),
          UInt8.ofNat (c.toNat / 64 % 64 + 0x80), UInt8.ofNat (c.toNat % 64 + 0x80)] :=
  rfl

/-- A number of six bits behind the mark of a continuation octet. -/
private theorem continuation (n : Nat) :
    isContinuation (UInt8.ofNat (n % 64 + 0x80)) = true ∧
      payload (UInt8.ofNat (n % 64 + 0x80)) = n % 64 := by
  have octet : (UInt8.ofNat (n % 64 + 0x80)).toNat = n % 64 + 0x80 := toNat_ofNat (by omega)
  refine ⟨isContinuation_iff.mpr ?_, ?_⟩
  · omega
  · rw [payload, octet]
    omega

private theorem chunks_encoded_two {n : Nat} (low : 0x7F < n) (high : n ≤ 0x7FF)
    (rest : Bytes) :
    chunks (UInt8.ofNat (n / 64 % 32 + 0xC0) :: UInt8.ofNat (n % 64 + 0x80) :: rest) =
      .char (Char.ofNat n) :: chunks rest := by
  have first : (UInt8.ofNat (n / 64 % 32 + 0xC0)).toNat = n / 64 % 32 + 0xC0 :=
    toNat_ofNat (by omega)
  obtain ⟨last, lastPayload⟩ := continuation n
  have second : mayFollow (UInt8.ofNat (n / 64 % 32 + 0xC0)) (UInt8.ofNat (n % 64 + 0x80)) =
      true := by
    have := isContinuation_iff.mp last
    rw [mayFollow_iff, first]
    split_ifs <;> omega
  have whole : (n / 64 % 32 + 0xC0) % 32 * 64 + n % 64 = n := by omega
  rw [chunks_two (by omega) (by omega) second, first, lastPayload, whole]

private theorem chunks_encoded_three {n : Nat} (low : 0x7FF < n) (high : n ≤ 0xFFFF)
    (range : n < 0xD800 ∨ 0xDFFF < n) (rest : Bytes) :
    chunks (UInt8.ofNat (n / 4096 % 16 + 0xE0) :: UInt8.ofNat (n / 64 % 64 + 0x80) ::
      UInt8.ofNat (n % 64 + 0x80) :: rest) = .char (Char.ofNat n) :: chunks rest := by
  have first : (UInt8.ofNat (n / 4096 % 16 + 0xE0)).toNat = n / 4096 % 16 + 0xE0 :=
    toNat_ofNat (by omega)
  have middle : (UInt8.ofNat (n / 64 % 64 + 0x80)).toNat = n / 64 % 64 + 0x80 :=
    toNat_ofNat (by omega)
  obtain ⟨-, middlePayload⟩ := continuation (n / 64)
  obtain ⟨last, lastPayload⟩ := continuation n
  -- Overlong forms and surrogates are excluded here.
  have second : mayFollow (UInt8.ofNat (n / 4096 % 16 + 0xE0))
      (UInt8.ofNat (n / 64 % 64 + 0x80)) = true := by
    rw [mayFollow_iff, first, middle]
    split_ifs <;> omega
  have whole : (n / 4096 % 16 + 0xE0) % 16 * 4096 + n / 64 % 64 * 64 + n % 64 = n := by omega
  rw [chunks_three (by omega) (by omega) second last, first, middlePayload, lastPayload, whole]

private theorem chunks_encoded_four {n : Nat} (low : 0xFFFF < n) (high : n < 0x110000)
    (rest : Bytes) :
    chunks (UInt8.ofNat (n / 262144 % 8 + 0xF0) :: UInt8.ofNat (n / 4096 % 64 + 0x80) ::
      UInt8.ofNat (n / 64 % 64 + 0x80) :: UInt8.ofNat (n % 64 + 0x80) :: rest) =
      .char (Char.ofNat n) :: chunks rest := by
  have first : (UInt8.ofNat (n / 262144 % 8 + 0xF0)).toNat = n / 262144 % 8 + 0xF0 :=
    toNat_ofNat (by omega)
  have after : (UInt8.ofNat (n / 4096 % 64 + 0x80)).toNat = n / 4096 % 64 + 0x80 :=
    toNat_ofNat (by omega)
  obtain ⟨-, afterPayload⟩ := continuation (n / 4096)
  obtain ⟨middle, middlePayload⟩ := continuation (n / 64)
  obtain ⟨last, lastPayload⟩ := continuation n
  have second : mayFollow (UInt8.ofNat (n / 262144 % 8 + 0xF0))
      (UInt8.ofNat (n / 4096 % 64 + 0x80)) = true := by
    rw [mayFollow_iff, first, after]
    split_ifs <;> omega
  have whole : (n / 262144 % 8 + 0xF0) % 8 * 262144 + n / 4096 % 64 * 4096 +
      n / 64 % 64 * 64 + n % 64 = n := by omega
  rw [chunks_four (by omega) (by omega) second middle last, first, afterPayload, middlePayload,
    lastPayload, whole]

/-- The encoding of a character is cut off as that character, whatever follows. -/
theorem chunks_encodeChar_append (c : Char) (rest : Bytes) :
    chunks (String.utf8EncodeChar c ++ rest) = .char c :: chunks rest := by
  have range := codePoint_range c
  suffices h : chunks (String.utf8EncodeChar c ++ rest) =
      .char (Char.ofNat c.toNat) :: chunks rest by
    rwa [Char.ofNat_toNat] at h
  rw [encodeChar_eq]
  split_ifs with one two three
  · have octet : (UInt8.ofNat c.toNat).toNat = c.toNat := toNat_ofNat (by omega)
    change chunks (UInt8.ofNat c.toNat :: rest) = _
    rw [chunks_one (by omega), octet]
  · exact chunks_encoded_two (by omega) two rest
  · exact chunks_encoded_three (by omega) three (by omega) rest
  · exact chunks_encoded_four (by omega) (by omega) rest

theorem chunks_encode_append (text : List Char) (rest : Bytes) :
    chunks (encode text ++ rest) = text.map Chunk.char ++ chunks rest := by
  induction text with
  | nil => rfl
  | cons c text ih =>
      change chunks (String.utf8EncodeChar c ++ encode text ++ rest) = _
      rw [List.append_assoc, chunks_encodeChar_append, ih]
      rfl

@[simp] theorem chunks_encode (text : List Char) : chunks (encode text) = text.map Chunk.char := by
  simpa [chunks] using chunks_encode_append text []

@[simp] theorem collect_map_char (offset : Nat) (text : List Char) :
    collect offset (text.map Chunk.char) = .ok text := by
  induction text generalizing offset with
  | nil => rfl
  | cons c text ih =>
      rw [List.map_cons, collect, ih]
      rfl

/-- Strict decoding undoes encoding. -/
@[simp] theorem decode_encode (text : List Char) :
    decode (encode text) = .ok (String.ofList text) := by
  rw [decode, chunks_encode, collect_map_char]
  rfl

@[simp] theorem decode_ofString (text : String) : decode (ofString text) = .ok text := by
  rw [ofString, decode_encode, String.ofList_toList]

/-- Different texts have different octets. -/
theorem ofString_injective : Function.Injective ofString := by
  intro text other same
  have decoded := decode_ofString text
  rw [same, decode_ofString] at decoded
  exact (Except.ok.inj decoded).symm

private theorem octet_ofNat {n : Nat} (positive : 0 < n) (small : n < 0xF8) :
    (UInt8.ofNat n).toNat < 0xF8 ∧ UInt8.ofNat n ≠ 0 := by
  have value : (UInt8.ofNat n).toNat = n := toNat_ofNat (by omega)
  constructor
  · omega
  · intro zero
    rw [zero] at value
    exact absurd value (Nat.ne_of_lt positive)

/-- The octets of a character lie below 0xF8, and only the NUL character has a zero octet. -/
theorem octet_of_mem_encodeChar {c : Char} {octet : UInt8}
    (mem : octet ∈ String.utf8EncodeChar c) :
    octet.toNat < 0xF8 ∧ (octet = 0 → c = '\x00') := by
  by_cases nul : c = '\x00'
  · subst nul
    obtain rfl := List.mem_singleton.mp mem
    decide
  · have positive : 0 < c.toNat :=
      Nat.pos_of_ne_zero fun zero => nul (Char.toNat_inj.mp zero)
    suffices bounds : octet.toNat < 0xF8 ∧ octet ≠ 0 from
      ⟨bounds.1, fun zero => absurd zero bounds.2⟩
    rw [encodeChar_eq] at mem
    split at mem
    · obtain rfl := List.mem_singleton.mp mem
      exact octet_ofNat positive (by omega)
    · split at mem
      · simp only [List.mem_cons, List.not_mem_nil, or_false] at mem
        rcases mem with rfl | rfl <;> exact octet_ofNat (by omega) (by omega)
      · split at mem
        · simp only [List.mem_cons, List.not_mem_nil, or_false] at mem
          rcases mem with rfl | rfl | rfl <;> exact octet_ofNat (by omega) (by omega)
        · simp only [List.mem_cons, List.not_mem_nil, or_false] at mem
          rcases mem with rfl | rfl | rfl | rfl <;> exact octet_ofNat (by omega) (by omega)

/-- No text has an octet of 0xF8 or more. -/
theorem not_mem_ofString {octet : UInt8} (high : 0xF8 ≤ octet.toNat) (text : String) :
    octet ∉ ofString text := by
  intro mem
  obtain ⟨c, _, encoded⟩ := List.mem_flatMap.mp mem
  have := (octet_of_mem_encodeChar encoded).1
  omega

/-- A text without NUL characters has no zero octet. -/
theorem zero_not_mem_ofString {text : String} (clear : '\x00' ∉ text.toList) :
    0 ∉ ofString text := by
  intro mem
  obtain ⟨c, present, encoded⟩ := List.mem_flatMap.mp mem
  exact clear ((octet_of_mem_encodeChar encoded).2 rfl ▸ present)

@[simp] theorem length_encode (text : List Char) :
    (encode text).length = (String.ofList text).utf8ByteSize := by
  rw [← String.size_toByteArray, String.toByteArray_ofList, List.utf8Encode,
    List.size_toByteArray]
  rfl

@[simp] theorem length_ofString (text : String) :
    (ofString text).length = text.utf8ByteSize := by
  rw [ofString, length_encode, String.ofList_toList]

private theorem length_encode_cons (c : Char) (text : List Char) :
    (encode (c :: text)).length = c.utf8Size + (encode text).length := by
  change (String.utf8EncodeChar c ++ encode text).length = _
  rw [List.length_append, String.length_utf8EncodeChar]

private theorem length_lenient_char (c : Char) (rest : List Chunk) :
    (encode ((Chunk.char c :: rest).map Chunk.lenient)).length ≤
      4 + (encode (rest.map Chunk.lenient)).length := by
  rw [List.map_cons, length_encode_cons]
  exact Nat.add_le_add_right c.utf8Size_le_four _

private theorem length_lenient_invalid (size : Nat) (rest : List Chunk) :
    (encode ((Chunk.invalid size :: rest).map Chunk.lenient)).length =
      3 + (encode (rest.map Chunk.lenient)).length := by
  rw [List.map_cons, length_encode_cons]
  rfl

/-- An octet below 128 is the number of a character. -/
theorem toNat_ofNat_ascii {a : UInt8} (low : a < 0x80) : (Char.ofNat a.toNat).toNat = a.toNat := by
  have ascii : a.toNat < 0x80 := UInt8.lt_iff_toNat_lt.mp low
  have valid : a.toNat.isValidChar := Or.inl (by omega)
  rw [Char.ofNat, dif_pos valid]
  exact UInt32.toNat_ofNatLT

/-- An octet below 128 is a character of one octet. -/
private theorem utf8Size_ofNat_ascii {a : UInt8} (low : a < 0x80) :
    (Char.ofNat a.toNat).utf8Size = 1 := by
  have ascii : a.toNat < 0x80 := UInt8.lt_iff_toNat_lt.mp low
  have value := toNat_ofNat_ascii low
  rw [Char.utf8Size_eq_one_iff, UInt32.le_iff_toNat_le]
  change (Char.ofNat a.toNat).toNat ≤ 127
  omega

/-- A chunk of one octet becomes at most three octets, and a longer one at most four. -/
theorem length_encode_lenient_le (octets : Bytes) :
    (encode ((chunks octets).map Chunk.lenient)).length ≤ 3 * octets.length := by
  fun_induction chunks octets with
  | case1 => exact Nat.zero_le _
  | case2 a rest low ih =>
      rw [List.map_cons, length_encode_cons, List.length_cons]
      have one : (Chunk.char (Char.ofNat a.toNat)).lenient.utf8Size = 1 :=
        utf8Size_ofNat_ascii low
      omega
  | case3 | case5 | case8 | case11 =>
      rw [length_lenient_invalid]
      simp only [List.length_cons] at *
      omega
  | case4 | case7 | case10 =>
      change 3 ≤ _
      simp only [List.length_cons]
      omega
  | case6 | case9 | case12 =>
      apply Nat.le_trans (length_lenient_char _ _)
      simp only [List.length_cons]
      omega

/-- Lenient decoding at most triples the size. -/
theorem utf8ByteSize_lossy_le (octets : Bytes) :
    (lossy octets).utf8ByteSize ≤ 3 * octets.length := by
  rw [lossy, ← length_encode]
  exact length_encode_lenient_le octets

/-- A text begins with another as its characters do, one by one. -/
theorem startsWith_cons (s c : Char) (start text : List Char) :
    startsWith (s :: start) (c :: text) = true ↔ s = c ∧ startsWith start text = true := by
  rw [startsWith, startsWith, dropPrefix?]
  split
  · next same => simp [same]
  · next differs => simp [differs]

/-- A character that is not the NUL character has one number only. -/
theorem eq_toNat_of_ofNat {c : Char} (visible : c ≠ '\x00') {n : Nat} (same : Char.ofNat n = c) :
    n = c.toNat := by
  subst same
  by_cases valid : n.isValidChar
  · rw [Char.ofNat, dif_pos valid]
    exact UInt32.toNat_ofNatLT.symm
  · rw [Char.ofNat, dif_neg valid] at visible
    exact absurd rfl visible

/-- Where no ASCII octet stands first, lenient decoding begins with no ASCII character. -/
theorem lenient_ne_of_high {a : UInt8} (high : ¬a < 0x80) (rest : Bytes) {c : Char}
    (visible : c ≠ '\x00') (ascii : c.toNat < 0x80) :
    ∃ chunk more, chunks (a :: rest) = chunk :: more ∧ chunk.lenient ≠ c := by
  have replaced : replacement ≠ c := by
    rintro rfl
    exact absurd ascii (by decide)
  have large {n : Nat} (big : 0x80 ≤ n) : Char.ofNat n ≠ c := by
    intro same
    have := eq_toNat_of_ofNat visible same
    omega
  rw [chunks.eq_def]
  dsimp only
  rw [if_neg high]
  split
  · exact ⟨_, _, rfl, replaced⟩
  · next lead =>
    have range : 0xC2 ≤ a.toNat ∧ a.toNat ≤ 0xF4 := by
      simpa [UInt8.le_iff_toNat_le] using lead
    split
    · exact ⟨_, _, rfl, replaced⟩
    · next b rest =>
      split
      · exact ⟨_, _, rfl, replaced⟩
      · next second =>
        obtain ⟨above, below⟩ := mayFollow_iff.mp (by simpa using second)
        have below : b.toNat ≤ 0xBF := by
          split_ifs at below <;> omega
        have payloadB : payload b = b.toNat % 64 := rfl
        split
        · next two =>
          have two : a.toNat < 0xE0 := UInt8.lt_iff_toNat_lt.mp two
          exact ⟨_, _, rfl, large (by omega)⟩
        · next notTwo =>
          have notTwo : 0xE0 ≤ a.toNat := UInt8.le_iff_toNat_le.mp (UInt8.not_lt.mp notTwo)
          split
          · exact ⟨_, _, rfl, replaced⟩
          · split
            · exact ⟨_, _, rfl, replaced⟩
            · split
              · next three =>
                have three : a.toNat < 0xF0 := UInt8.lt_iff_toNat_lt.mp three
                refine ⟨_, _, rfl, large ?_⟩
                split at above <;> omega
              · next notThree =>
                have notThree : 0xF0 ≤ a.toNat :=
                  UInt8.le_iff_toNat_le.mp (UInt8.not_lt.mp notThree)
                split
                · exact ⟨_, _, rfl, replaced⟩
                · split
                  · exact ⟨_, _, rfl, replaced⟩
                  · refine ⟨_, _, rfl, large ?_⟩
                    split_ifs at above <;> omega

/-- Octets as the characters with their numbers. -/
def asciiText (octets : Bytes) : List Char :=
  octets.map fun octet => Char.ofNat octet.toNat

/-- Lenient decoding begins with an ASCII text just if the octets begin with those of it. -/
theorem startsWith_lossy {start : Bytes} (ascii : ∀ octet ∈ start, 0 < octet ∧ octet < 0x80)
    (octets : Bytes) :
    startsWith (asciiText start) (lossy octets).toList = true ↔ start <+: octets := by
  rw [lossy, String.toList_ofList]
  induction start generalizing octets with
  | nil => simp [asciiText, startsWith, dropPrefix?]
  | cons s start ih =>
      obtain ⟨⟨positive, small⟩, others⟩ := List.forall_mem_cons.mp ascii
      have value := toNat_ofNat_ascii small
      rw [asciiText, List.map_cons, ← asciiText]
      cases octets with
      | nil => simp [startsWith, dropPrefix?, chunks]
      | cons a rest =>
          rw [List.cons_prefix_cons]
          by_cases low : a < 0x80
          · rw [chunks_one (UInt8.lt_iff_toNat_lt.mp low), List.map_cons, Chunk.lenient,
              startsWith_cons, ih others]
            apply and_congr_left
            intro _
            constructor
            · intro same
              apply UInt8.toNat_inj.mp
              rw [← value, same, toNat_ofNat_ascii low]
            · rintro rfl
              rfl
          · have visible : Char.ofNat s.toNat ≠ '\x00' := by
              intro nul
              rw [nul] at value
              have := UInt8.lt_iff_toNat_lt.mp positive
              exact absurd value.symm (Nat.ne_of_gt this)
            have bound : (Char.ofNat s.toNat).toNat < 0x80 := by
              rw [value]
              exact UInt8.lt_iff_toNat_lt.mp small
            obtain ⟨chunk, more, cut, other⟩ := lenient_ne_of_high low rest visible bound
            rw [cut, List.map_cons, startsWith_cons]
            constructor
            · rintro ⟨same, _⟩
              exact absurd same.symm other
            · rintro ⟨rfl, _⟩
              exact absurd small low

end FuzzHarness.Text.Utf8
