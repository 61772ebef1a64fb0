import FuzzHarness.Proofs.Text.Base64
import FuzzHarness.Proofs.Text.Utf8
import FuzzHarness.Recording.Codec

/-!
# The format of recordings delimits itself

Every reader, given what its writer produced and anything after it, returns the item and
exactly what follows. Numbers are the only items whose length depends on their value, and
the octets in front of strings and lists are such numbers, so sizes have to be below
2^64. A recording that fits a machine always has such sizes.
-/

namespace FuzzHarness

/-- How many octets a value takes behind a number that tells so. -/
def Value.size : Value → Nat
  | .bytes octets => octets.length
  | .str text => text.utf8ByteSize
  | _ => 0

/-- Every size in a recording is a machine word. -/
def Recording.Fits (recording : Recording) : Prop :=
  recording.length < UInt64.size ∧ ∀ value ∈ recording, value.size < UInt64.size

namespace Recording

def Width.bound : Width → Nat
  | .bits16 => UInt16.size
  | .bits32 => UInt32.size
  | _ => UInt64.size

theorem readOctets_append (octets rest : Bytes) :
    readOctets octets.length (octets ++ rest) = .ok (octets, rest) := by
  rw [readOctets, if_neg (by simp), List.take_left, List.drop_left]

/-- A number behind a marker is read back, if it fits the octets for it. -/
private theorem readWord_littleEndian {count n : Nat} (fits : n < Bytes.numbersOf count)
    (rest : Bytes) :
    readWord count (Bytes.littleEndian count n ++ rest) = .ok (n, rest) := by
  have read := readOctets_append (Bytes.littleEndian count n) rest
  rw [Bytes.length_littleEndian] at read
  rw [readWord, read]
  change Except.ok (_, rest) = _
  rw [Bytes.ofLittleEndian_littleEndian, Nat.mod_eq_of_lt fits]

/-- A number below 251 is its own octet. -/
theorem readNumber_octet (signed : Bool) (limit : Width) {octet : UInt8}
    (small : octet < 251) (rest : Bytes) :
    readNumber signed limit (octet :: rest) = .ok (octet.toNat, rest) := by
  rw [readNumber]
  exact if_pos small

theorem readNumber_writeNumber_append (signed : Bool) (limit : Width) {n : Nat}
    (fits : n < limit.bound) (rest : Bytes) :
    readNumber signed limit (writeNumber n ++ rest) = .ok (n, rest) := by
  have bound : limit.bound ≤ Bytes.numbersOf 8 := by cases limit <;> decide
  rw [writeNumber]
  split
  · next small =>
    have octet : (UInt8.ofNat n).toNat = n := by simp; omega
    have below : UInt8.ofNat n < 251 := UInt8.lt_iff_toNat_lt.mpr (by rw [octet]; exact small)
    rw [List.cons_append, List.nil_append, readNumber_octet _ _ below, octet]
  split
  · next big small =>
    have allowed : Width.bits16.rank ≤ limit.rank := by cases limit <;> decide
    rw [List.cons_append, readNumber]
    simp only [show ¬ (251 : UInt8) < 251 by decide, if_false, if_true, if_pos allowed]
    exact readWord_littleEndian small rest
  split
  · next small big medium =>
    have allowed : Width.bits32.rank ≤ limit.rank := by
      cases limit with
      | bits16 => exact absurd fits (by simpa [Width.bound] using big)
      | _ => decide
    rw [List.cons_append, readNumber]
    simp only [show ¬ (252 : UInt8) < 251 by decide, show ¬ (252 : UInt8) = 251 by decide,
      if_false, if_true, if_pos allowed]
    exact readWord_littleEndian medium rest
  · next small medium big =>
    have allowed : Width.bits64.rank ≤ limit.rank := by
      cases limit with
      | bits16 => exact absurd (Nat.lt_trans fits (by decide)) big
      | bits32 => exact absurd fits (by simpa [Width.bound] using big)
      | _ => decide
    rw [List.cons_append, readNumber]
    simp only [show ¬ (253 : UInt8) < 251 by decide, show ¬ (253 : UInt8) = 251 by decide,
      show ¬ (253 : UInt8) = 252 by decide, if_false, if_true, if_pos allowed]
    exact readWord_littleEndian (Nat.lt_of_lt_of_le fits bound) rest

/-- Folding signed numbers loses nothing. -/
@[simp] theorem unzigzag_zigzag (n : Int) : unzigzag (zigzag n) = n := by
  rw [zigzag]
  split
  · next nonnegative =>
    rw [unzigzag, if_pos (by omega)]
    change ((2 * n.toNat / 2 : Nat) : Int) = n
    omega
  · next negative =>
    rw [unzigzag, if_neg (by omega)]
    change -((((2 * (-n).toNat - 1) + 1) / 2 : Nat) : Int) = n
    omega

/-- Folding keeps a signed number within its width. -/
theorem zigzag_lt {bound : Nat} {n : Int} (low : -(bound : Int) ≤ n) (high : n < bound) :
    zigzag n < 2 * bound := by
  rw [zigzag]
  split <;> omega

private theorem readSized_writeOctets_append {octets : Bytes} (fits : octets.length < UInt64.size)
    (rest : Bytes) : readSized (writeOctets octets ++ rest) = .ok (octets, rest) := by
  rw [readSized, writeOctets, List.append_assoc,
    readNumber_writeNumber_append false .bits64 fits]
  exact readOctets_append octets rest

/-- The number in front of a value selects the reader of its payload. -/
private theorem readValue_cons {kind : UInt8} (small : kind < 251) (input : Bytes) :
    readValue (kind :: input) = readPayload kind.toNat input := by
  rw [readValue, readNumber_octet _ _ small]

theorem readValue_writeValue_append {value : Value} (fits : value.size < UInt64.size)
    (rest : Bytes) : readValue (writeValue value ++ rest) = .ok (value, rest) := by
  cases value with
  | bool value => cases value <;> rfl
  | u8 value => rfl
  | u16 value =>
      rw [writeValue, List.cons_append, readValue_cons (by decide)]
      change Except.map _ (readNumber false .bits16 (writeNumber value.toNat ++ rest)) = _
      rw [readNumber_writeNumber_append _ _ value.toNat_lt]
      change Except.ok (Value.u16 (UInt16.ofNat value.toNat), rest) = _
      rw [UInt16.ofNat_toNat]
  | u32 value =>
      rw [writeValue, List.cons_append, readValue_cons (by decide)]
      change Except.map _ (readNumber false .bits32 (writeNumber value.toNat ++ rest)) = _
      rw [readNumber_writeNumber_append _ _ value.toNat_lt]
      change Except.ok (Value.u32 (UInt32.ofNat value.toNat), rest) = _
      rw [UInt32.ofNat_toNat]
  | u64 value =>
      rw [writeValue, List.cons_append, readValue_cons (by decide)]
      change Except.map _ (readNumber false .bits64 (writeNumber value.toNat ++ rest)) = _
      rw [readNumber_writeNumber_append _ _ value.toNat_lt]
      change Except.ok (Value.u64 (UInt64.ofNat value.toNat), rest) = _
      rw [UInt64.ofNat_toNat]
  | i32 value =>
      have folded : zigzag value.toInt < Width.bits32.bound :=
        zigzag_lt value.le_toInt value.toInt_lt
      rw [writeValue, List.cons_append, readValue_cons (by decide)]
      change Except.map _ (readNumber true .bits32 (writeNumber (zigzag value.toInt) ++ rest)) = _
      rw [readNumber_writeNumber_append _ _ folded]
      change Except.ok (Value.i32 (Int32.ofInt (unzigzag (zigzag value.toInt))), rest) = _
      rw [unzigzag_zigzag, Int32.ofInt_toInt]
  | i64 value =>
      have folded : zigzag value.toInt < Width.bits64.bound :=
        zigzag_lt value.le_toInt value.toInt_lt
      rw [writeValue, List.cons_append, readValue_cons (by decide)]
      change Except.map _ (readNumber true .bits64 (writeNumber (zigzag value.toInt) ++ rest)) = _
      rw [readNumber_writeNumber_append _ _ folded]
      change Except.ok (Value.i64 (Int64.ofInt (unzigzag (zigzag value.toInt))), rest) = _
      rw [unzigzag_zigzag, Int64.ofInt_toInt]
  | bytes value =>
      rw [writeValue, List.cons_append, readValue_cons (by decide)]
      change Except.map _ (readSized (writeOctets value ++ rest)) = _
      rw [readSized_writeOctets_append fits]
      rfl
  | str value =>
      have fits : (Text.Utf8.ofString value).length < UInt64.size := by
        rw [Text.Utf8.length_ofString]
        exact fits
      rw [writeValue, List.cons_append, readValue_cons (by decide)]
      change readPayload 8 (writeOctets (Text.Utf8.ofString value) ++ rest) = _
      rw [readPayload, readSized_writeOctets_append fits]
      dsimp only
      rw [Text.Utf8.decode_ofString]
  | remaining value =>
      rw [writeValue, List.cons_append, readValue_cons (by decide)]
      change Except.map _ (readNumber false .bits64 (writeNumber value.toNat ++ rest)) = _
      rw [readNumber_writeNumber_append _ _ value.toNat_lt]
      change Except.ok (Value.remaining (UInt64.ofNat value.toNat), rest) = _
      rw [UInt64.ofNat_toNat]

theorem readValues_append {values : List Value} (fits : ∀ value ∈ values, value.size < UInt64.size)
    (rest : Bytes) :
    readValues values.length (values.flatMap writeValue ++ rest) = .ok (values, rest) := by
  induction values with
  | nil => rfl
  | cons value values ih =>
      have first := fits value List.mem_cons_self
      have others := ih fun other mem => fits other (List.mem_cons_of_mem _ mem)
      rw [List.length_cons, List.flatMap_cons, List.append_assoc]
      simp only [readValues, readValue_writeValue_append first, others]
      rfl

/-- A written recording is read back, and nothing of what follows it is touched. -/
theorem read_write_append {recording : Recording} (fits : recording.Fits) (rest : Bytes) :
    read (recording.write ++ rest) = .ok (recording, rest) := by
  rw [read, write, List.append_assoc, readNumber_writeNumber_append false .bits64 fits.1]
  exact readValues_append fits.2 rest

/-- The text of a recording is decoded to that recording. -/
theorem decode_encode {recording : Recording} (fits : recording.Fits) :
    decode recording.encode = .ok recording := by
  have unblank : Text.trim (Text.Base64.encodeChars recording.write) =
      Text.Base64.encodeChars recording.write :=
    Text.trim_eq_self fun c mem =>
      Text.Base64.isBlank_of_isEncodingChar (Text.Base64.isEncodingChar_of_mem_encodeChars mem)
  have bare := read_write_append fits []
  rw [List.append_nil] at bare
  rw [decode, encode, Text.Base64.encode, String.toList_ofList, unblank,
    Text.Base64.decode_encodeChars]
  dsimp only
  rw [bare]

/-- Blanks around a text make no difference to what it is decoded to. -/
theorem decode_append_append {before after : String}
    (blankBefore : ∀ c ∈ before.toList, Text.isBlank c = true)
    (blankAfter : ∀ c ∈ after.toList, Text.isBlank c = true) (text : String) :
    decode (before ++ text ++ after) = decode text := by
  rw [decode, decode, String.toList_append, String.toList_append,
    Text.trim_append_append blankBefore blankAfter]

/-- The octets of a recording begin those of no other. -/
theorem eq_of_write_prefix {recording other : Recording} (fits : recording.Fits)
    (otherFits : other.Fits) (begins : recording.write <+: other.write) : recording = other := by
  obtain ⟨rest, whole⟩ := begins
  have short := read_write_append fits rest
  have long := read_write_append otherFits []
  rw [List.append_nil, ← whole, short] at long
  exact congrArg Prod.fst (Except.ok.inj long)

/-- A recording is read back from its text, whatever blanks stand around it, and from its
octets, whatever follows them; hence the octets of one recording never begin those of
another. -/
theorem decode_surrounded_encode {recording : Recording} (fits : recording.Fits) :
    (∀ before after : String, (∀ c ∈ before.toList, Text.isBlank c = true) →
      (∀ c ∈ after.toList, Text.isBlank c = true) →
      decode (before ++ recording.encode ++ after) = .ok recording) ∧
    (∀ rest, read (recording.write ++ rest) = .ok (recording, rest)) ∧
    ∀ other : Recording, other.Fits → recording.write <+: other.write → recording = other := by
  refine ⟨?_, read_write_append fits, ?_⟩
  · intro before after blankBefore blankAfter
    rw [decode_append_append blankBefore blankAfter]
    exact decode_encode fits
  · intro other otherFits begins
    exact eq_of_write_prefix fits otherFits begins

/-- A recording with the largest and the lowest number, octets and a text of more than one
octet for each character. -/
def farEnds : Recording :=
  [.u64 0xFFFFFFFFFFFFFFFF, .i64 (-0x8000000000000000), .bytes [0xFF, 0], .str "é✓", .u16 251,
    .bool true]

theorem farEnds_fits : farEnds.Fits := by
  constructor
  · decide
  · decide +kernel

/-- Its text is read back between blanks, its octets before others. -/
theorem decode_surrounded_farEnds :
    decode ("\r\n " ++ farEnds.encode ++ "\t\u2003") = .ok farEnds ∧
      read (farEnds.write ++ [0xFB, 0]) = .ok (farEnds, [0xFB, 0]) := by
  obtain ⟨surrounded, followed, _⟩ := decode_surrounded_encode farEnds_fits
  have front : ("\r\n ".toList.all Text.isBlank) = true := by decide +kernel
  have back : ("\t\u2003".toList.all Text.isBlank) = true := by decide +kernel
  exact ⟨surrounded "\r\n " "\t\u2003" (List.all_eq_true.mp front) (List.all_eq_true.mp back),
    followed _⟩

end Recording

end FuzzHarness
