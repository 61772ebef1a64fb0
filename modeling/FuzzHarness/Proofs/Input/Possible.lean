import FuzzHarness.Proofs.Input.Ledger
import FuzzHarness.Proofs.Text.Lenient

/-!
# Values that some input yields

An input is as long as memory allows. A word is yielded to a call by octets that write its
number, bytes by themselves, a text by the octets that it can be decoded from, and a count by
an input of that length. So a value of the type and within the range that a call asks for is
possible as long as it stands for no more octets than the input may have, and for no more than
the call may take.
-/

namespace FuzzHarness

/-- The size of the largest input: sizes of what is in memory are signed words. -/
def largestInput : Nat := 2 ^ 63 - 1

/-- How many octets of input a value stands for at least. Octets that are missing from a word
count as zero, so that it stands for none. -/
def Value.extent : Value → Nat
  | .bytes octets => octets.length
  | .str text => Text.Utf8.leastOctets text.toList
  | .remaining count => count.toNat
  | _ => 0

namespace Call

/-- A call is answered with this value on some input. -/
def Possible (request : Call) (value : Value) : Prop :=
  ∃ data : Bytes, data.length ≤ largestInput ∧ ((Cursor.ofBytes data).call request).1 = .ok value

/-- At the start of an input, all of it is left. -/
theorem call_ofBytes (request : Call) (data : Bytes) :
    ((Cursor.ofBytes data).call request).1 = request.answer data.length (request.taken data) := by
  rw [(Cursor.Keeps.start data).call_eq]
  rfl

/-- A word is folded from octets of its number, which a call takes that asks for enough. -/
theorem exists_bigEndian_taken {request : Call} {width : Nat}
    (asks : ∀ left, request.demand left = .back width) {word : UInt64}
    (small : word.toNat < 256 ^ width) :
    ∃ data : Bytes, data.length ≤ largestInput ∧ Bytes.bigEndian (request.taken data) = word := by
  obtain ⟨octets, length, writes⟩ := Bytes.exists_number_eq word.toNat
  have short : octets.length ≤ width := length ▸ Bytes.widthOf_le_iff.mpr small
  have narrow : width ≤ 8 := request.le_of_demand_back 0 (asks 0)
  have little : 8 ≤ largestInput := by decide
  refine ⟨octets.reverse, by rw [List.length_reverse]; omega, ?_⟩
  rw [taken, asks, Demand.of, List.reverse_reverse, List.take_of_length_le short,
    ← UInt64.toNat_inj, Bytes.toNat_bigEndian (by omega), writes]

/-- What a call makes of a word is possible if its octets are asked for. -/
theorem possible_of_word {request : Call} {width : Nat}
    (asks : ∀ left, request.demand left = .back width) (word : UInt64)
    (small : word.toNat < 256 ^ width) {value : Value}
    (answers : ∀ left octets, Bytes.bigEndian octets = word →
      request.answer left octets = .ok value) : request.Possible value := by
  obtain ⟨data, short, folded⟩ := exists_bigEndian_taken asks small
  exact ⟨data, short, (request.call_ofBytes data).trans (answers _ _ folded)⟩

theorem possible_bool (value : Bool) : Call.bool.Possible (.bool value) := by
  apply possible_of_word (fun _ => rfl) (if value then 1 else 0)
  · cases value <;> decide
  · intro left octets folded
    rw [answer, folded]
    cases value <;> rfl

theorem possible_u8 (value : UInt8) : Call.u8.Possible (.u8 value) := by
  apply possible_of_word (fun _ => rfl) value.toUInt64 (by simpa using value.toNat_lt)
  intro left octets folded
  rw [answer, folded, UInt8.toUInt8_toUInt64]

theorem possible_u16 (value : UInt16) : Call.u16.Possible (.u16 value) := by
  apply possible_of_word (fun _ => rfl) value.toUInt64 (by simpa using value.toNat_lt)
  intro left octets folded
  rw [answer, folded, UInt16.toUInt16_toUInt64]

theorem possible_u32 (value : UInt32) : Call.u32.Possible (.u32 value) := by
  apply possible_of_word (fun _ => rfl) value.toUInt64 (by simpa using value.toNat_lt)
  intro left octets folded
  rw [answer, folded, UInt32.toUInt32_toUInt64]

theorem possible_u64 (value : UInt64) : Call.u64.Possible (.u64 value) := by
  apply possible_of_word (fun _ => rfl) value value.toNat_lt
  intro left octets folded
  rw [answer, folded]

theorem possible_i32 (value : Int32) : Call.i32.Possible (.i32 value) := by
  apply possible_of_word (fun _ => rfl) value.toUInt32.toUInt64
    (by simpa using value.toUInt32.toNat_lt)
  intro left octets folded
  rw [answer, folded, UInt32.toUInt32_toUInt64, Int32.toInt32_toUInt32]

theorem possible_i64 (value : Int64) : Call.i64.Possible (.i64 value) := by
  apply possible_of_word (fun _ => rfl) value.toUInt64 value.toUInt64.toNat_lt
  intro left octets folded
  rw [answer, folded, Int64.toInt64_toUInt64]

/-- An offset within a range is folded into itself. -/
theorem foldInto_of_le {range offset : UInt64} (within : offset ≤ range) :
    Cursor.foldInto range offset = offset := by
  rw [← UInt64.toNat_inj, Cursor.toNat_foldInto]
  exact Nat.mod_eq_of_lt (Nat.lt_succ_of_le (UInt64.le_iff_toNat_le.mp within))

theorem possible_u64In {min max value : UInt64} (low : min ≤ value) (high : value ≤ max) :
    (Call.u64In min max).Possible (.u64 value) := by
  have ordered : min ≤ max := UInt64.le_trans low high
  have offset := UInt64.toNat_sub_of_le _ _ low
  have range := UInt64.toNat_sub_of_le _ _ ordered
  have within : value - min ≤ max - min := by
    rw [UInt64.le_iff_toNat_le, offset, range]
    exact Nat.sub_le_sub_right (UInt64.le_iff_toNat_le.mp high) _
  apply possible_of_word (fun _ => rfl) (value - min)
  · apply Bytes.widthOf_le_iff.mp
    rw [← range]
    exact Bytes.widthOf_le_of_le (UInt64.le_iff_toNat_le.mp within)
  · intro left octets folded
    have reached : min + (value - min) = value := by
      rw [← UInt64.toNat_inj, Cursor.toNat_add_offset ordered within, offset]
      exact Nat.add_sub_of_le (UInt64.le_iff_toNat_le.mp low)
    rw [answer, if_neg (UInt64.not_lt.mpr ordered), folded, foldInto_of_le within, reached]

theorem possible_i64In {min max value : Int64} (low : min ≤ value) (high : value ≤ max) :
    (Call.i64In min max).Possible (.i64 value) := by
  have ordered : min ≤ max := Int64.le_trans low high
  have offset := Cursor.toNat_difference low
  have range := Cursor.toNat_difference ordered
  have within : value.toUInt64 - min.toUInt64 ≤ max.toUInt64 - min.toUInt64 := by
    rw [UInt64.le_iff_toNat_le]
    rw [Int64.le_iff_toInt_le] at high
    omega
  apply possible_of_word (fun _ => rfl) (value.toUInt64 - min.toUInt64)
  · apply Bytes.widthOf_le_iff.mp
    rw [← range]
    exact Bytes.widthOf_le_of_le (UInt64.le_iff_toNat_le.mp within)
  · intro left octets folded
    have reached : min + (value.toUInt64 - min.toUInt64).toInt64 = value := by
      rw [← Int64.toInt_inj, Cursor.toInt_add_offset ordered within, offset]
      omega
    rw [answer, if_neg (Int64.not_lt.mpr ordered), folded, foldInto_of_le within, reached]

theorem possible_iff_answer {request : Call} {value : Value} :
    request.Possible value ↔ ∃ data : Bytes, data.length ≤ largestInput ∧
      request.answer data.length (request.taken data) = .ok value := by
  simp only [Possible, call_ofBytes]

/-- What is taken from the front of inputs are the beginnings that are short enough. -/
theorem exists_take_iff (most : Nat) (P : Bytes → Prop) :
    (∃ data : Bytes, data.length ≤ largestInput ∧ P (data.take most)) ↔
      ∃ octets : Bytes, octets.length ≤ min most largestInput ∧ P octets := by
  constructor
  · rintro ⟨data, short, holds⟩
    refine ⟨data.take most, ?_, holds⟩
    rw [List.length_take]
    omega
  · rintro ⟨octets, short, holds⟩
    obtain ⟨asked, fits⟩ := Nat.le_min.mp short
    exact ⟨octets, fits, by rwa [List.take_of_length_le asked]⟩

theorem possible_bytes_iff {most : Nat} {octets : Bytes} :
    (Call.bytes most).Possible (.bytes octets) ↔ octets.length ≤ min most largestInput := by
  rw [possible_iff_answer]
  simp only [answer, taken, demand, Demand.of, Except.ok.injEq, Value.bytes.injEq]
  refine (exists_take_iff most (· = octets)).trans ?_
  simp only [exists_eq_right]

theorem possible_restBytes_iff {octets : Bytes} :
    Call.restBytes.Possible (.bytes octets) ↔ octets.length ≤ largestInput := by
  rw [possible_iff_answer]
  simp [answer, taken, demand, Demand.of]

theorem possible_string_iff {most : Nat} {text : String} :
    (Call.string most).Possible (.str text) ↔
      Text.Utf8.leastOctets text.toList ≤ min most largestInput := by
  rw [possible_iff_answer, ← Text.Utf8.exists_lossy_iff]
  simp only [answer, taken, demand, Demand.of, Except.ok.injEq, Value.str.injEq]
  exact exists_take_iff most fun octets => Text.Utf8.lossy octets = text

theorem possible_restString_iff {text : String} :
    Call.restString.Possible (.str text) ↔
      Text.Utf8.leastOctets text.toList ≤ largestInput := by
  rw [possible_iff_answer, ← Text.Utf8.exists_lossy_iff]
  simp [answer, taken, demand, Demand.of]

theorem possible_remaining_iff {count : UInt64} :
    Call.remaining.Possible (.remaining count) ↔ count.toNat ≤ largestInput := by
  have words : largestInput < UInt64.size := by decide
  rw [possible_iff_answer]
  simp only [answer, Except.ok.injEq, Value.remaining.injEq]
  constructor
  · rintro ⟨data, short, rfl⟩
    rwa [UInt64.toNat_ofNat_of_lt' (Nat.lt_of_le_of_lt short words)]
  · intro fits
    refine ⟨List.replicate count.toNat 0, ?_, ?_⟩
    · rwa [List.length_replicate]
    · rw [List.length_replicate, UInt64.ofNat_toNat]

/-- Every word that a replay serves for a call is possible, and it stands for no octets. -/
theorem possible_word_of_accepts {request : Call} {width : Nat}
    (asks : ∀ left, request.demand left = .back width) {value : Value}
    (accepts : request.accepts value = true) : request.Possible value ∧ value.extent = 0 := by
  cases request with
  | bool =>
      cases value with
      | bool value => exact ⟨possible_bool value, rfl⟩
      | _ => cases accepts
  | u8 =>
      cases value with
      | u8 value => exact ⟨possible_u8 value, rfl⟩
      | _ => cases accepts
  | u16 =>
      cases value with
      | u16 value => exact ⟨possible_u16 value, rfl⟩
      | _ => cases accepts
  | u32 =>
      cases value with
      | u32 value => exact ⟨possible_u32 value, rfl⟩
      | _ => cases accepts
  | u64 =>
      cases value with
      | u64 value => exact ⟨possible_u64 value, rfl⟩
      | _ => cases accepts
  | i32 =>
      cases value with
      | i32 value => exact ⟨possible_i32 value, rfl⟩
      | _ => cases accepts
  | i64 =>
      cases value with
      | i64 value => exact ⟨possible_i64 value, rfl⟩
      | _ => cases accepts
  | u64In min max =>
      cases value with
      | u64 value =>
          obtain ⟨low, high⟩ := Bool.and_eq_true_iff.mp accepts
          exact ⟨possible_u64In (of_decide_eq_true low) (of_decide_eq_true high), rfl⟩
      | _ => cases accepts
  | i64In min max =>
      cases value with
      | i64 value =>
          obtain ⟨low, high⟩ := Bool.and_eq_true_iff.mp accepts
          exact ⟨possible_i64In (of_decide_eq_true low) (of_decide_eq_true high), rfl⟩
      | _ => cases accepts
  | bytes | restBytes | string | restString | remaining => cases asks 0

/-- What is asked for by its length or as a whole has no second bound. -/
private theorem iff_and_of_ne {request : Call} {n : Nat} (other : ∀ most, request ≠ .string most) :
    n ≤ largestInput ↔ n ≤ largestInput ∧ ∀ most, request = .string most → n ≤ most :=
  ⟨fun fits => ⟨fits, fun most same => absurd same (other most)⟩, And.left⟩

/-- A value that a replay serves for a call is possible just if it stands for no more octets
than an input can have, and, if a string was asked for, for no more than may be taken for it. -/
theorem possible_iff_of_accepts {request : Call} {value : Value}
    (accepts : request.accepts value = true) :
    request.Possible value ↔ value.extent ≤ largestInput ∧
      ∀ most, request = .string most → value.extent ≤ most := by
  by_cases word : ∃ width, ∀ left, request.demand left = .back width
  · obtain ⟨width, asks⟩ := word
    obtain ⟨possible, nothing⟩ := possible_word_of_accepts asks accepts
    rw [nothing]
    exact ⟨fun _ => ⟨Nat.zero_le _, fun _ _ => Nat.zero_le _⟩, fun _ => possible⟩
  · cases request with
    | bytes most =>
        cases value with
        | bytes octets =>
            have asked : octets.length ≤ most := of_decide_eq_true accepts
            rw [possible_bytes_iff, Nat.le_min, and_iff_right asked]
            exact iff_and_of_ne nofun
        | _ => cases accepts
    | restBytes =>
        cases value with
        | bytes octets => exact possible_restBytes_iff.trans (iff_and_of_ne nofun)
        | _ => cases accepts
    | string most =>
        cases value with
        | str text =>
            rw [possible_string_iff, Nat.le_min, and_comm]
            refine and_congr_right fun _ => ⟨?_, fun asked => asked most rfl⟩
            rintro asked _ ⟨⟩
            exact asked
        | _ => cases accepts
    | restString =>
        cases value with
        | str text => exact possible_restString_iff.trans (iff_and_of_ne nofun)
        | _ => cases accepts
    | remaining =>
        cases value with
        | remaining count => exact possible_remaining_iff.trans (iff_and_of_ne nofun)
        | _ => cases accepts
    | _ => exact absurd ⟨_, fun _ => rfl⟩ word

/-- A possible value is accepted by a replay if its size is a word. -/
theorem accepts_of_possible {request : Call} {value : Value} (possible : request.Possible value)
    (fits : value.size < UInt64.size) : request.accepts value = true := by
  obtain ⟨data, _, answered⟩ := possible
  obtain ⟨found, same, accepted⟩ :=
    Cursor.call_accepted (Cursor.isOrdered_of_answered answered) (Cursor.ofBytes data)
  obtain rfl := Except.ok.inj (same.symm.trans answered)
  exact accepted fits

end Call

end FuzzHarness
