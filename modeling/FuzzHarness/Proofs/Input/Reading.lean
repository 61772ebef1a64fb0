import FuzzHarness.Proofs.Input.Demand

/-!
# Answers as numbers

Words are bounded; the numbers that octets write are not. What a call makes of the octets
that it takes is said here with numbers alone, and with the octets themselves and their text
where no number is asked for. Since no call takes more octets than its word has room for, and
an offset does not leave its range, the words of the answer are these numbers.
-/

namespace FuzzHarness

namespace Call

/-- A value is what a call makes of the octets that it took of so many. Signed words are in
two's complement. -/
def Reads (left : Nat) (octets : Bytes) : Call → Value → Prop
  | .bool, .bool value => value = (Bytes.number octets).testBit 0
  | .u8, .u8 value => value.toNat = Bytes.number octets
  | .u16, .u16 value => value.toNat = Bytes.number octets
  | .u32, .u32 value => value.toNat = Bytes.number octets
  | .u64, .u64 value => value.toNat = Bytes.number octets
  | .i32, .i32 value => value.toInt = (Bytes.number octets : Int).bmod (2 ^ 32)
  | .i64, .i64 value => value.toInt = (Bytes.number octets : Int).bmod (2 ^ 64)
  | .u64In min max, .u64 value =>
    value.toNat = min.toNat + Bytes.number octets % (max.toNat - min.toNat + 1)
  | .i64In min max, .i64 value =>
    value.toInt = min.toInt + (Bytes.number octets : Int) % (max.toInt - min.toInt + 1)
  | .bytes _, .bytes value | .restBytes, .bytes value => value = octets
  | .string _, .str value | .restString, .str value => value = Text.Utf8.lossy octets
  | .remaining, .remaining value => value = UInt64.ofNat left
  | _, _ => False

/-- The lowest bit of a word. -/
theorem and_one_beq_one (word : UInt64) : (word &&& 1 == 1) = word.toNat.testBit 0 := by
  rw [Nat.testBit_zero, Bool.eq_iff_iff, beq_iff_eq, decide_eq_true_iff, ← UInt64.toNat_inj,
    UInt64.toNat_and]
  change word.toNat &&& 1 = 1 ↔ word.toNat % 2 = 1
  rw [Nat.and_one_is_mod]

/-- A signed word is the two's complement of the number with the same bits. -/
theorem toInt_toInt32 (word : UInt32) : word.toInt32.toInt = (word.toNat : Int).bmod (2 ^ 32) :=
  BitVec.toInt_eq_toNat_bmod word.toBitVec

theorem toInt_toInt64 (word : UInt64) : word.toInt64.toInt = (word.toNat : Int).bmod (2 ^ 64) :=
  BitVec.toInt_eq_toNat_bmod word.toBitVec

/-- The word folded from octets drawn from the back, and a bound on it. -/
theorem toNat_bigEndian_drawn {width : Nat} (narrow : width ≤ 8) (rest : Bytes) :
    (Bytes.bigEndian (rest.reverse.take width)).toNat = Bytes.number (rest.reverse.take width) ∧
      Bytes.number (rest.reverse.take width) < 256 ^ width :=
  ⟨Bytes.toNat_bigEndian (Nat.le_trans (List.length_take_le _ _) narrow),
    Bytes.number_lt_of_length_le (List.length_take_le _ _)⟩

/-- A narrower word is wide enough for the octets that were drawn for it. -/
theorem toNat_bigEndian_mod {width : Nat} (narrow : width ≤ 8) (rest : Bytes) :
    (Bytes.bigEndian (rest.reverse.take width)).toNat % 256 ^ width =
      Bytes.number (rest.reverse.take width) := by
  obtain ⟨word, bound⟩ := toNat_bigEndian_drawn narrow rest
  rw [word, Nat.mod_eq_of_lt bound]

/-- A call whose range is in order is answered with what it reads. -/
theorem exists_reads {request : Call} (ordered : request.isOrdered = true) (rest : Bytes) :
    ∃ value, request.answer rest.length (request.taken rest) = .ok value ∧
      request.Reads rest.length (request.taken rest) value := by
  cases request with
  | bool =>
      refine ⟨_, rfl, ?_⟩
      rw [taken, demand, Demand.of, Reads, and_one_beq_one,
        (toNat_bigEndian_drawn (by decide) rest).1]
  | u8 =>
      refine ⟨_, rfl, ?_⟩
      rw [taken, demand, Demand.of, Reads, UInt64.toNat_toUInt8]
      exact toNat_bigEndian_mod (by decide) rest
  | u16 =>
      refine ⟨_, rfl, ?_⟩
      rw [taken, demand, Demand.of, Reads, UInt64.toNat_toUInt16]
      exact toNat_bigEndian_mod (by decide) rest
  | u32 =>
      refine ⟨_, rfl, ?_⟩
      rw [taken, demand, Demand.of, Reads, UInt64.toNat_toUInt32]
      exact toNat_bigEndian_mod (by decide) rest
  | u64 =>
      refine ⟨_, rfl, ?_⟩
      rw [taken, demand, Demand.of, Reads, (toNat_bigEndian_drawn (by decide) rest).1]
  | i32 =>
      refine ⟨_, rfl, ?_⟩
      rw [taken, demand, Demand.of, Reads, toInt_toInt32, UInt64.toNat_toUInt32]
      exact congrArg (fun n : Nat => (n : Int).bmod (2 ^ 32)) (toNat_bigEndian_mod (by decide) rest)
  | i64 =>
      refine ⟨_, rfl, ?_⟩
      rw [taken, demand, Demand.of, Reads, toInt_toInt64,
        (toNat_bigEndian_drawn (by decide) rest).1]
  | u64In min max =>
      have ends : min ≤ max := of_decide_eq_true ordered
      have word := (toNat_bigEndian_drawn (le_of_demand_back (.u64In min max) 0 rfl) rest).1
      refine ⟨_, if_neg (UInt64.not_lt.mpr ends), ?_⟩
      rw [taken, demand, Demand.of, Reads, Cursor.toNat_add_offset ends (Cursor.foldInto_le _ _),
        Cursor.toNat_foldInto, word, UInt64.toNat_sub_of_le _ _ ends]
  | i64In min max =>
      have ends : min ≤ max := of_decide_eq_true ordered
      have word := (toNat_bigEndian_drawn (le_of_demand_back (.i64In min max) 0 rfl) rest).1
      refine ⟨_, if_neg (Int64.not_lt.mpr ends), ?_⟩
      rw [taken, demand, Demand.of, Reads, Cursor.toInt_add_offset ends (Cursor.foldInto_le _ _),
        Cursor.toNat_foldInto, word, ← Cursor.toNat_difference ends]
      norm_cast
  | bytes most | restBytes | string most | restString | remaining =>
      exact ⟨_, rfl, rfl⟩

end Call

end FuzzHarness
