import FuzzHarness.Input.Cursor
import FuzzHarness.Proofs.Recording.Codec

/-!
# What a cursor answers

A cursor refuses a call only for an inverted range. Every other call yields a value that
a replay accepts for the same call: an offset is folded into its range, and lenient
decoding at most triples a size. No call changes the input itself.
-/

namespace FuzzHarness

/-- Whether the ends of the range that a call asks for, if any, are in order. -/
def Call.isOrdered : Call → Bool
  | .u64In min max => min ≤ max
  | .i64In min max => min ≤ max
  | _ => true

namespace Cursor

@[simp] theorem drawBack_data (count : Nat) (cursor : Cursor) :
    (cursor.drawBack count).2.data = cursor.data := by
  induction count generalizing cursor with
  | zero => rfl
  | succ count ih =>
      rw [drawBack]
      split
      · rfl
      · next octet rest taken =>
        have same : rest.data = cursor.data := by
          rw [takeBack] at taken
          split at taken
          · cases taken
          · obtain ⟨_, _, equal⟩ := Option.map_eq_some_iff.mp taken
            cases equal
            rfl
        exact (ih rest).trans same

@[simp] theorem drawWord_data (width : Nat) (cursor : Cursor) :
    (cursor.drawWord width).2.data = cursor.data :=
  drawBack_data width cursor

@[simp] theorem drawOffset_data (range : UInt64) (cursor : Cursor) :
    (cursor.drawOffset range).2.data = cursor.data :=
  drawBack_data _ cursor

@[simp] theorem takeFront_data (most : Nat) (cursor : Cursor) :
    (cursor.takeFront most).2.data = cursor.data := rfl

theorem length_takeFront_le (most : Nat) (cursor : Cursor) :
    (cursor.takeFront most).1.length ≤ most := by
  rw [takeFront, List.length_take]
  omega

/-- A word folded into a range. -/
def foldInto (range word : UInt64) : UInt64 :=
  if range = 0xFFFFFFFFFFFFFFFF then word else word % (range + 1)

/-- Folding takes the remainder, also for the full range, whose size is no word. -/
theorem toNat_foldInto (range word : UInt64) :
    (foldInto range word).toNat = word.toNat % (range.toNat + 1) := by
  rw [foldInto]
  split
  · next full =>
    subst full
    exact (Nat.mod_eq_of_lt word.toNat_lt).symm
  · next partly =>
    have below : range.toNat ≠ 2 ^ 64 - 1 := fun equal => partly (UInt64.toNat_inj.mp equal)
    have := range.toNat_lt
    have size : (range + 1).toNat = range.toNat + 1 := by
      rw [UInt64.toNat_add]
      exact Nat.mod_eq_of_lt (by change range.toNat + 1 < 2 ^ 64; omega)
    rw [UInt64.toNat_mod, size]

theorem foldInto_le (range word : UInt64) : foldInto range word ≤ range := by
  rw [UInt64.le_iff_toNat_le, toNat_foldInto]
  exact Nat.le_of_lt_succ (Nat.mod_lt _ (Nat.succ_pos _))

/-- An offset is folded into its range. -/
theorem drawOffset_le (range : UInt64) (cursor : Cursor) :
    (cursor.drawOffset range).1 ≤ range :=
  foldInto_le range (cursor.drawWord (octetsOf range)).1

/-- An offset within a range is added to the lower end without overflow. -/
theorem toNat_add_offset {min max offset : UInt64} (ordered : min ≤ max)
    (within : offset ≤ max - min) : (min + offset).toNat = min.toNat + offset.toNat := by
  have := max.toNat_lt
  rw [UInt64.le_iff_toNat_le, UInt64.toNat_sub_of_le _ _ ordered] at within
  rw [UInt64.le_iff_toNat_le] at ordered
  rw [UInt64.toNat_add]
  exact Nat.mod_eq_of_lt (by omega)

/-- An offset within a range leads from the lower end to a word within the range. -/
theorem add_offset_mem {min max offset : UInt64} (ordered : min ≤ max)
    (within : offset ≤ max - min) : min ≤ min + offset ∧ min + offset ≤ max := by
  have sum := toNat_add_offset ordered within
  rw [UInt64.le_iff_toNat_le, UInt64.toNat_sub_of_le _ _ ordered] at within
  rw [UInt64.le_iff_toNat_le] at ordered
  rw [UInt64.le_iff_toNat_le, UInt64.le_iff_toNat_le, sum]
  omega

/-- A signed word by the unsigned word with the same bits. -/
private theorem toInt_eq (x : Int64) :
    x.toInt = if 2 * x.toUInt64.toNat < UInt64.size then (x.toUInt64.toNat : Int)
      else (x.toUInt64.toNat : Int) - UInt64.size :=
  BitVec.toInt_eq_toNat_cond x.toBitVec

/-- The difference of signed words, taken without sign, is exact. -/
theorem toNat_difference {min max : Int64} (ordered : min ≤ max) :
    ((max.toUInt64 - min.toUInt64).toNat : Int) = max.toInt - min.toInt := by
  have size : UInt64.size = 18446744073709551616 := rfl
  have low := toInt_eq min
  have high := toInt_eq max
  rw [size] at low high
  rw [Int64.le_iff_toInt_le] at ordered
  rw [UInt64.toNat_sub]
  have := min.toUInt64.toNat_lt
  have := max.toUInt64.toNat_lt
  split at low <;> split at high <;> omega

/-- An offset within a signed range is added to the lower end without overflow. -/
theorem toInt_add_offset {min max : Int64} {offset : UInt64} (ordered : min ≤ max)
    (within : offset ≤ max.toUInt64 - min.toUInt64) :
    (min + offset.toInt64).toInt = min.toInt + offset.toNat := by
  have size : UInt64.size = 18446744073709551616 := rfl
  have low := toInt_eq min
  have high := toInt_eq max
  have sum := toInt_eq (min + offset.toInt64)
  rw [size] at low high sum
  rw [Int64.toUInt64_add, UInt64.toUInt64_toInt64, UInt64.toNat_add] at sum
  have difference := toNat_difference ordered
  rw [UInt64.le_iff_toNat_le] at within
  rw [sum]
  have := min.toUInt64.toNat_lt
  have := max.toUInt64.toNat_lt
  split at low <;> split at high <;> split <;> omega

/-- The same for signed words, whose difference is taken without sign. -/
theorem add_signed_offset_mem {min max : Int64} {offset : UInt64} (ordered : min ≤ max)
    (within : offset ≤ max.toUInt64 - min.toUInt64) :
    min ≤ min + offset.toInt64 ∧ min + offset.toInt64 ≤ max := by
  have sum := toInt_add_offset ordered within
  have difference := toNat_difference ordered
  rw [UInt64.le_iff_toNat_le] at within
  rw [Int64.le_iff_toInt_le, Int64.le_iff_toInt_le, sum]
  omega

/-- Calls move the positions and leave the input alone. -/
theorem call_data (request : Call) (cursor : Cursor) :
    (cursor.call request).2.data = cursor.data := by
  cases request with
  | u64In min max =>
      rw [call]
      split
      · rfl
      · exact drawOffset_data _ cursor
  | i64In min max =>
      rw [call]
      split
      · rfl
      · exact drawOffset_data _ cursor
  | bytes most => exact takeFront_data most cursor
  | restBytes => exact takeFront_data _ cursor
  | string most => exact takeFront_data most cursor
  | restString => exact takeFront_data _ cursor
  | remaining => rfl
  | bool | u8 => exact drawWord_data 1 cursor
  | u16 => exact drawWord_data 2 cursor
  | u32 | i32 => exact drawWord_data 4 cursor
  | u64 | i64 => exact drawWord_data 8 cursor

/-- A call whose range is in order yields a value that answers it. Only a string has to
be small enough for a machine, as the bound for strings is. -/
theorem call_accepted {request : Call} (ordered : request.isOrdered = true)
    (cursor : Cursor) :
    ∃ value, (cursor.call request).1 = .ok value ∧
      (value.size < UInt64.size → request.accepts value = true) := by
  cases request with
  | u64In min max =>
      have ordered : min ≤ max := of_decide_eq_true ordered
      rw [call, if_neg (UInt64.not_lt.mpr ordered)]
      refine ⟨_, rfl, ?_⟩
      intro _
      obtain ⟨low, high⟩ := add_offset_mem ordered (drawOffset_le (max - min) cursor)
      rw [Call.accepts, Bool.and_eq_true]
      exact ⟨decide_eq_true low, decide_eq_true high⟩
  | i64In min max =>
      have ordered : min ≤ max := of_decide_eq_true ordered
      rw [call, if_neg (Int64.not_lt.mpr ordered)]
      refine ⟨_, rfl, ?_⟩
      intro _
      obtain ⟨low, high⟩ := add_signed_offset_mem ordered
        (drawOffset_le (max.toUInt64 - min.toUInt64) cursor)
      rw [Call.accepts, Bool.and_eq_true]
      exact ⟨decide_eq_true low, decide_eq_true high⟩
  | bytes most =>
      exact ⟨_, rfl, fun _ => decide_eq_true (cursor.length_takeFront_le most)⟩
  | string most =>
      refine ⟨_, rfl, fun small => decide_eq_true ?_⟩
      have tripled := Text.Utf8.utf8ByteSize_lossy_le (cursor.takeFront most).1
      have short := cursor.length_takeFront_le most
      exact Nat.le_min.mpr
        ⟨Nat.le_trans tripled (Nat.mul_le_mul_left 3 short), Nat.le_sub_one_of_lt small⟩
  | _ => exact ⟨_, rfl, fun _ => rfl⟩

/-- A call that yields a value does not ask for an inverted range. -/
theorem isOrdered_of_answered {request : Call} {cursor : Cursor} {value : Value}
    (answered : (cursor.call request).1 = .ok value) : request.isOrdered = true := by
  cases request with
  | u64In min max =>
      rw [call] at answered
      split at answered
      · cases answered
      · next ordered => exact decide_eq_true (UInt64.not_lt.mp ordered)
  | i64In min max =>
      rw [call] at answered
      split at answered
      · cases answered
      · next ordered => exact decide_eq_true (Int64.not_lt.mp ordered)
  | _ => rfl

/-- The panic of a call names the range that it asks for. -/
theorem fault_of_refused {request : Call} {cursor : Cursor} {fault : CallFault}
    (refused : (cursor.call request).1 = .error fault) :
    (∃ min max, request = .u64In min max ∧ fault = .invertedUnsigned min max) ∨
      ∃ min max, request = .i64In min max ∧ fault = .invertedSigned min max := by
  cases request with
  | u64In min max =>
      rw [call] at refused
      split at refused
      · exact .inl ⟨min, max, rfl, (Except.error.inj refused).symm⟩
      · cases refused
  | i64In min max =>
      rw [call] at refused
      split at refused
      · exact .inr ⟨min, max, rfl, (Except.error.inj refused).symm⟩
      · cases refused
  | _ => cases refused

/-- Started afresh, a cursor hands out its whole input from the front. -/
theorem takeFront_reset (cursor : Cursor) :
    (cursor.reset.takeFront cursor.reset.left).1 = cursor.data := by
  rw [takeFront, Nat.min_self]
  exact List.take_length

end Cursor

end FuzzHarness
