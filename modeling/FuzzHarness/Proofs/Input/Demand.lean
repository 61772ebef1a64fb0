import FuzzHarness.Proofs.Input.Cursor
import FuzzHarness.Proofs.Input.Number

/-!
# What a call takes and what it makes of it

How many octets a call takes, and from which end, is decided by its arguments and by how many
are left. The answer is a function of the octets taken, in the order of taking. So a cursor
whose positions are in order can be looked at as the octets between them: a call takes some
of them away, and nothing else about the input matters to it.
-/

namespace FuzzHarness

/-- Octets asked for at one end, in the order of taking. -/
inductive Demand where
  | front (count : Nat)
  | back (count : Nat)
  deriving DecidableEq, Repr

/-- The octets that are taken of those that are left: all of them if there are too few. -/
def Demand.of (rest : Bytes) : Demand → Bytes
  | .front count => rest.take count
  | .back count => rest.reverse.take count

/-- What is taken from the back are the last octets, in reverse order. -/
theorem Demand.reverse_of_back (count : Nat) (rest : Bytes) :
    ((Demand.back count).of rest).reverse = rest.drop (rest.length - count) := by
  rw [of, List.take_reverse, List.reverse_reverse]

namespace Call

/-- What a call asks for, given how many octets are left. An inverted range has no size, so
that nothing is asked for it. -/
def demand (left : Nat) : Call → Demand
  | .bool | .u8 => .back 1
  | .u16 => .back 2
  | .u32 | .i32 => .back 4
  | .u64 | .i64 => .back 8
  | .u64In min max => .back (Bytes.widthOf (max.toNat - min.toNat))
  | .i64In min max => .back (Bytes.widthOf (max.toInt - min.toInt).toNat)
  | .bytes most | .string most => .front most
  | .restBytes | .restString => .front left
  | .remaining => .front 0

/-- The octets that a call takes of those that are left. -/
def taken (request : Call) (rest : Bytes) : Bytes :=
  (request.demand rest.length).of rest

/-- How a call is answered that took such octets of so many. -/
def answer (left : Nat) (octets : Bytes) : Call → Except CallFault Value
  | .bool => .ok (.bool (Bytes.bigEndian octets &&& 1 == 1))
  | .u8 => .ok (.u8 (Bytes.bigEndian octets).toUInt8)
  | .u16 => .ok (.u16 (Bytes.bigEndian octets).toUInt16)
  | .u32 => .ok (.u32 (Bytes.bigEndian octets).toUInt32)
  | .u64 => .ok (.u64 (Bytes.bigEndian octets))
  | .i32 => .ok (.i32 (Bytes.bigEndian octets).toUInt32.toInt32)
  | .i64 => .ok (.i64 (Bytes.bigEndian octets).toInt64)
  | .u64In min max =>
    if max < min then .error (.invertedUnsigned min max)
    else .ok (.u64 (min + Cursor.foldInto (max - min) (Bytes.bigEndian octets)))
  | .i64In min max =>
    if max < min then .error (.invertedSigned min max)
    else .ok (.i64 (min +
      (Cursor.foldInto (max.toUInt64 - min.toUInt64) (Bytes.bigEndian octets)).toInt64))
  | .bytes _ | .restBytes => .ok (.bytes octets)
  | .string _ | .restString => .ok (.str (Text.Utf8.lossy octets))
  | .remaining => .ok (.remaining (UInt64.ofNat left))

/-- An inverted range asks for nothing. -/
theorem demand_of_inverted (request : Call) (inverted : request.isOrdered = false)
    (left : Nat) : request.demand left = .back 0 := by
  cases request with
  | u64In min max =>
      have below : max.toNat < min.toNat :=
        UInt64.lt_iff_toNat_lt.mp (UInt64.not_le.mp (of_decide_eq_false inverted))
      rw [demand, Nat.sub_eq_zero_of_le below.le, Bytes.widthOf_zero]
  | i64In min max =>
      have below : max.toInt < min.toInt :=
        Int64.lt_iff_toInt_lt.mp (Int64.not_le.mp (of_decide_eq_false inverted))
      rw [demand, Int.toNat_of_nonpos (by omega), Bytes.widthOf_zero]
  | _ => cases inverted

/-- A call takes no more octets from the back than a word has room for. -/
theorem le_of_demand_back (request : Call) (left : Nat) {width : Nat}
    (asks : request.demand left = .back width) : width ≤ 8 := by
  cases request with
  | u64In min max =>
      obtain rfl := Demand.back.inj asks
      apply Bytes.widthOf_le_iff.mpr
      exact Nat.lt_of_le_of_lt (Nat.sub_le _ _) max.toNat_lt
  | i64In min max =>
      obtain rfl := Demand.back.inj asks
      apply Bytes.widthOf_le_iff.mpr
      have := max.toInt_lt
      have := min.le_toInt
      omega
  | bytes | restBytes | string | restString | remaining => cases asks
  | _ =>
      obtain rfl := Demand.back.inj asks
      decide

end Call

namespace Cursor

/-- The positions of a cursor are in order, within its input. -/
structure InOrder (cursor : Cursor) : Prop where
  front_le_back : cursor.front ≤ cursor.back
  back_le_length : cursor.back ≤ cursor.data.length

/-- The octets that are not taken yet. -/
def rest (cursor : Cursor) : Bytes :=
  (cursor.data.drop cursor.front).take cursor.left

variable {cursor : Cursor}

theorem InOrder.length_rest (ordered : cursor.InOrder) : cursor.rest.length = cursor.left := by
  have := ordered.back_le_length
  rw [rest, List.length_take, List.length_drop, left]
  omega

/-- The cursor after so many octets were taken from either end. -/
def moved (cursor : Cursor) (front back : Nat) : Cursor :=
  { cursor with front := cursor.front + front, back := cursor.back - back }

theorem moved_zero (cursor : Cursor) : cursor.moved 0 0 = cursor := rfl

theorem takeFront_eq (most : Nat) (cursor : Cursor) :
    cursor.takeFront most = (cursor.rest.take most, cursor.moved (min most cursor.left) 0) := by
  rw [takeFront, rest, List.take_take]
  rfl

/-- As long as octets are left, the last of them can be taken. -/
theorem InOrder.exists_takeBack (ordered : cursor.InOrder) (between : cursor.front < cursor.back) :
    ∃ octet, cursor.takeBack = some (octet, cursor.moved 0 1) ∧
      cursor.rest = (cursor.moved 0 1).rest ++ [octet] := by
  have inside : cursor.back - 1 < cursor.data.length := by
    have := ordered.back_le_length
    omega
  refine ⟨cursor.data[cursor.back - 1], ?_, ?_⟩
  · rw [takeBack, if_neg (by omega), List.getElem?_eq_getElem inside]
    rfl
  · have count : cursor.left = (cursor.moved 0 1).left + 1 := by
      simp only [left, moved]
      omega
    have last : (cursor.data.drop cursor.front)[(cursor.moved 0 1).left]? =
        some cursor.data[cursor.back - 1] := by
      rw [List.getElem?_drop, ← List.getElem?_eq_getElem inside]
      congr 1
      simp only [left, moved]
      omega
    rw [rest, count, List.take_add_one, last]
    rfl

theorem takeBack_of_empty (empty : cursor.back = cursor.front) : cursor.takeBack = none :=
  if_pos empty

theorem InOrder.moved_back (ordered : cursor.InOrder) {count : Nat} (enough : count ≤ cursor.left) :
    (cursor.moved 0 count).InOrder := by
  obtain ⟨_, _⟩ := ordered
  constructor <;> simp only [moved, left] at * <;> omega

/-- Octets drawn from the back are the last ones, in reverse order. -/
theorem InOrder.drawBack_eq (ordered : cursor.InOrder) (count : Nat) :
    cursor.drawBack count =
      (cursor.rest.reverse.take count, cursor.moved 0 (min count cursor.left)) := by
  induction count generalizing cursor with
  | zero => rfl
  | succ count ih =>
      rcases Nat.eq_or_lt_of_le ordered.front_le_back with empty | between
      · have none : cursor.left = 0 := by
          rw [left, empty, Nat.sub_self]
        rw [drawBack, takeBack_of_empty empty.symm, rest, none]
        rfl
      · obtain ⟨octet, took, split⟩ := ordered.exists_takeBack between
        have one : 1 ≤ cursor.left := Nat.sub_pos_of_lt between
        have further := ih (ordered.moved_back one)
        have positions : (cursor.moved 0 1).moved 0 (min count (cursor.moved 0 1).left) =
            cursor.moved 0 (min (count + 1) cursor.left) := by
          simp only [moved, left, Cursor.mk.injEq, true_and]
          omega
        rw [drawBack, took, split, List.reverse_concat, List.take_succ_cons, ← positions]
        dsimp only
        rw [further]

theorem InOrder.drawWord_eq (ordered : cursor.InOrder) (width : Nat) :
    cursor.drawWord width =
      (Bytes.bigEndian (cursor.rest.reverse.take width),
        cursor.moved 0 (min width cursor.left)) := by
  rw [drawWord, ordered.drawBack_eq]

theorem InOrder.drawOffset_eq (ordered : cursor.InOrder) (range : UInt64) :
    cursor.drawOffset range =
      (foldInto range (Bytes.bigEndian (cursor.rest.reverse.take (Bytes.widthOf range.toNat))),
        cursor.moved 0 (min (Bytes.widthOf range.toNat) cursor.left)) := by
  rw [drawOffset, octetsOf_eq, ordered.drawWord_eq]
  rfl

def moves (cursor : Cursor) : Demand → Cursor
  | .front count => cursor.moved (min count cursor.left) 0
  | .back count => cursor.moved 0 (min count cursor.left)

/-- A call takes what it asks for, as far as there is any, and its answer is made of that. -/
theorem InOrder.call_eq (ordered : cursor.InOrder) (request : Call) :
    cursor.call request =
      (request.answer cursor.left (request.taken cursor.rest),
        cursor.moves (request.demand cursor.left)) := by
  have length := ordered.length_rest
  rw [Call.taken, length]
  cases request with
  | bool | u8 | u16 | u32 | u64 | i32 | i64 =>
      rw [call, ordered.drawWord_eq]
      rfl
  | u64In min max =>
      rw [call]
      split
      · next inverted =>
        have nothing := Call.demand_of_inverted (.u64In min max)
          (decide_eq_false (UInt64.not_le.mpr inverted)) cursor.left
        rw [nothing, moves, Nat.zero_min, Call.answer, if_pos inverted, moved_zero]
      · next ordinary =>
        have size := UInt64.toNat_sub_of_le _ _ (UInt64.not_lt.mp ordinary)
        rw [ordered.drawOffset_eq, Call.answer, if_neg ordinary, size]
        rfl
  | i64In min max =>
      rw [call]
      split
      · next inverted =>
        have nothing := Call.demand_of_inverted (.i64In min max)
          (decide_eq_false (Int64.not_le.mpr inverted)) cursor.left
        rw [nothing, moves, Nat.zero_min, Call.answer, if_pos inverted, moved_zero]
      · next ordinary =>
        have size := toNat_difference (Int64.not_lt.mp ordinary)
        rw [ordered.drawOffset_eq, Call.answer, if_neg ordinary, Call.demand, ← size,
          Int.toNat_natCast]
        rfl
  | bytes most | string most =>
      rw [call, takeFront_eq]
      rfl
  | restBytes | restString =>
      rw [call, takeFront_eq]
      rfl
  | remaining =>
      rw [call, Call.demand, moves, Nat.zero_min, moved_zero]
      rfl

end Cursor

end FuzzHarness
