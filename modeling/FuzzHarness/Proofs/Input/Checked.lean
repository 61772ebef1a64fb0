import FuzzHarness.Proofs.Input.Reading

/-!
# Calls with every step checked

A call indexes its input, subtracts positions and computes with words that have a width. Here
it is carried out one octet at a time, with numbers in place of words wherever something is
computed, and it stops if an index or a slice is out of bounds, a difference is negative, a
divisor is zero or a number does not fit the word that holds it. A cursor whose positions are
in order never stops, and is answered as it is without the checks.
-/

namespace FuzzHarness

/-- A number as an unsigned word, if it fits. -/
def unsigned? (n : Int) : Option UInt64 :=
  if 0 ≤ n ∧ n.toNat < UInt64.size then some (UInt64.ofNat n.toNat) else none

/-- A number as a signed word, if it fits. -/
def signed? (n : Int) : Option Int64 :=
  if Int64.minValue.toInt ≤ n ∧ n ≤ Int64.maxValue.toInt then some (Int64.ofInt n) else none

/-- The difference of two positions, unless it is negative. -/
def minus? (n m : Nat) : Option Nat :=
  if m ≤ n then some (n - m) else none

/-- The octets between two positions, if these are in order and within bounds. -/
def slice? (octets : Bytes) (start stop : Nat) : Option Bytes :=
  if start ≤ stop ∧ stop ≤ octets.length then some ((octets.take stop).drop start) else none

theorem unsigned?_toNat (word : UInt64) : unsigned? word.toNat = some word := by
  have fits : (0 : Int) ≤ word.toNat ∧ (word.toNat : Int).toNat < UInt64.size :=
    ⟨Int.natCast_nonneg _, word.toNat_lt⟩
  rw [unsigned?, if_pos fits, Int.toNat_natCast, UInt64.ofNat_toNat]

theorem signed?_toInt (word : Int64) : signed? word.toInt = some word := by
  rw [signed?, if_pos ⟨word.minValue_le_toInt, word.toInt_le⟩, Int64.ofInt_toInt]

theorem minus?_of_le {n m : Nat} (le : m ≤ n) : minus? n m = some (n - m) :=
  if_pos le

namespace Cursor

/-- Take the last octet, if one is left. -/
def checkedTakeBack (cursor : Cursor) : Option (Option UInt8 × Cursor) :=
  if cursor.back = cursor.front then some (none, cursor)
  else do
    let back ← minus? cursor.back 1
    let octet ← cursor.data[back]?
    some (some octet, { cursor with back := back })

/-- Make an octet the lowest one of a word that keeps all its bits. -/
def checkedPush (word : UInt64) (octet : UInt8) : Option UInt64 :=
  unsigned? (256 * word.toNat + octet.toNat : Nat)

/-- Push up to so many octets into a word. -/
def checkedWord : Nat → UInt64 → Cursor → Option (UInt64 × Cursor)
  | 0, word, cursor => some (word, cursor)
  | rounds + 1, word, cursor => do
    let (taken, cursor) ← cursor.checkedTakeBack
    match taken with
    | none => some (word, cursor)
    | some octet =>
      let word ← checkedPush word octet
      checkedWord rounds word cursor

/-- Push octets into a word as long as the range has bits at the place that was reached. -/
def checkedFold (range : UInt64) (place : Nat) (word : UInt64) (cursor : Cursor) :
    Option (UInt64 × Cursor) :=
  if place < 64 ∧ 0 < range >>> UInt64.ofNat place then do
    let (taken, cursor) ← cursor.checkedTakeBack
    match taken with
    | none => some (word, cursor)
    | some octet =>
      let word ← checkedPush word octet
      checkedFold range (place + 8) word cursor
  else some (word, cursor)
termination_by 64 - place

/-- Draw a word for a range and fold it into the range. -/
def checkedOffset (range : UInt64) (cursor : Cursor) : Option (UInt64 × Cursor) := do
  let (word, cursor) ← cursor.checkedFold range 0 0
  if range = 0xFFFFFFFFFFFFFFFF then some (word, cursor)
  else do
    let size ← unsigned? (range.toNat + 1)
    if size = 0 then none else some (word % size, cursor)

/-- Take up to so many octets from the front. -/
def checkedFront (most : Nat) (cursor : Cursor) : Option (Bytes × Cursor) := do
  let left ← minus? cursor.back cursor.front
  let length := min most left
  let octets ← slice? cursor.data cursor.front (cursor.front + length)
  some (octets, { cursor with front := cursor.front + length })

def checkedCall : Call → Cursor → Option (Except CallFault Value × Cursor)
  | .bool, cursor => do
    let (word, cursor) ← cursor.checkedWord 1 0
    some (.ok (.bool (word &&& 1 == 1)), cursor)
  | .u8, cursor => do
    let (word, cursor) ← cursor.checkedWord 1 0
    some (.ok (.u8 word.toUInt8), cursor)
  | .u16, cursor => do
    let (word, cursor) ← cursor.checkedWord 2 0
    some (.ok (.u16 word.toUInt16), cursor)
  | .u32, cursor => do
    let (word, cursor) ← cursor.checkedWord 4 0
    some (.ok (.u32 word.toUInt32), cursor)
  | .u64, cursor => do
    let (word, cursor) ← cursor.checkedWord 8 0
    some (.ok (.u64 word), cursor)
  | .i32, cursor => do
    let (word, cursor) ← cursor.checkedWord 4 0
    some (.ok (.i32 word.toUInt32.toInt32), cursor)
  | .i64, cursor => do
    let (word, cursor) ← cursor.checkedWord 8 0
    some (.ok (.i64 word.toInt64), cursor)
  | .u64In min max, cursor =>
    if max < min then some (.error (.invertedUnsigned min max), cursor)
    else do
      let range ← unsigned? (max.toNat - min.toNat)
      let (offset, cursor) ← cursor.checkedOffset range
      let value ← unsigned? (min.toNat + offset.toNat)
      some (.ok (.u64 value), cursor)
  | .i64In min max, cursor =>
    if max < min then some (.error (.invertedSigned min max), cursor)
    else do
      let range ← unsigned? (max.toInt - min.toInt)
      let (offset, cursor) ← cursor.checkedOffset range
      let value ← signed? (min.toInt + offset.toNat)
      some (.ok (.i64 value), cursor)
  | .bytes most, cursor => do
    let (octets, cursor) ← cursor.checkedFront most
    some (.ok (.bytes octets), cursor)
  | .restBytes, cursor => do
    let left ← minus? cursor.back cursor.front
    let (octets, cursor) ← cursor.checkedFront left
    some (.ok (.bytes octets), cursor)
  | .string most, cursor => do
    let (octets, cursor) ← cursor.checkedFront most
    some (.ok (.str (Text.Utf8.lossy octets)), cursor)
  | .restString, cursor => do
    let left ← minus? cursor.back cursor.front
    let (octets, cursor) ← cursor.checkedFront left
    some (.ok (.str (Text.Utf8.lossy octets)), cursor)
  | .remaining, cursor => do
    let left ← minus? cursor.back cursor.front
    some (.ok (.remaining (UInt64.ofNat left)), cursor)

variable {cursor : Cursor}

theorem checkedTakeBack_of_empty (empty : cursor.back = cursor.front) :
    cursor.checkedTakeBack = some (none, cursor) :=
  if_pos empty

theorem checkedTakeBack_of_some {octet : UInt8} {after : Cursor}
    (took : cursor.takeBack = some (octet, after)) (positive : 0 < cursor.back) :
    cursor.checkedTakeBack = some (some octet, after) := by
  rw [takeBack] at took
  split at took
  · cases took
  · next occupied =>
    obtain ⟨_, found, same⟩ := Option.map_eq_some_iff.mp took
    cases same
    rw [checkedTakeBack, if_neg occupied, minus?_of_le positive]
    change (cursor.data[cursor.back - 1]?).bind _ = _
    rw [found]
    rfl

/-- A word folded from fewer than eight octets has room for one more. -/
theorem checkedPush_bigEndian {octets : Bytes} (short : octets.length < 8) (octet : UInt8) :
    checkedPush (Bytes.bigEndian octets) octet =
      some (Bytes.bigEndian (octets ++ [octet])) := by
  have grown : (octets ++ [octet]).length ≤ 8 := by
    rw [List.length_append, List.length_singleton]
    omega
  rw [checkedPush, Bytes.toNat_bigEndian short.le, ← Bytes.number_concat,
    ← Bytes.toNat_bigEndian grown, unsigned?_toNat]

theorem checkedWord_of_empty (empty : cursor.back = cursor.front) (rounds : Nat) (word : UInt64) :
    cursor.checkedWord rounds word = some (word, cursor) := by
  cases rounds with
  | zero => rfl
  | succ rounds =>
      rw [checkedWord, checkedTakeBack_of_empty empty]
      rfl

theorem checkedWord_of_some {octet : UInt8} {after : Cursor}
    (took : cursor.checkedTakeBack = some (some octet, after)) (rounds : Nat) (word : UInt64) :
    cursor.checkedWord (rounds + 1) word =
      (checkedPush word octet).bind fun word => after.checkedWord rounds word := by
  simp only [checkedWord, took, Option.bind_eq_bind, Option.bind_some]

/-- Octets are pushed one by one as they are folded all at once. -/
theorem InOrder.checkedWord_append (ordered : cursor.InOrder) {rounds : Nat} {octets : Bytes}
    (room : octets.length + rounds ≤ 8) :
    cursor.checkedWord rounds (Bytes.bigEndian octets) =
      some (Bytes.bigEndian (octets ++ (cursor.drawBack rounds).1),
        (cursor.drawBack rounds).2) := by
  induction rounds generalizing cursor octets with
  | zero =>
      rw [drawBack, List.append_nil]
      rfl
  | succ rounds ih =>
      rcases Nat.eq_or_lt_of_le ordered.front_le_back with empty | between
      · rw [checkedWord_of_empty empty.symm, drawBack, takeBack_of_empty empty.symm,
          List.append_nil]
      · obtain ⟨octet, took, _⟩ := ordered.exists_takeBack between
        have one : 1 ≤ cursor.left := Nat.sub_pos_of_lt between
        have further : checkedWord rounds (Bytes.bigEndian (octets ++ [octet])) (cursor.moved 0 1) =
            _ := ih (ordered.moved_back one) (by simp; omega)
        rw [List.append_assoc, List.singleton_append] at further
        have pushed : checkedPush (Bytes.bigEndian octets) octet =
            some (Bytes.bigEndian (octets ++ [octet])) := checkedPush_bigEndian (by omega) octet
        rw [checkedWord_of_some (checkedTakeBack_of_some took (by omega)), pushed,
          Option.bind_some, further, drawBack, took]

theorem InOrder.checkedWord_eq (ordered : cursor.InOrder) {width : Nat} (narrow : width ≤ 8) :
    cursor.checkedWord width 0 = some (cursor.drawWord width) := by
  have room : ([] : Bytes).length + width ≤ 8 := by simpa using narrow
  exact ordered.checkedWord_append room

/-- The range has bits at just as many places as octets are drawn for it. -/
theorem bits_at_iff (range : UInt64) (place : Nat) :
    8 * place < 64 ∧ 0 < range >>> UInt64.ofNat (8 * place) ↔ place < octetsOf range := by
  have short : octetsOf range ≤ 8 := by
    rw [octetsOf_eq]
    exact Bytes.widthOf_le_iff.mpr range.toNat_lt
  rcases Nat.lt_or_ge place 8 with below | above
  · rw [shiftRight_pos_iff range below, ← octetsOf_eq]
    exact and_iff_right (by omega)
  · constructor <;> intro <;> omega

/-- Pushing octets for a range takes as many rounds as octets are drawn for it. -/
theorem checkedFold_eq (range : UInt64) {rounds place : Nat}
    (reached : place + rounds = octetsOf range) (word : UInt64) (cursor : Cursor) :
    checkedFold range (8 * place) word cursor = checkedWord rounds word cursor := by
  induction rounds generalizing place word cursor with
  | zero =>
      have done : ¬(8 * place < 64 ∧ 0 < range >>> UInt64.ofNat (8 * place)) := by
        rw [bits_at_iff]
        omega
      rw [checkedFold, if_neg done, checkedWord]
  | succ rounds ih =>
      have onward : 8 * place < 64 ∧ 0 < range >>> UInt64.ofNat (8 * place) := by
        rw [bits_at_iff]
        omega
      have next (word : UInt64) (cursor : Cursor) :
          checkedFold range (8 * (place + 1)) word cursor = checkedWord rounds word cursor :=
        ih (by omega) word cursor
      rw [checkedFold, if_pos onward, checkedWord, ← Nat.mul_succ]
      simp only [Nat.succ_eq_add_one, next]

theorem InOrder.checkedOffset_eq (ordered : cursor.InOrder) (range : UInt64) :
    cursor.checkedOffset range = some (cursor.drawOffset range) := by
  have narrow : octetsOf range ≤ 8 := by
    rw [octetsOf_eq]
    exact Bytes.widthOf_le_iff.mpr range.toNat_lt
  have folded : cursor.checkedFold range 0 0 = some (cursor.drawWord (octetsOf range)) := by
    rw [← ordered.checkedWord_eq narrow]
    exact checkedFold_eq range (Nat.zero_add _) 0 cursor
  rw [checkedOffset, folded, drawOffset]
  simp only [Option.bind_eq_bind, Option.bind_some]
  split
  · rfl
  · next partly =>
    have below : range.toNat ≠ 2 ^ 64 - 1 := fun equal => partly (UInt64.toNat_inj.mp equal)
    have := range.toNat_lt
    have size : ((range + 1).toNat : Int) = range.toNat + 1 := by
      rw [UInt64.toNat_add]
      exact congrArg _ (Nat.mod_eq_of_lt (by change range.toNat + 1 < 2 ^ 64; omega))
    have positive : range + 1 ≠ 0 := by
      intro zero
      rw [zero] at size
      change ((0 : Nat) : Int) = _ at size
      omega
    rw [← size, unsigned?_toNat, Option.bind_some, if_neg positive]

theorem InOrder.checkedFront_eq (ordered : cursor.InOrder) (most : Nat) :
    cursor.checkedFront most = some (cursor.takeFront most) := by
  obtain ⟨low, high⟩ := ordered
  have left_eq : cursor.left = cursor.back - cursor.front := rfl
  have within : cursor.front ≤ cursor.front + min most cursor.left ∧
      cursor.front + min most cursor.left ≤ cursor.data.length := by omega
  rw [checkedFront, minus?_of_le low]
  simp only [Option.bind_eq_bind, Option.bind_some]
  rw [← left_eq, slice?, if_pos within, List.drop_take, Nat.add_sub_cancel_left]
  rfl

/-- Every step of a call stays within its bounds, and the words it computes with are the
numbers that they stand for. -/
theorem InOrder.checkedCall_eq (ordered : cursor.InOrder) (request : Call) :
    cursor.checkedCall request = some (cursor.call request) := by
  cases request with
  | bool | u8 | u16 | u32 | u64 | i32 | i64 =>
      rw [checkedCall, ordered.checkedWord_eq (by decide)]
      rfl
  | u64In min max =>
      rw [checkedCall, call]
      split
      · rfl
      · next ordinary =>
        have ends := UInt64.not_lt.mp ordinary
        have range : ((max - min).toNat : Int) = max.toNat - min.toNat := by
          rw [UInt64.toNat_sub_of_le _ _ ends]
          exact Int.ofNat_sub (UInt64.le_iff_toNat_le.mp ends)
        have value := toNat_add_offset ends (drawOffset_le (max - min) cursor)
        rw [← range, unsigned?_toNat]
        simp only [Option.bind_eq_bind, Option.bind_some, ordered.checkedOffset_eq]
        rw [← Nat.cast_add, ← value, unsigned?_toNat]
        rfl
  | i64In min max =>
      rw [checkedCall, call]
      split
      · rfl
      · next ordinary =>
        have ends := Int64.not_lt.mp ordinary
        have value := toInt_add_offset ends (drawOffset_le (max.toUInt64 - min.toUInt64) cursor)
        rw [← toNat_difference ends, unsigned?_toNat]
        simp only [Option.bind_eq_bind, Option.bind_some, ordered.checkedOffset_eq]
        rw [← value, signed?_toInt]
        rfl
  | bytes most | string most =>
      rw [checkedCall, ordered.checkedFront_eq]
      rfl
  | restBytes | restString =>
      rw [checkedCall, minus?_of_le ordered.front_le_back]
      change (cursor.checkedFront cursor.left).bind _ = _
      rw [ordered.checkedFront_eq]
      rfl
  | remaining =>
      rw [checkedCall, minus?_of_le ordered.front_le_back]
      rfl

end Cursor

end FuzzHarness
