import FuzzHarness.Input.Call

/-!
# The input cursor

Raw input becomes values. Integers are taken from the back and byte strings from
the front, so that a change to one kind of data disturbs the other as little as
possible. What is not taken yet lies between the two positions. Exhausted input
yields zero or an empty value.
-/

namespace FuzzHarness

/-- Input with the positions up to which it is taken from either end. -/
structure Cursor where
  data : Bytes
  front : Nat
  back : Nat
  deriving DecidableEq, Repr

namespace Cursor

/-- A cursor without input. -/
def empty : Cursor :=
  ⟨[], 0, 0⟩

def reset (cursor : Cursor) : Cursor :=
  { cursor with front := 0, back := cursor.data.length }

def feed (cursor : Cursor) (data : Bytes) : Cursor :=
  { cursor with data := data }.reset

def ofBytes (data : Bytes) : Cursor :=
  empty.feed data

def left (cursor : Cursor) : Nat :=
  cursor.back - cursor.front

/-- Take the last octet, if one is left. -/
def takeBack (cursor : Cursor) : Option (UInt8 × Cursor) :=
  if cursor.back = cursor.front then none
  else (cursor.data[cursor.back - 1]?).map fun octet =>
    (octet, { cursor with back := cursor.back - 1 })

/-- Take up to so many octets from the back, in the order of taking. -/
def drawBack : Nat → Cursor → Bytes × Cursor
  | 0, cursor => ([], cursor)
  | count + 1, cursor =>
    match cursor.takeBack with
    | none => ([], cursor)
    | some (octet, cursor) =>
      let (octets, cursor) := drawBack count cursor
      (octet :: octets, cursor)

/-- Take up to so many octets from the front. -/
def takeFront (most : Nat) (cursor : Cursor) : Bytes × Cursor :=
  let length := min most cursor.left
  ((cursor.data.drop cursor.front).take length, { cursor with front := cursor.front + length })

/-- Draw a word of up to so many octets; a short read uses what is left. -/
def drawWord (width : Nat) (cursor : Cursor) : UInt64 × Cursor :=
  let (octets, cursor) := cursor.drawBack width
  (Bytes.bigEndian octets, cursor)

/-- How many octets it takes to write a word; none for zero. -/
def octetsOf (word : UInt64) : Nat :=
  (List.range 8).countP fun place => 0 < word >>> UInt64.ofNat (8 * place)

/-- Draw just enough octets to cover a range and fold them into it. The full range
needs no folding, and its size would not fit a word. -/
def drawOffset (range : UInt64) (cursor : Cursor) : UInt64 × Cursor :=
  let (word, cursor) := cursor.drawWord (octetsOf range)
  (if range = 0xFFFFFFFFFFFFFFFF then word else word % (range + 1), cursor)

def call : Call → Cursor → Except CallFault Value × Cursor
  | .bool, cursor =>
    let (word, cursor) := cursor.drawWord 1
    (.ok (.bool (word &&& 1 == 1)), cursor)
  | .u8, cursor =>
    let (word, cursor) := cursor.drawWord 1
    (.ok (.u8 word.toUInt8), cursor)
  | .u16, cursor =>
    let (word, cursor) := cursor.drawWord 2
    (.ok (.u16 word.toUInt16), cursor)
  | .u32, cursor =>
    let (word, cursor) := cursor.drawWord 4
    (.ok (.u32 word.toUInt32), cursor)
  | .u64, cursor =>
    let (word, cursor) := cursor.drawWord 8
    (.ok (.u64 word), cursor)
  | .i32, cursor =>
    let (word, cursor) := cursor.drawWord 4
    (.ok (.i32 word.toUInt32.toInt32), cursor)
  | .i64, cursor =>
    let (word, cursor) := cursor.drawWord 8
    (.ok (.i64 word.toInt64), cursor)
  | .u64In min max, cursor =>
    if max < min then (.error (.invertedUnsigned min max), cursor)
    else
      let (offset, cursor) := cursor.drawOffset (max - min)
      (.ok (.u64 (min + offset)), cursor)
  | .i64In min max, cursor =>
    if max < min then (.error (.invertedSigned min max), cursor)
    else
      let (offset, cursor) := cursor.drawOffset (max.toUInt64 - min.toUInt64)
      (.ok (.i64 (min + offset.toInt64)), cursor)
  | .bytes most, cursor =>
    let (octets, cursor) := cursor.takeFront most
    (.ok (.bytes octets), cursor)
  | .restBytes, cursor =>
    let (octets, cursor) := cursor.takeFront cursor.left
    (.ok (.bytes octets), cursor)
  | .string most, cursor =>
    let (octets, cursor) := cursor.takeFront most
    (.ok (.str (Text.Utf8.lossy octets)), cursor)
  | .restString, cursor =>
    let (octets, cursor) := cursor.takeFront cursor.left
    (.ok (.str (Text.Utf8.lossy octets)), cursor)
  | .remaining, cursor => (.ok (.remaining (UInt64.ofNat cursor.left)), cursor)

instance : Provider Cursor := ⟨call⟩

end Cursor

end FuzzHarness
