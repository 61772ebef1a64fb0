import FuzzHarness.Bytes

/-!
# Blocks of a hashed message

Both digests of this library work on blocks of sixteen words of thirty-two bits. A
message is completed by a one bit, by zeros, and by its length in bits in eight
octets, which the digests write in different byte orders.
-/

namespace FuzzHarness.Digest

/-- A message completed to a multiple of sixty-four octets, given the octets that
tell its length. -/
def complete (lengthOctets : Nat → Bytes) (message : Bytes) : Bytes :=
  let zeros := (119 - message.length % 64) % 64
  message ++ 0x80 :: (List.replicate zeros 0 ++ lengthOctets (message.length * 8))

/-- The words of a byte string, four octets each, by a given reading. -/
def wordsOf (word : UInt8 → UInt8 → UInt8 → UInt8 → UInt32) : Bytes → List UInt32
  | a :: b :: c :: d :: rest => word a b c d :: wordsOf word rest
  | _ => []

/-- Groups of sixteen words, `count` of them. -/
def blocksOf : Nat → List UInt32 → List (List UInt32)
  | 0, _ => []
  | count + 1, words => words.take 16 :: blocksOf count (words.drop 16)

def blocks (lengthOctets : Nat → Bytes) (word : UInt8 → UInt8 → UInt8 → UInt8 → UInt32)
    (message : Bytes) : List (List UInt32) :=
  let octets := complete lengthOctets message
  blocksOf (octets.length / 64) (wordsOf word octets)

/-- The word whose octets are given highest first. -/
def wordOfOctets (a b c d : UInt8) : UInt32 :=
  (a.toUInt32 <<< 24) ||| (b.toUInt32 <<< 16) ||| (c.toUInt32 <<< 8) ||| d.toUInt32

/-- Rotate a word towards its high end. -/
def rotateLeft (word : UInt32) (places : UInt32) : UInt32 :=
  (word <<< places) ||| (word >>> (32 - places))

/-- Rotate a word towards its low end. -/
def rotateRight (word : UInt32) (places : UInt32) : UInt32 :=
  (word >>> places) ||| (word <<< (32 - places))

end FuzzHarness.Digest
