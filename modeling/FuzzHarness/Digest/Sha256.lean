import FuzzHarness.Digest.Block

/-!
# SHA-256

The digest behind the identity of a finding: eight words, changed by sixty-four
rounds for every block of the message.
-/

namespace FuzzHarness.Digest.Sha256

structure Registers where
  a : UInt32
  b : UInt32
  c : UInt32
  d : UInt32
  e : UInt32
  f : UInt32
  g : UInt32
  h : UInt32
  deriving DecidableEq, Repr

/-- The additive constants, one for each round. -/
def additives : List UInt32 := [
  0x428a2f98, 0x71374491, 0xb5c0fbcf, 0xe9b5dba5, 0x3956c25b, 0x59f111f1, 0x923f82a4, 0xab1c5ed5,
  0xd807aa98, 0x12835b01, 0x243185be, 0x550c7dc3, 0x72be5d74, 0x80deb1fe, 0x9bdc06a7, 0xc19bf174,
  0xe49b69c1, 0xefbe4786, 0x0fc19dc6, 0x240ca1cc, 0x2de92c6f, 0x4a7484aa, 0x5cb0a9dc, 0x76f988da,
  0x983e5152, 0xa831c66d, 0xb00327c8, 0xbf597fc7, 0xc6e00bf3, 0xd5a79147, 0x06ca6351, 0x14292967,
  0x27b70a85, 0x2e1b2138, 0x4d2c6dfc, 0x53380d13, 0x650a7354, 0x766a0abb, 0x81c2c92e, 0x92722c85,
  0xa2bfe8a1, 0xa81a664b, 0xc24b8b70, 0xc76c51a3, 0xd192e819, 0xd6990624, 0xf40e3585, 0x106aa070,
  0x19a4c116, 0x1e376c08, 0x2748774c, 0x34b0bcb5, 0x391c0cb3, 0x4ed8aa4a, 0x5b9cca4f, 0x682e6ff3,
  0x748f82ee, 0x78a5636f, 0x84c87814, 0x8cc70208, 0x90befffa, 0xa4506ceb, 0xbef9a3f7, 0xc67178f2]

/-- The next word of the schedule, the words before it being given latest first. -/
def nextWord (latest : List UInt32) : UInt32 :=
  let late := latest.getD 1 0
  let early := latest.getD 14 0
  (rotateRight late 17 ^^^ rotateRight late 19 ^^^ (late >>> 10)) + latest.getD 6 0 +
    (rotateRight early 7 ^^^ rotateRight early 18 ^^^ (early >>> 3)) + latest.getD 15 0

/-- The words of all rounds: those of the block and forty-eight derived ones. -/
def schedule (block : List UInt32) : List UInt32 :=
  ((List.range 48).foldl (fun latest _ => nextWord latest :: latest) block.reverse).reverse

/-- One round, given the sum of its constant and its word. -/
def round (r : Registers) (term : UInt32) : Registers :=
  let high := rotateRight r.e 6 ^^^ rotateRight r.e 11 ^^^ rotateRight r.e 25
  let choice := (r.e &&& r.f) ^^^ (~~~r.e &&& r.g)
  let first := r.h + high + choice + term
  let low := rotateRight r.a 2 ^^^ rotateRight r.a 13 ^^^ rotateRight r.a 22
  let majority := (r.a &&& r.b) ^^^ (r.a &&& r.c) ^^^ (r.b &&& r.c)
  ⟨first + (low + majority), r.a, r.b, r.c, r.d + first, r.e, r.f, r.g⟩

/-- All rounds on a block, added to the chaining value. -/
def compress (r : Registers) (block : List UInt32) : Registers :=
  let terms := List.zipWith (· + ·) additives (schedule block)
  let next := terms.foldl round r
  ⟨r.a + next.a, r.b + next.b, r.c + next.c, r.d + next.d, r.e + next.e, r.f + next.f,
    r.g + next.g, r.h + next.h⟩

def start : Registers :=
  ⟨0x6a09e667, 0xbb67ae85, 0x3c6ef372, 0xa54ff53a,
    0x510e527f, 0x9b05688c, 0x1f83d9ab, 0x5be0cd19⟩

def digest (message : Bytes) : Bytes :=
  let r := (blocks (Bytes.bigEndianOctets 8) wordOfOctets message).foldl compress start
  [r.a, r.b, r.c, r.d, r.e, r.f, r.g, r.h].flatMap fun word =>
    Bytes.bigEndianOctets 4 word.toNat

end FuzzHarness.Digest.Sha256
