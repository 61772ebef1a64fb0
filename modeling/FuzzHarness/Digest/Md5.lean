import FuzzHarness.Digest.Block

/-!
# MD5

The digest that names crashing inputs: four words, changed by sixty-four steps for
every block of the message.
-/

namespace FuzzHarness.Digest.Md5

structure Registers where
  a : UInt32
  b : UInt32
  c : UInt32
  d : UInt32
  deriving DecidableEq, Repr

/-- The additive constants, one for each step. -/
def additives : List UInt32 := [
  0xd76aa478, 0xe8c7b756, 0x242070db, 0xc1bdceee, 0xf57c0faf, 0x4787c62a, 0xa8304613, 0xfd469501,
  0x698098d8, 0x8b44f7af, 0xffff5bb1, 0x895cd7be, 0x6b901122, 0xfd987193, 0xa679438e, 0x49b40821,
  0xf61e2562, 0xc040b340, 0x265e5a51, 0xe9b6c7aa, 0xd62f105d, 0x02441453, 0xd8a1e681, 0xe7d3fbc8,
  0x21e1cde6, 0xc33707d6, 0xf4d50d87, 0x455a14ed, 0xa9e3e905, 0xfcefa3f8, 0x676f02d9, 0x8d2a4c8a,
  0xfffa3942, 0x8771f681, 0x6d9d6122, 0xfde5380c, 0xa4beea44, 0x4bdecfa9, 0xf6bb4b60, 0xbebfbc70,
  0x289b7ec6, 0xeaa127fa, 0xd4ef3085, 0x04881d05, 0xd9d4d039, 0xe6db99e5, 0x1fa27cf8, 0xc4ac5665,
  0xf4292244, 0x432aff97, 0xab9423a7, 0xfc93a039, 0x655b59c3, 0x8f0ccc92, 0xffeff47d, 0x85845dd1,
  0x6fa87e4f, 0xfe2ce6e0, 0xa3014314, 0x4e0811a1, 0xf7537e82, 0xbd3af235, 0x2ad7d2bb, 0xeb86d391]

/-- The rotations of the four steps that repeat within each round. -/
def rotations : List (List UInt32) :=
  [[7, 12, 17, 22], [5, 9, 14, 20], [4, 11, 16, 23], [6, 10, 15, 21]]

/-- The word of the block that a step uses. -/
def wordIndex (step : Nat) : Nat :=
  match step / 16 with
  | 0 => step
  | 1 => (5 * step + 1) % 16
  | 2 => (3 * step + 5) % 16
  | _ => 7 * step % 16

def mix (step : Nat) (b c d : UInt32) : UInt32 :=
  match step / 16 with
  | 0 => (b &&& c) ||| (~~~b &&& d)
  | 1 => (d &&& b) ||| (~~~d &&& c)
  | 2 => b ^^^ c ^^^ d
  | _ => c ^^^ (b ||| ~~~d)

def step (block : List UInt32) (r : Registers) (index : Nat) : Registers :=
  let sum := r.a + mix index r.b r.c r.d + additives.getD index 0 +
    block.getD (wordIndex index) 0
  let places := (rotations.getD (index / 16) []).getD (index % 4) 0
  ⟨r.d, r.b + rotateLeft sum places, r.b, r.c⟩

/-- All steps on a block, added to the chaining value. -/
def compress (r : Registers) (block : List UInt32) : Registers :=
  let next := (List.range 64).foldl (step block) r
  ⟨r.a + next.a, r.b + next.b, r.c + next.c, r.d + next.d⟩

def start : Registers :=
  ⟨0x67452301, 0xefcdab89, 0x98badcfe, 0x10325476⟩

def digest (message : Bytes) : Bytes :=
  let word := fun a b c d => wordOfOctets d c b a
  let r := (blocks (Bytes.littleEndian 8) word message).foldl compress start
  [r.a, r.b, r.c, r.d].flatMap fun word => Bytes.littleEndian 4 word.toNat

end FuzzHarness.Digest.Md5
