/-!
# Byte strings

Inputs, payloads and hashed text are finite lists of octets. Words are read and
written in both byte orders; a read folds however many octets it is given, so a
short read yields the value of the octets that are there.
-/

namespace FuzzHarness

/-- A finite byte string. -/
abbrev Bytes := List UInt8

namespace Bytes

/-- Fold octets into a word, each new octet becoming the lowest one. Octets
beyond the eighth push the oldest ones out. -/
def bigEndian (octets : Bytes) : UInt64 :=
  octets.foldl (fun word octet => (word <<< 8) ||| octet.toUInt64) 0

/-- The `width` lowest octets of a number, lowest first. -/
def littleEndian : Nat → Nat → Bytes
  | 0, _ => []
  | width + 1, number => UInt8.ofNat (number % 256) :: littleEndian width (number / 256)

/-- The number whose octets are given lowest first. -/
def ofLittleEndian : Bytes → Nat
  | [] => 0
  | octet :: rest => octet.toNat + 256 * ofLittleEndian rest

/-- The `width` lowest octets of a number, highest first. -/
def bigEndianOctets (width number : Nat) : Bytes :=
  (littleEndian width number).reverse

@[simp] theorem length_littleEndian (width number : Nat) :
    (littleEndian width number).length = width := by
  induction width generalizing number with
  | zero => rfl
  | succ width ih => simp [littleEndian, ih]

/-- How many numbers can be written in so many octets. -/
def numbersOf : Nat → Nat
  | 0 => 1
  | width + 1 => 256 * numbersOf width

theorem ofLittleEndian_littleEndian (width number : Nat) :
    ofLittleEndian (littleEndian width number) = number % numbersOf width := by
  induction width generalizing number with
  | zero => simp [littleEndian, ofLittleEndian, numbersOf, Nat.mod_one]
  | succ width ih =>
    simp only [littleEndian, ofLittleEndian, ih, numbersOf]
    rw [Nat.mod_mul]
    simp

end Bytes

end FuzzHarness
