import FuzzHarness.Bytes
import FuzzHarness.Text.Pieces
import FuzzHarness.Text.Blank

/-!
# Hexadecimal text

Octets are written with two lowercase digits each, leading zeros kept; a number is
written without them. Sixty-four bit words are read in either case.
-/

namespace FuzzHarness.Text

/-- The lowercase digit of a number below sixteen. -/
def hexDigit (n : Nat) : Char :=
  if n < 10 then Char.ofNat (48 + n) else Char.ofNat (87 + n)

/-- The value of a digit in either case. -/
def hexValue? (c : Char) : Option Nat :=
  let code := c.toNat
  if 48 ≤ code ∧ code ≤ 57 then some (code - 48)
  else if 97 ≤ code ∧ code ≤ 102 then some (code - 87)
  else if 65 ≤ code ∧ code ≤ 70 then some (code - 55)
  else none

def hexChars (octets : Bytes) : List Char :=
  octets.flatMap fun octet => [hexDigit (octet.toNat / 16), hexDigit (octet.toNat % 16)]

def hex (octets : Bytes) : String :=
  String.ofList (hexChars octets)

/-- The octets written by pairs of digits in either case. -/
def unhex? : List Char → Option Bytes
  | [] => some []
  | high :: low :: rest => do
    let octet := UInt8.ofNat ((← hexValue? high) * 16 + (← hexValue? low))
    return octet :: (← unhex? rest)
  | [_] => none

/-- The lowercase digits of a number, without leading zeros. -/
def hexNumber (n : Nat) : List Char :=
  Nat.toDigits 16 n

def hexWord (word : UInt64) : String :=
  hex (Bytes.bigEndianOctets 8 word.toNat)

/-- The number written by a list of digits in a given base, highest first;
`none` at the first character that is not one of its digits. -/
def digitsValue? (base : Nat) (digit? : Char → Option Nat) (digits : List Char) : Option Nat :=
  digits.foldlM (fun value c => (digit? c).map fun d => value * base + d) 0

/-- A word read from hexadecimal text: a plus sign is allowed, at least one digit is
needed, and the value has to fit. -/
def hexWord? (text : List Char) : Option UInt64 :=
  let digits := match text with
    | '+' :: rest => rest
    | text => text
  if digits.isEmpty then none
  else
    match digitsValue? 16 hexValue? digits with
    | some value => if value < UInt64.size then some (UInt64.ofNat value) else none
    | none => none

end FuzzHarness.Text
