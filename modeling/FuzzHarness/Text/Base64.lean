import FuzzHarness.Text.Utf8

/-!
# Base64

The standard alphabet with mandatory padding. Only what encoding produces can be
decoded: bits that the last symbol leaves over have to be zero and the padding has
to be complete. An error names the octet that is in the way and its position.
-/

namespace FuzzHarness.Text.Base64

inductive Fault where
  | invalidSymbol (octet : UInt8) (offset : Nat)
  | invalidLength (length : Nat)
  | invalidLastSymbol (octet : UInt8) (offset : Nat)
  | invalidPadding
  deriving DecidableEq, Repr

def Fault.message : Fault → String
  | .invalidSymbol octet offset => s!"Invalid symbol {octet.toNat}, offset {offset}."
  | .invalidLength length => s!"Invalid input length: {length}"
  | .invalidLastSymbol octet offset => s!"Invalid last symbol {octet.toNat}, offset {offset}."
  | .invalidPadding => "Invalid padding"

/-- The symbol of a number below sixty-four. -/
def symbol (n : Nat) : Char :=
  if n < 26 then Char.ofNat (65 + n)
  else if n < 52 then Char.ofNat (71 + n)
  else if n < 62 then Char.ofNat (n - 4)
  else if n = 62 then '+'
  else '/'

def value? (octet : UInt8) : Option Nat :=
  let code := octet.toNat
  if 65 ≤ code ∧ code ≤ 90 then some (code - 65)
  else if 97 ≤ code ∧ code ≤ 122 then some (code - 71)
  else if 48 ≤ code ∧ code ≤ 57 then some (code + 4)
  else if code = 43 then some 62
  else if code = 47 then some 63
  else none

def pad : UInt8 := 61

/-- Write three octets with four symbols; one or two octets at the end with padding. -/
def encodeChars : Bytes → List Char
  | [] => []
  | [a] =>
    [symbol (a.toNat / 4), symbol (a.toNat % 4 * 16), '=', '=']
  | [a, b] =>
    [symbol (a.toNat / 4), symbol (a.toNat % 4 * 16 + b.toNat / 16),
      symbol (b.toNat % 16 * 4), '=']
  | a :: b :: c :: rest =>
    symbol (a.toNat / 4) :: symbol (a.toNat % 4 * 16 + b.toNat / 16) ::
      symbol (b.toNat % 16 * 4 + c.toNat / 64) :: symbol (c.toNat % 64) :: encodeChars rest

def encode (octets : Bytes) : String :=
  String.ofList (encodeChars octets)

/-- The number of the symbol at a position, or the fault of having none there. -/
def valueAt (offset : Nat) (octet : UInt8) : Except Fault Nat :=
  match value? octet with
  | some n => .ok n
  | none => .error (.invalidSymbol octet offset)

/-- The last group of at most four octets, read up to its padding. -/
structure Tail where
  /-- The symbols with their numbers, in order. -/
  symbols : List (UInt8 × Nat)
  /-- How many padding octets follow them. -/
  padding : Nat

/-- Read the last group. Padding may not come before the third place, and nothing
but padding may follow it; the first padding octet is blamed otherwise. -/
def readTail (start : Nat) : Nat → Tail → Bytes → Except Fault Tail
  | _, tail, [] => .ok tail
  | place, tail, octet :: rest =>
    if octet = pad then
      if place < 2 then .error (.invalidSymbol octet (start + place))
      else readTail start (place + 1) ⟨tail.symbols, tail.padding + 1⟩ rest
    else if 0 < tail.padding then
      .error (.invalidSymbol pad (start + tail.symbols.length))
    else
      match valueAt (start + place) octet with
      | .error fault => .error fault
      | .ok n => readTail start (place + 1) ⟨tail.symbols ++ [(octet, n)], tail.padding⟩ rest

/-- The octets of a last group of symbols; the bits left over have to be zero. -/
def closeTail (start : Nat) : List (UInt8 × Nat) → Except Fault Bytes
  | [(_, a), (last, b)] =>
    if b % 16 = 0 then .ok [UInt8.ofNat (a * 4 + b / 16)]
    else .error (.invalidLastSymbol last (start + 1))
  | [(_, a), (_, b), (last, c)] =>
    if c % 4 = 0 then
      .ok [UInt8.ofNat (a * 4 + b / 16), UInt8.ofNat (b % 16 * 16 + c / 4)]
    else .error (.invalidLastSymbol last (start + 2))
  | [(_, a), (_, b), (_, c), (_, d)] =>
    .ok [UInt8.ofNat (a * 4 + b / 16), UInt8.ofNat (b % 16 * 16 + c / 4),
      UInt8.ofNat (c % 4 * 64 + d)]
  | _ => .ok []

/-- Decode the last group, which starts at a given position. -/
def decodeTail (start : Nat) (octets : Bytes) : Except Fault Bytes :=
  if octets.isEmpty then .ok []
  else
    match readTail start 0 ⟨[], 0⟩ octets with
    | .error fault => .error fault
    | .ok tail =>
      if tail.symbols.length < 2 then .error (.invalidLength (start + tail.symbols.length))
      else if (tail.padding + tail.symbols.length) % 4 ≠ 0 then .error .invalidPadding
      else closeTail start tail.symbols

/-- Decode groups of four symbols, the last group being left to `decodeTail`. -/
def decodeFrom (start : Nat) : Bytes → Except Fault Bytes
  | a :: b :: c :: d :: e :: rest =>
    match valueAt start a, valueAt (start + 1) b, valueAt (start + 2) c, valueAt (start + 3) d with
    | .error fault, _, _, _ => .error fault
    | _, .error fault, _, _ => .error fault
    | _, _, .error fault, _ => .error fault
    | _, _, _, .error fault => .error fault
    | .ok p, .ok q, .ok r, .ok s =>
      (decodeFrom (start + 4) (e :: rest)).map fun octets =>
        UInt8.ofNat (p * 4 + q / 16) :: UInt8.ofNat (q % 16 * 16 + r / 4) ::
          UInt8.ofNat (r % 4 * 64 + s) :: octets
  | octets => decodeTail start octets

/-- A lone last octet that is no symbol, such as a line break, is reported before
anything else. -/
def strayEnd (octets : Bytes) : Option Fault :=
  match octets.getLast? with
  | some last =>
    if octets.length % 4 = 1 ∧ last ≠ pad ∧ (value? last).isNone then
      some (.invalidSymbol last (octets.length - 1))
    else none
  | none => none

def decode (octets : Bytes) : Except Fault Bytes :=
  match strayEnd octets with
  | some fault => .error fault
  | none => decodeFrom 0 octets

end FuzzHarness.Text.Base64
