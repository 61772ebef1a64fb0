import FuzzHarness.Recording.Tape
import FuzzHarness.Text.Base64
import FuzzHarness.Text.Blank

/-!
# The text of a recording

A recording is written as the number of its values, then each value as the number
of its kind and its payload. Numbers take one octet below 251; otherwise a marker
tells how many octets follow, lowest first. Signed numbers are folded onto the
naturals by their distance from zero. The octets are printed in Base64.

Every reader returns what follows the item it reads, so the format delimits itself.
-/

namespace FuzzHarness

namespace Recording

/-- Sizes of written numbers, as their markers tell them apart. -/
inductive Width where
  | bits16
  | bits32
  | bits64
  | bits128
  | reserved
  deriving DecidableEq, Repr

/-- The name of a size, by the signedness of the number in question. -/
def Width.name (signed : Bool) (width : Width) : String :=
  let letter := if signed then "I" else "U"
  match width with
  | .bits16 => letter ++ "16"
  | .bits32 => letter ++ "32"
  | .bits64 => letter ++ "64"
  | .bits128 => letter ++ "128"
  | .reserved => "Reserved"

inductive DecodeFault where
  /-- The item being read lacks so many octets. -/
  | unexpectedEnd (additional : Nat)
  | unexpectedKind (found : Nat)
  | invalidBoolean (octet : UInt8)
  | invalidInteger (signed : Bool) (expected found : Width)
  | utf8 (fault : Text.Utf8.Fault)
  deriving DecidableEq, Repr

def DecodeFault.message : DecodeFault → String
  | .unexpectedEnd additional =>
    "UnexpectedEnd \x7b additional: " ++ toString additional ++ " \x7d"
  | .unexpectedKind found =>
    "UnexpectedVariant \x7b type_name: \"RecordedValue\", allowed: Range \x7b min: 0, max: 9 " ++
      "\x7d, found: " ++ toString found ++ " \x7d"
  | .invalidBoolean octet => s!"InvalidBooleanValue({octet.toNat})"
  | .invalidInteger signed expected found =>
    "InvalidIntegerType \x7b expected: " ++ expected.name signed ++ ", found: " ++
      found.name signed ++ " \x7d"
  | .utf8 fault =>
    let length := match fault.errorLength with
      | some length => s!"Some({length})"
      | none => "None"
    "Utf8 \x7b inner: Utf8Error \x7b valid_up_to: " ++ toString fault.validUpTo ++
      ", error_len: " ++ length ++ " \x7d \x7d"

/-- The texts of a fault and of what lies behind it. -/
def DecodeFault.messages : DecodeFault → List String
  | .utf8 fault => [(DecodeFault.utf8 fault).message, fault.message]
  | fault => [fault.message]

/-- Reading an item yields it together with what follows. -/
abbrev Reader (α : Type) := Bytes → Except DecodeFault (α × Bytes)

/-- Write a natural number below 2^64. -/
def writeNumber (n : Nat) : Bytes :=
  if n < 251 then [UInt8.ofNat n]
  else if n < UInt16.size then 251 :: Bytes.littleEndian 2 n
  else if n < UInt32.size then 252 :: Bytes.littleEndian 4 n
  else 253 :: Bytes.littleEndian 8 n

/-- Read so many octets. -/
def readOctets (count : Nat) : Reader Bytes := fun input =>
  if input.length < count then .error (.unexpectedEnd (count - input.length))
  else .ok (input.take count, input.drop count)

def readOctet : Reader UInt8
  | [] => .error (.unexpectedEnd 1)
  | octet :: rest => .ok (octet, rest)

/-- Read a number of so many octets, lowest first. -/
def readWord (count : Nat) : Reader Nat := fun input =>
  (readOctets count input).map fun (octets, rest) => (Bytes.ofLittleEndian octets, rest)

/-- The rank of a size among those that a reader may allow. -/
def Width.rank : Width → Nat
  | .bits16 => 1
  | .bits32 => 2
  | .bits64 => 3
  | .bits128 => 4
  | .reserved => 5

/-- The size that a fault calls expected, given how many octets follow the marker. A
number of sixty-four bits that could be there in full is said to have thirty-two. -/
def Width.expected (limit : Width) (following : Nat) : Width :=
  if limit = .bits64 ∧ 8 ≤ following then .bits32 else limit

/-- Read a number that is written with at most a given size; more octets than the
number needs are accepted. -/
def readNumber (signed : Bool) (limit : Width) : Reader Nat
  | [] => .error (.unexpectedEnd 1)
  | marker :: rest =>
    let sized (width : Width) (count : Nat) :=
      if width.rank ≤ limit.rank then readWord count rest
      else .error (.invalidInteger signed (limit.expected rest.length) width)
    if marker < 251 then .ok (marker.toNat, rest)
    else if marker = 251 then sized .bits16 2
    else if marker = 252 then sized .bits32 4
    else if marker = 253 then sized .bits64 8
    else if marker = 254 then
      .error (.invalidInteger signed (limit.expected rest.length) .bits128)
    else .error (.invalidInteger signed (limit.expected rest.length) .reserved)

/-- Fold a signed number onto the naturals. -/
def zigzag (n : Int) : Nat :=
  if 0 ≤ n then 2 * n.toNat else 2 * (-n).toNat - 1

/-- Unfold a signed number. -/
def unzigzag (n : Nat) : Int :=
  if n % 2 = 0 then Int.ofNat (n / 2) else -Int.ofNat ((n + 1) / 2)

/-- Write octets behind their number. -/
def writeOctets (octets : Bytes) : Bytes :=
  writeNumber octets.length ++ octets

def readSized : Reader Bytes := fun input =>
  match readNumber false .bits64 input with
  | .error fault => .error fault
  | .ok (length, rest) => readOctets length rest

def writeValue : Value → Bytes
  | .bool value => [0, if value then 1 else 0]
  | .u8 value => [1, value]
  | .u16 value => 2 :: writeNumber value.toNat
  | .u32 value => 3 :: writeNumber value.toNat
  | .u64 value => 4 :: writeNumber value.toNat
  | .i32 value => 5 :: writeNumber (zigzag value.toInt)
  | .i64 value => 6 :: writeNumber (zigzag value.toInt)
  | .bytes value => 7 :: writeOctets value
  | .str value => 8 :: writeOctets (Text.Utf8.ofString value)
  | .remaining value => 9 :: writeNumber value.toNat

def readPayload (kind : Nat) : Reader Value := fun input =>
  match kind with
  | 0 =>
    match readOctet input with
    | .error fault => .error fault
    | .ok (octet, rest) =>
      if octet = 0 then .ok (.bool false, rest)
      else if octet = 1 then .ok (.bool true, rest)
      else .error (.invalidBoolean octet)
  | 1 => (readOctet input).map fun (octet, rest) => (.u8 octet, rest)
  | 2 => (readNumber false .bits16 input).map fun (n, rest) => (.u16 (UInt16.ofNat n), rest)
  | 3 => (readNumber false .bits32 input).map fun (n, rest) => (.u32 (UInt32.ofNat n), rest)
  | 4 => (readNumber false .bits64 input).map fun (n, rest) => (.u64 (UInt64.ofNat n), rest)
  | 5 =>
    (readNumber true .bits32 input).map fun (n, rest) =>
      (.i32 (Int32.ofInt (unzigzag n)), rest)
  | 6 =>
    (readNumber true .bits64 input).map fun (n, rest) =>
      (.i64 (Int64.ofInt (unzigzag n)), rest)
  | 7 => (readSized input).map fun (octets, rest) => (.bytes octets, rest)
  | 8 =>
    match readSized input with
    | .error fault => .error fault
    | .ok (octets, rest) =>
      match Text.Utf8.decode octets with
      | .ok text => .ok (.str text, rest)
      | .error fault => .error (.utf8 fault)
  | 9 =>
    (readNumber false .bits64 input).map fun (n, rest) => (.remaining (UInt64.ofNat n), rest)
  | kind => .error (.unexpectedKind kind)

def readValue : Reader Value := fun input =>
  match readNumber false .bits32 input with
  | .error fault => .error fault
  | .ok (kind, rest) => readPayload kind rest

/-- Read so many values. -/
def readValues : Nat → Reader Recording
  | 0 => fun input => .ok ([], input)
  | count + 1 => fun input =>
    match readValue input with
    | .error fault => .error fault
    | .ok (value, rest) =>
      (readValues count rest).map fun (values, rest) => (value :: values, rest)

def write (recording : Recording) : Bytes :=
  writeNumber recording.length ++ recording.flatMap writeValue

def read : Reader Recording := fun input =>
  match readNumber false .bits64 input with
  | .error fault => .error fault
  | .ok (count, rest) => readValues count rest

inductive Fault where
  | base64 (fault : Text.Base64.Fault)
  | decode (fault : DecodeFault)
  deriving DecidableEq, Repr

namespace Fault

def message : Fault → String
  | .base64 fault => "recording is not valid base64: " ++ fault.message
  | .decode fault => "failed to decode recording: " ++ fault.message

/-- The texts of a fault and of what lies behind it. -/
def messages : Fault → List String
  | .base64 fault => [(Fault.base64 fault).message, fault.message]
  | .decode fault => (Fault.decode fault).message :: fault.messages

end Fault

def encode (recording : Recording) : String :=
  Text.Base64.encode recording.write

/-- Read a recording from its text, blanks around it and octets after it not
counting. -/
def decode (text : String) : Except Fault Recording :=
  match Text.Base64.decode (Text.Utf8.encode (Text.trim text.toList)) with
  | .error fault => .error (.base64 fault)
  | .ok octets =>
    match read octets with
    | .error fault => .error (.decode fault)
    | .ok (recording, _) => .ok recording

end Recording

end FuzzHarness
