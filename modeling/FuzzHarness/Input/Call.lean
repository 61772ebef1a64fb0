import FuzzHarness.Finding.Site
import FuzzHarness.Text.Hex
import FuzzHarness.Text.Quoted
import FuzzHarness.Text.Utf8

/-!
# Provider calls and values

Target code draws typed values from a provider, one call at a time. A call either
yields a value or panics. The value keeps its type, so a list of values is a
complete account of what the target was handed.
-/

namespace FuzzHarness

/-- A value handed out by a provider. -/
inductive Value where
  | bool (value : Bool)
  | u8 (value : UInt8)
  | u16 (value : UInt16)
  | u32 (value : UInt32)
  | u64 (value : UInt64)
  | i32 (value : Int32)
  | i64 (value : Int64)
  | bytes (value : Bytes)
  | str (value : String)
  | remaining (value : UInt64)
  deriving DecidableEq, Repr

namespace Value

/-- A value as plain text: octets in hexadecimal, strings as they are. -/
def text : Value → String
  | .bool value => if value then "true" else "false"
  | .u8 value => toString value.toNat
  | .u16 value => toString value.toNat
  | .u32 value => toString value.toNat
  | .u64 value => toString value.toNat
  | .i32 value => toString value.toInt
  | .i64 value => toString value.toInt
  | .bytes value => Text.hex value
  | .str value => value
  | .remaining value => toString value.toNat

def typeName : Value → String
  | .bool _ => "Bool"
  | .u8 _ => "U8"
  | .u16 _ => "U16"
  | .u32 _ => "U32"
  | .u64 _ => "U64"
  | .i32 _ => "I32"
  | .i64 _ => "I64"
  | .bytes _ => "Bytes"
  | .str _ => "Str"
  | .remaining _ => "Remaining"

/-- A value as messages show it: its type, and the value in parentheses; octets are
listed in decimal, strings are quoted. -/
def describe (value : Value) : String :=
  let shown : String := match value with
    | .bytes octets =>
      let listed := ", ".intercalate (octets.map fun octet => toString octet.toNat)
      s!"[{listed}]"
    | .str content => Text.quoted content
    | value => value.text
  s!"{value.typeName}({shown})"

end Value

/-- A request for one value. Ranges include both ends; the length of bytes and of
strings counts octets of input. -/
inductive Call where
  | bool
  | u8
  | u16
  | u32
  | u64
  | i32
  | i64
  | u64In (min max : UInt64)
  | i64In (min max : Int64)
  | bytes (most : Nat)
  | restBytes
  | string (most : Nat)
  | restString
  | remaining
  deriving DecidableEq, Repr

namespace Call

def request : Call → String
  | .bool => "bool"
  | .u8 => "u8"
  | .u16 => "u16"
  | .u32 => "u32"
  | .u64 => "u64"
  | .i32 => "i32"
  | .i64 => "i64"
  | .u64In _ _ => "u64 in range"
  | .i64In _ _ => "i64 in range"
  | .bytes _ => "bytes"
  | .restBytes => "remaining bytes"
  | .string _ => "string"
  | .restString => "remaining string"
  | .remaining => "remaining byte count"

def largestSize : Nat := UInt64.size - 1

/-- Whether a recorded value answers the request: it has the requested type, lies in
the requested range, and is no longer than requested. An octet of input yields at
most three octets of decoded text, and there is a largest size. -/
def accepts : Call → Value → Bool
  | .bool, .bool _ => true
  | .u8, .u8 _ => true
  | .u16, .u16 _ => true
  | .u32, .u32 _ => true
  | .u64, .u64 _ => true
  | .i32, .i32 _ => true
  | .i64, .i64 _ => true
  | .u64In min max, .u64 value => min ≤ value && value ≤ max
  | .i64In min max, .i64 value => min ≤ value && value ≤ max
  | .bytes most, .bytes value => value.length ≤ most
  | .restBytes, .bytes _ => true
  | .string most, .str value => value.utf8ByteSize ≤ min (3 * most) largestSize
  | .restString, .str _ => true
  | .remaining, .remaining _ => true
  | _, _ => false

end Call

inductive CallFault where
  /-- The lower end of an unsigned range is above the upper one. -/
  | invertedUnsigned (min max : UInt64)
  /-- The lower end of a signed range is above the upper one. -/
  | invertedSigned (min max : Int64)
  /-- A recording holds no further value. -/
  | exhausted (call : Call)
  /-- A recording holds a value that does not answer the request. -/
  | diverged (call : Call) (recorded : Value)
  deriving DecidableEq, Repr

namespace CallFault

def message : CallFault → String
  | .invertedUnsigned min max => s!"min ({min.toNat}) must not exceed max ({max.toNat})"
  | .invertedSigned min max => s!"min ({min.toInt}) must not exceed max ({max.toInt})"
  | .exhausted call =>
    s!"replay exhausted: target requested {call.request} past the end of the recording"
  | .diverged call recorded =>
    s!"replay diverged: target requested {call.request} but the recording holds " ++
      recorded.describe

/-- Where the panic is raised: one site for each kind of fault and request, whatever
the arguments. -/
def site : CallFault → Site
  | .invertedUnsigned _ _ => .symbolic "inverted u64 range"
  | .invertedSigned _ _ => .symbolic "inverted i64 range"
  | .exhausted call => .symbolic s!"replay exhausted by {call.request}"
  | .diverged call _ => .symbolic s!"replay diverged at {call.request}"

end CallFault

/-- A source of values. A call that panics may still have changed the source. -/
class Provider (P : Type) where
  call : Call → P → Except CallFault Value × P

end FuzzHarness
