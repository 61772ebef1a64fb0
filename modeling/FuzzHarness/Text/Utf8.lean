import FuzzHarness.Bytes

/-!
# UTF-8

A byte string is cut into chunks: characters, maximal invalid prefixes of one to
three octets, and at most one character that the end cuts short. Lenient decoding
writes one replacement character for each chunk that is not a character; strict
decoding refuses the first such chunk and tells where it begins.
-/

namespace FuzzHarness.Text.Utf8

def encode (text : List Char) : Bytes :=
  text.flatMap String.utf8EncodeChar

def ofString (text : String) : Bytes :=
  encode text.toList

/-- A maximal piece of a byte string. -/
inductive Chunk where
  /-- A well-formed character. -/
  | char (c : Char)
  /-- So many octets that begin no character. -/
  | invalid (size : Nat)
  /-- So many octets at the very end that begin a character but do not finish it. -/
  | truncated (size : Nat)
  deriving DecidableEq, Repr

/-- Whether an octet can stand after the first one of a character. -/
def isContinuation (octet : UInt8) : Bool :=
  0x80 ≤ octet && octet ≤ 0xBF

/-- Whether an octet can stand second after a given first one: overlong forms,
surrogates and numbers beyond the last code point are excluded here. -/
def mayFollow (first second : UInt8) : Bool :=
  if first = 0xE0 then 0xA0 ≤ second && second ≤ 0xBF
  else if first = 0xED then 0x80 ≤ second && second ≤ 0x9F
  else if first = 0xF0 then 0x90 ≤ second && second ≤ 0xBF
  else if first = 0xF4 then 0x80 ≤ second && second ≤ 0x8F
  else isContinuation second

/-- The six payload bits of a continuation octet. -/
def payload (octet : UInt8) : Nat :=
  octet.toNat % 64

def chunks : Bytes → List Chunk
  | [] => []
  | a :: rest =>
    if a < 0x80 then .char (Char.ofNat a.toNat) :: chunks rest
    else if a < 0xC2 || 0xF4 < a then .invalid 1 :: chunks rest
    else
      match rest with
      | [] => [.truncated 1]
      | b :: rest =>
        if !mayFollow a b then .invalid 1 :: chunks (b :: rest)
        else if a < 0xE0 then
          .char (Char.ofNat (a.toNat % 32 * 64 + payload b)) :: chunks rest
        else
          match rest with
          | [] => [.truncated 2]
          | c :: rest =>
            if !isContinuation c then .invalid 2 :: chunks (c :: rest)
            else if a < 0xF0 then
              .char (Char.ofNat (a.toNat % 16 * 4096 + payload b * 64 + payload c)) ::
                chunks rest
            else
              match rest with
              | [] => [.truncated 3]
              | d :: rest =>
                if !isContinuation d then .invalid 3 :: chunks (d :: rest)
                else
                  .char (Char.ofNat (a.toNat % 8 * 262144 + payload b * 4096 +
                    payload c * 64 + payload d)) :: chunks rest

/-- The character written for whatever is not one. -/
def replacement : Char :=
  Char.ofNat 0xFFFD

def Chunk.lenient : Chunk → Char
  | .char c => c
  | .invalid _ => replacement
  | .truncated _ => replacement

/-- Decode, writing one replacement character for each chunk that is none. -/
def lossy (octets : Bytes) : String :=
  String.ofList ((chunks octets).map Chunk.lenient)

/-- Where strict decoding stopped: how many octets before are well-formed, and how
many are in the way unless the end cut a character short. -/
structure Fault where
  validUpTo : Nat
  errorLength : Option Nat
  deriving DecidableEq, Repr

def Fault.message (fault : Fault) : String :=
  match fault.errorLength with
  | some length => s!"invalid utf-8 sequence of {length} bytes from index {fault.validUpTo}"
  | none => s!"incomplete utf-8 byte sequence from index {fault.validUpTo}"

/-- Read characters until a chunk is none, `offset` octets being read already. -/
def collect (offset : Nat) : List Chunk → Except Fault (List Char)
  | [] => .ok []
  | .char c :: rest => (collect (offset + (String.utf8EncodeChar c).length) rest).map (c :: ·)
  | .invalid size :: _ => .error ⟨offset, some size⟩
  | .truncated _ :: _ => .error ⟨offset, none⟩

/-- Decode a byte string that is a text throughout. -/
def decode (octets : Bytes) : Except Fault String :=
  (collect 0 (chunks octets)).map String.ofList

end FuzzHarness.Text.Utf8
