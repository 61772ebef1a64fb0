import FuzzHarness.Toml.Item

/-!
# Numbers

Integers are decimal, or hexadecimal, octal or binary behind a marker, and fit in
sixty-four signed bits. Floats have digits behind a point, an exponent, or both. Single
underscores may stand between digits.
-/

namespace FuzzHarness.Toml.Reader

open Text

def furtherDigits (isDigit : Char → Bool) : Nat → Reader (List Char)
  | 0 => pure []
  | rounds + 1 => do
    let digits ← run isDigit
    match ← get with
    | '_' :: rest =>
      set rest
      unless rest.head?.any isDigit do commit (refuse none ["digit"])
      return digits ++ (← furtherDigits isDigit rounds)
    | _ => return digits

/-- Digits, at least one, without the underscores. -/
def digits (isDigit : Char → Bool) : Reader (List Char) := do
  unless (← next?).any isDigit do refuse none []
  furtherDigits isDigit (← get).length

/-- The digits of a decimal integer; behind a zero no other follows. -/
def decimalDigits : Reader (List Char) := do
  match ← get with
  | '0' :: rest => set rest; return ['0']
  | _ => digits Char.isDigit

def decimalValue (digits : List Char) : Nat :=
  (digitsValue? 10 hexValue? digits).getD 0

/-- A sign, if there is one, and whether it is a minus. -/
def sign : Reader Bool := do
  match ← get with
  | '-' :: rest => set rest; return true
  | '+' :: rest => set rest; return false
  | _ => return false

/-- An integer in a base behind a marker of two characters. -/
def markedInteger (construct : String) (base : Nat) : Reader Scalar := do
  let start ← get
  set (start.drop 2)
  let isDigit := fun c => (hexValue? c).any (· < base)
  let digits ← commit (named construct (digits isDigit))
  let value := (digitsValue? base hexValue? digits).getD 0
  if value < 1 <<< 63 then return .integer value else commit (refuseFor .tooLarge start)

/-- The float of decimal digits, those behind the point apart, with an exponent. Four
hundred places are far beyond any float. -/
def floatOf (negative : Bool) (whole places : List Char) (exponent : Int) : Float :=
  let mantissa := decimalValue (whole ++ places)
  let last := exponent - places.length
  let magnitude := last + (Nat.toDigits 10 mantissa).length
  let size : Float :=
    if mantissa = 0 ∨ magnitude < -400 then 0.0
    else if 400 < magnitude then 1.0 / 0.0
    else Float.ofScientific mantissa (last < 0) last.natAbs
  if negative then -size else size

/-- The digits behind a point, if there is one. -/
def places : Reader (List Char) := do
  match ← get with
  | '.' :: rest =>
    set rest
    commit (telling none ["digit"] (digits Char.isDigit))
  | _ => return []

/-- An exponent, if there is one. -/
def exponent : Reader Int := do
  match ← get with
  | c :: rest =>
    if c = 'e' ∨ c = 'E' then
      set rest
      let negative ← sign
      let value := decimalValue (← commit (digits Char.isDigit))
      return if negative then -value else value
    else return 0
  | [] => return 0

def constant (name : String) (value : Scalar) : Reader Scalar := do
  word name.toList
  return value

def specialFloat (negative : Bool) : Reader Scalar := do
  let signed := fun (size : Float) => Scalar.float (if negative then -size else size)
  match ← attempt (constant "inf" (signed (1.0 / 0.0))) with
  | some value => return value
  | none => constant "nan" (signed (0.0 / 0.0))

/-- A decimal number: an integer, or a float if a point or an exponent follows. -/
def decimalNumber : Reader Scalar := do
  let start ← get
  let negative ← sign
  match ← attempt (specialFloat negative) with
  | some value => return value
  | none =>
    let whole ← named "integer" decimalDigits
    if (← next?).any (fun c => c == '.' || c == 'e' || c == 'E') then
      let places ← named "floating-point number" places
      let exponent ← named "floating-point number" exponent
      let value := floatOf negative whole places exponent
      if value.isInf && !negative then
        set start
        commit (refuse (some "floating-point number") [])
      else return .float value
    else
      let size := decimalValue whole
      if negative then
        if size ≤ 1 <<< 63 then return .integer (-size) else commit (refuseFor .tooSmall start)
      else
        if size < 1 <<< 63 then return .integer size else commit (refuseFor .tooLarge start)

def number : Reader Scalar := do
  match ← get with
  | '0' :: 'x' :: _ => markedInteger "hexadecimal integer" 16
  | '0' :: 'o' :: _ => markedInteger "octal integer" 8
  | '0' :: 'b' :: _ => markedInteger "binary integer" 2
  | _ => decimalNumber

end FuzzHarness.Toml.Reader
