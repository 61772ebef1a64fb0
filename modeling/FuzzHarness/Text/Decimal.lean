/-!
# Shortest decimals

A binary fraction is written with the fewest digits that read back as it, the nearest
such decimal, and always by place: never with an exponent.
-/

namespace FuzzHarness.Text.Decimal

/-- A positive binary fraction `mantissa * 2 ^ exponent`, and whether the next smaller
one is nearer than the next larger. -/
structure Fraction where
  mantissa : Nat
  exponent : Int
  lowerIsNearer : Bool
  deriving DecidableEq, Repr

/-- The fraction that the lower sixty-three bits of a finite float encode. -/
def Fraction.ofBits (bits : Nat) : Fraction :=
  let scale : Nat := (bits >>> 52) % 2048
  let part : Nat := bits % (1 <<< 52)
  if scale = 0 then ⟨part, -1074, false⟩
  else ⟨(1 <<< 52) + part, (scale : Int) - 1075, part = 0 && 1 < scale⟩

/-- `base ^ exponent` as a numerator and a denominator. -/
def power (base : Nat) (exponent : Int) : Nat × Nat :=
  if 0 ≤ exponent then (base.pow exponent.toNat, 1) else (1, base.pow (-exponent).toNat)

/-- Whether `digits * 10 ^ place` reads back as a fraction: it lies between the middles
to both neighbours. The middles themselves belong to the even mantissa. -/
def Fraction.isReadFrom (fraction : Fraction) (digits : Nat) (place : Int) : Bool :=
  let (twos, perTwos) := power 2 (fraction.exponent - 2)
  let (tens, perTens) := power 10 place
  let decimal := digits * tens * perTwos
  let lower := (4 * fraction.mantissa - if fraction.lowerIsNearer then 1 else 2) * twos * perTens
  let upper := (4 * fraction.mantissa + 2) * twos * perTens
  if fraction.mantissa % 2 = 0 then lower ≤ decimal && decimal ≤ upper
  else lower < decimal && decimal < upper

/-- The neighbour of a fraction among the multiples of `10 ^ place` that reads back as
it, the nearer one if both do and the larger one if both are as near. -/
def Fraction.onGrid? (fraction : Fraction) (place : Int) : Option Nat :=
  let (twos, perTwos) := power 2 fraction.exponent
  let (tens, perTens) := power 10 place
  let scaled := fraction.mantissa * twos * perTens
  let unit := tens * perTwos
  let below := scaled / unit
  let above := below + 1
  let nearest := if 2 * (scaled % unit) < unit then [below, above] else [above, below]
  nearest.find? fun digits => fraction.isReadFrom digits place

/-- The number of decimal digits before the point of a fraction; not positive if zeros
follow the point. -/
def Fraction.magnitude (fraction : Fraction) : Int :=
  let (twos, perTwos) := power 2 fraction.exponent
  let whole := fraction.mantissa * twos / perTwos
  if 0 < whole then (Nat.toDigits 10 whole).length
  else
    let inverse := (perTwos + fraction.mantissa * twos - 1) / (fraction.mantissa * twos)
    1 - ((Nat.toDigits 10 (inverse - 1)).length : Int)

/-- The fewest digits that read back as a fraction, and the place of the last one.
Seventeen always do. -/
def Fraction.shortest (fraction : Fraction) : Nat × Int :=
  let magnitude := fraction.magnitude
  let grids := (List.range 17).map fun count => magnitude - (count + 1 : Nat)
  (grids.findSome? fun place => (fraction.onGrid? place).map (·, place)).getD (0, 0)

/-- A decimal without the zeros at its end, its digits being given from the last on. -/
def stripZeros : List Char → Int → List Char × Int
  | '0' :: digits, place => stripZeros digits (place + 1)
  | digits, place => (digits.reverse, place)

/-- Digits by place, with a point where places follow it. -/
def byPlace (digits : Nat) (place : Int) : String :=
  let (written, place) := stripZeros (Nat.toDigits 10 digits).reverse place
  if 0 ≤ place then String.ofList (written ++ List.replicate place.toNat '0')
  else
    let places := (-place).toNat
    let padded := List.replicate (places + 1 - written.length) '0' ++ written
    let whole := padded.length - places
    String.ofList (padded.take whole ++ '.' :: padded.drop whole)

/-- A float by the fewest digits that read back as it. -/
def shortest (value : Float) : String :=
  let bits := value.toBits.toNat
  let sign := if 1 <<< 63 ≤ bits then "-" else ""
  let size := bits % (1 <<< 63)
  if 2047 <<< 52 < size then "NaN"
  else if size = 2047 <<< 52 then sign ++ "inf"
  else if size = 0 then sign ++ "0"
  else
    let (digits, place) := (Fraction.ofBits size).shortest
    sign ++ byPlace digits place

end FuzzHarness.Text.Decimal
