import ProofBuild.Decimal.Binary64

/-!
The shortest decimal that reads back as a given floating point number. Of all decimals between
the midpoints to the two neighbours, those with the fewest digits are taken, of these the one
nearest to the number, and of two at the same distance the larger.
-/

namespace ProofBuild.Binary64

/-- A decimal: `digits * 10 ^ exponent`. -/
structure Decimal where
  digits : Nat
  exponent : Int
  deriving DecidableEq, Repr

/-- The decimals that read back as `mantissa * 2 ^ exponent`, in quarters of its last place: the
bounds, and whether they belong to the range. -/
structure Neighbourhood where
  low : Nat
  value : Nat
  high : Nat
  closed : Bool
  /-- a quarter of the last place, as a fraction -/
  unit : Nat × Nat

def neighbourhood (mantissa : Nat) (exponent : Int) : Neighbourhood :=
  let narrow := mantissa = 1 <<< 52 ∧ -1074 < exponent
  { low := 4 * mantissa - (if narrow then 1 else 2)
    value := 4 * mantissa
    high := 4 * mantissa + 2
    closed := mantissa % 2 = 0
    unit := scale 1 1 (exponent - 2) }

/-- A decimal and a count of quarters, over one denominator. -/
def Neighbourhood.overOne (around : Neighbourhood) (decimal : Decimal) (quarters : Nat) : Nat × Nat :=
  if 0 ≤ decimal.exponent then
    (decimal.digits * tenTo decimal.exponent.toNat * around.unit.2, quarters * around.unit.1)
  else
    (decimal.digits * around.unit.2,
      quarters * around.unit.1 * tenTo (-decimal.exponent).toNat)

def Neighbourhood.holds (around : Neighbourhood) (decimal : Decimal) : Bool :=
  let lower := around.overOne decimal around.low
  let upper := around.overOne decimal around.high
  if around.closed then lower.2 ≤ lower.1 ∧ upper.1 ≤ upper.2
  else lower.2 < lower.1 ∧ upper.1 < upper.2

/-- The distance to the number, comparable between decimals of one exponent. -/
def Neighbourhood.distance (around : Neighbourhood) (decimal : Decimal) : Nat :=
  let both := around.overOne decimal around.value
  if both.1 ≤ both.2 then both.2 - both.1 else both.1 - both.2

/-- How many digits the number has before the point; zero or less for numbers below one. -/
def Neighbourhood.place (around : Neighbourhood) : Int :=
  let raised := around.value * around.unit.1 * tenTo 400 / around.unit.2
  (Nat.toDigits 10 raised).length - 400

/-- The nearer of the two decimals with `count` digits around the number, if one reads back. -/
def Neighbourhood.withDigits (around : Neighbourhood) (count : Nat) : Option Decimal :=
  let exponent := around.place - count
  let whole := around.overOne ⟨1, exponent⟩ around.value
  let below : Decimal := ⟨whole.2 / whole.1, exponent⟩
  let above : Decimal := ⟨whole.2 / whole.1 + 1, exponent⟩
  match around.holds below, around.holds above with
  | true, true => if around.distance below < around.distance above then some below else some above
  | true, false => some below
  | false, true => some above
  | false, false => none

/-- The same decimal without zeros at the end of its digits. -/
def Decimal.stripped (decimal : Decimal) : Decimal :=
  let kept := (Nat.toDigits 10 decimal.digits).reverse.dropWhile (· == '0')
  let dropped := (Nat.toDigits 10 decimal.digits).length - kept.length
  ⟨decimal.digits / tenTo dropped, decimal.exponent + dropped⟩

/-- Seventeen digits always suffice. -/
def shortest (mantissa : Nat) (exponent : Int) : Decimal :=
  let around := neighbourhood mantissa exponent
  if mantissa = 0 then ⟨0, 0⟩
  else match (List.range 17).findSome? fun fewer => around.withDigits (fewer + 1) with
    | some decimal => decimal.stripped
    | none => ⟨0, 0⟩

/-- Write a decimal without an exponent. -/
def Decimal.positional (decimal : Decimal) : String :=
  let digits := Nat.toDigits 10 decimal.digits
  if 0 ≤ decimal.exponent then
    String.ofList (digits ++ List.replicate decimal.exponent.toNat '0')
  else
    let places := (-decimal.exponent).toNat
    let padded := List.replicate (places + 1 - digits.length) '0' ++ digits
    let whole := padded.take (padded.length - places)
    let rest := padded.drop (padded.length - places)
    String.ofList (whole ++ '.' :: rest)

/-- The number as text: always with a point when finite. -/
def describe : Binary64 → String
  | .nan => "NaN"
  | .infinite negative => if negative then "-inf" else "inf"
  | .finite negative mantissa exponent =>
      let text := (shortest mantissa exponent).positional
      let pointed := if '.' ∈ text.toList then text else text ++ ".0"
      if negative then "-" ++ pointed else pointed

end ProofBuild.Binary64
