/-!
Floating point numbers with 53 significant bits, and the one nearest to a given decimal. A
finite number is a mantissa times a power of two; the least exponent is -1074 and mantissas
below `2 ^ 52` occur only there. A decimal half way between two numbers goes to the one with
the even mantissa, and one at or past the last number's upper neighbour is infinite.
-/

namespace ProofBuild

inductive Binary64 where
  | nan
  | infinite (negative : Bool)
  | finite (negative : Bool) (mantissa : Nat) (exponent : Int)
  deriving DecidableEq, Repr

namespace Binary64

def tenTo (power : Nat) : Nat := Nat.pow 10 power

/-- The fraction `numerator / denominator` times a power of two. -/
def scale (numerator denominator : Nat) (power : Int) : Nat × Nat :=
  if 0 ≤ power then (numerator <<< power.toNat, denominator)
  else (numerator, denominator <<< (-power).toNat)

/-- The quotient rounded to the nearest number, to the even one from half way. -/
def roundQuotient (numerator denominator : Nat) : Nat :=
  let quotient := numerator / denominator
  let twice := 2 * (numerator % denominator)
  if twice < denominator then quotient
  else if denominator < twice then quotient + 1
  else quotient + quotient % 2

/-- The number nearest to a fraction with a positive denominator. -/
def nearest (negative : Bool) (numerator denominator : Nat) : Binary64 :=
  if numerator = 0 then .finite negative 0 (-1074)
  else
    let guess : Int := (numerator.log2 : Int) - denominator.log2 - 53
    let fraction := scale numerator denominator (-guess)
    let fitted := if fraction.1 < fraction.2 <<< 53 then guess else guess + 1
    let exponent := max fitted (-1074)
    let exact := scale numerator denominator (-exponent)
    let mantissa := roundQuotient exact.1 exact.2
    if mantissa = 1 <<< 53 then
      if 970 < exponent then .infinite negative else .finite negative (1 <<< 52) (exponent + 1)
    else if 971 < exponent then .infinite negative
    else .finite negative mantissa exponent

/-- The number nearest to `digits * 10 ^ exponent`. Decimals far outside the range of finite
numbers are settled by the place of their first digit alone. -/
def ofDecimal (negative : Bool) (digits : Nat) (exponent : Int) : Binary64 :=
  let place : Int := (Nat.toDigits 10 digits).length + exponent
  if digits = 0 ∨ place < -330 then .finite negative 0 (-1074)
  else if 310 < place then .infinite negative
  else if 0 ≤ exponent then nearest negative (digits * tenTo exponent.toNat) 1
  else nearest negative digits (tenTo (-exponent).toNat)

end Binary64

end ProofBuild
