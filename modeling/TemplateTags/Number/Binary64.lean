/-!
# Binary floating-point numbers

A `Binary64` is a number of the 64-bit binary format, kept exactly as a
mantissa and a power of two. `Binary64.ofDecimal` rounds a decimal to the
nearest one, `Binary64.roundToNat` rounds back to a whole number. All
arithmetic is on natural numbers.
-/

namespace TemplateTags

/-- A number of the 64-bit binary format. A finite one is mantissa times
two to the exponent. -/
inductive Binary64 where
  | nan
  | infinite (negative : Bool)
  | finite (negative : Bool) (mantissa : Nat) (exponent : Int)
deriving DecidableEq, Repr

namespace Binary64

/-- The exponent of the smallest positive number. -/
def minExponent : Int := -1074

/-- The exponent of the greatest finite number. -/
def maxExponent : Int := 971

/-- One more than the greatest mantissa. -/
def mantissaLimit : Nat := Nat.pow 2 53

/-- A quotient rounded to the nearest whole number, a half to the even one. -/
def divideToEven (num den : Nat) : Nat :=
  let whole := num / den
  let twice := 2 * (num % den)
  if twice < den then whole
  else if den < twice then whole + 1
  else if whole % 2 = 0 then whole
  else whole + 1

/-- `num / den` times two to the power of `-exponent`, as a fraction. -/
def scaleDown (num den : Nat) (exponent : Int) : Nat × Nat :=
  if 0 ≤ exponent then (num, den * Nat.pow 2 exponent.toNat)
  else (num * Nat.pow 2 (-exponent).toNat, den)

/-- The exponent with which `num / den`, a positive fraction, has a mantissa of 53
bits, or the least exponent there is. -/
def exponentFor (num den : Nat) : Int :=
  let guess : Int := (Nat.log2 num : Int) - Nat.log2 den - 52
  let scaled := scaleDown num den guess
  max minExponent (if scaled.1 < Nat.pow 2 52 * scaled.2 then guess - 1 else guess)

/-- The number nearest to a positive fraction, a half to the even mantissa. -/
def ofFraction (negative : Bool) (num den : Nat) : Binary64 :=
  let exponent := exponentFor num den
  let scaled := scaleDown num den exponent
  let mantissa := divideToEven scaled.1 scaled.2
  let carried := mantissa = mantissaLimit
  let mantissa := if carried then mantissaLimit / 2 else mantissa
  let exponent := if carried then exponent + 1 else exponent
  if maxExponent < exponent then infinite negative
  else finite negative mantissa exponent

/-- Decimal exponents from here on are too large for any mantissa. -/
def decimalRange : Int := 400

/-- The number nearest to `digits` times ten to the power of `exponent`. -/
def ofDecimal (negative : Bool) (digits : Nat) (exponent : Int) : Binary64 :=
  let magnitude := exponent + (Nat.toDigits 10 digits).length
  if digits = 0 || magnitude < -decimalRange then finite negative 0 minExponent
  else if decimalRange < magnitude then infinite negative
  else if 0 ≤ exponent then
    ofFraction negative (digits * Nat.pow 10 exponent.toNat) 1
  else ofFraction negative digits (Nat.pow 10 (-exponent).toNat)

/-- The nearest whole number that is not negative and at most `limit`, a half away
from zero. What is no number counts as zero. -/
def roundToNat (limit : Nat) : Binary64 → Nat
  | nan => 0
  | infinite negative => if negative then 0 else limit
  | finite negative mantissa exponent =>
    if negative then 0
    else
      let scaled := scaleDown mantissa 1 (-exponent)
      min limit ((2 * scaled.1 + scaled.2) / (2 * scaled.2))

end Binary64

end TemplateTags
