import TemplateTags.Number.Binary64
import TemplateTags.Text.Basic
/-!
# Shortest decimals

`Binary64.render` writes a number with the fewest digits that read back as that
number, and of those with the digits nearest to it. The digits are written out in
full, without an exponent.
-/

namespace TemplateTags

/-- `digits` times ten to the power of `exponent`. -/
structure Decimal where
  digits : Nat
  exponent : Int
deriving DecidableEq, Repr

namespace Decimal

/-- All digits, with a point if there are any behind it. -/
def render (d : Decimal) : Text :=
  let digits := Text.ofNat d.digits
  if 0 ≤ d.exponent then digits ++ List.replicate d.exponent.toNat '0'
  else
    let places := (-d.exponent).toNat
    let padded := List.replicate (places + 1 - digits.length) '0' ++ digits
    padded.take (padded.length - places) ++ ['.']
      ++ padded.drop (padded.length - places)

/-- The same number without zeros at the end of its digits; the fuel
bounds their number. -/
def trimWithin : Nat → Decimal → Decimal
  | 0, d => d
  | fuel + 1, d =>
    if d.digits % 10 = 0 then trimWithin fuel ⟨d.digits / 10, d.exponent + 1⟩ else d

def trim (d : Decimal) : Decimal := trimWithin (Text.ofNat d.digits).length d

end Decimal

namespace Binary64

/-- A positive number in quarters of its last mantissa bit, between the two
halfway points to its neighbours. The scale is `num / den` per quarter. -/
structure Interval where
  low : Nat
  value : Nat
  high : Nat
  /-- whether the ends still round to the number -/
  closed : Bool
  num : Nat
  den : Nat
deriving Repr

/-- The decimals that read back as a positive number. Below a power of two the
neighbours are nearer. -/
def interval (mantissa : Nat) (exponent : Int) : Interval :=
  let below := if mantissa = mantissaLimit / 2 &&
    minExponent < exponent then 1 else 2
  let scale := scaleDown 1 1 (2 - exponent)
  ⟨4 * mantissa - below, 4 * mantissa, 4 * mantissa + 2, mantissa % 2 = 0,
    scale.1, scale.2⟩

/-- A decimal as a fraction. -/
def fraction (d : Decimal) : Nat × Nat :=
  if 0 ≤ d.exponent then (d.digits * Nat.pow 10 d.exponent.toNat, 1)
  else (d.digits, Nat.pow 10 (-d.exponent).toNat)

/-- Whether a decimal lies in the interval. -/
def Interval.contains (i : Interval) (d : Decimal) : Bool :=
  let f := fraction d
  let left := f.1 * i.den
  let low := i.low * i.num * f.2
  let high := i.high * i.num * f.2
  if i.closed then low ≤ left && left ≤ high else low < left && left < high

/-- The decimal of the interval on the grid of a power of ten that is nearest to
the number, the upper one of two equally near. -/
def Interval.onGrid? (i : Interval) (power : Int) : Option Decimal :=
  let unit := fraction ⟨1, power⟩
  let num := i.value * i.num * unit.2
  let den := i.den * unit.1
  let lower : Decimal := ⟨num / den, power⟩
  let upper : Decimal := ⟨num / den + 1, power⟩
  let upperFirst := den ≤ 2 * (num % den)
  let nearer := if upperFirst then upper else lower
  let farther := if upperFirst then lower else upper
  if i.contains nearer then some nearer
  else if i.contains farther then some farther else none

/-- A power of ten below all positive numbers. -/
def gridBase : Nat := 400

/-- The power of ten of the first digit of the number. -/
def Interval.leadingPower (i : Interval) : Int :=
  let scaled := i.value * i.num * Nat.pow 10 gridBase / i.den
  ((Nat.toDigits 10 scaled).length : Int) - 1 - gridBase

/-- Seventeen digits tell any two numbers apart. -/
def maxDigits : Nat := 17

/-- The shortest decimal of the interval: the first hit on grids of one digit, two
digits and so on. -/
def Interval.shortest (i : Interval) : Decimal :=
  let power := i.leadingPower
  match (List.range maxDigits).findSome? fun (more : Nat) =>
    i.onGrid? (power - more) with
  | some d => d.trim
  | none => ⟨0, 0⟩

/-- The written form of a number. Zero keeps its sign. -/
def render : Binary64 → Text
  | nan => ['N', 'a', 'N']
  | infinite negative => (if negative then ['-'] else []) ++ ['i', 'n', 'f']
  | finite negative mantissa exponent =>
    let sign := if negative then ['-'] else []
    if mantissa = 0 then sign ++ ['0']
    else sign ++ (interval mantissa exponent).shortest.render

end Binary64

end TemplateTags
