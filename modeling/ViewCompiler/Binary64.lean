import ViewCompiler.Decimal

/-!
# Binary Floating Point

Finite numbers of the double precision format, as a sign, a mantissa and a
power of two.

The program never computes with these numbers. It reads them from a decimal,
compares them and writes them back, and all three are exact questions about
whole numbers. So the type holds whole numbers and nothing is left to the
arithmetic of the machine.

A number is held in one form only: the mantissa has 53 bits, or fewer where
the exponent has reached its least value.

## Main definitions

* `Binary64`: A sign, a mantissa and an exponent.
* `Binary64.nearest?`: The number next to a decimal.
* `Binary64.same`: Equality of values; the two zeros are equal.
-/

namespace ViewCompiler

/-- The number `± mantissa * 2 ^ exponent`. -/
structure Binary64 where
  negative : Bool
  mantissa : Nat
  exponent : Int
deriving DecidableEq

namespace Binary64

/-- Two to the power 53, which every mantissa is below. -/
def mantissaBound : Nat := 9007199254740992

/-- Two to the power 52, the least mantissa of 53 bits. -/
def leastNormal : Nat := 4503599627370496

/-- The least exponent of a number. -/
def leastExponent : Int := -1074

/-- The greatest exponent of a number. -/
def mostExponent : Int := 971

/-- Zero, of either sign. -/
def zero (negative : Bool) : Binary64 := ⟨negative, 0, leastExponent⟩

/-- Equality of values: the two zeros are one number. -/
def same (a b : Binary64) : Bool :=
  (a.mantissa == 0 && b.mantissa == 0) || a == b

/-- The fraction `num / den` divided by a power of two. -/
def scaled (num den : Nat) (exponent : Int) : Nat × Nat :=
  if 0 ≤ exponent then (num, den * Nat.pow 2 exponent.toNat)
  else (num * Nat.pow 2 (-exponent).toNat, den)

/-- The mantissa and exponent next to a positive fraction, however large the
    exponent has to be. The guess is at most one too small: the quotient of
    two numbers lies between the neighbours of the difference of their
    logarithms. -/
def nearestPair (num den : Nat) : Nat × Int :=
  let guess : Int := max ((Nat.log2 num : Int) - Nat.log2 den - 53) leastExponent
  let (n, d) := scaled num den guess
  let exponent := if mantissaBound ≤ n / d then guess + 1 else guess
  let (n, d) := scaled num den exponent
  let mantissa := Decimal.roundDiv n d
  if mantissa = mantissaBound then (leastNormal, exponent + 1) else (mantissa, exponent)

/-- The number next to a positive fraction, unless it is out of range. -/
def nearestFraction? (negative : Bool) (num den : Nat) : Option Binary64 :=
  let (mantissa, exponent) := nearestPair num den
  if exponent ≤ mostExponent then some ⟨negative, mantissa, exponent⟩ else none

/-- The number next to a decimal, unless it is out of range. A decimal that is
    out of range by far, or that rounds to zero by far, is recognised by the
    magnitude of its first digit, before any power of ten is computed. -/
def nearest? (negative : Bool) (value : Decimal) : Option Binary64 :=
  if value.significand = 0 then some (zero negative)
  else
    let magnitude : Int := value.exponent + Decimal.digitCount value.significand
    if 400 < magnitude then none
    else if magnitude < -400 then some (zero negative)
    else if 0 ≤ value.exponent then
      nearestFraction? negative (value.significand * Nat.pow 10 value.exponent.toNat) 1
    else nearestFraction? negative value.significand (Nat.pow 10 (-value.exponent).toNat)

end Binary64

end ViewCompiler
